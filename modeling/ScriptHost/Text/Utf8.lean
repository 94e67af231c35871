/-! UTF-8: the bytes of a text, and a decoder that accepts every byte sequence.
A part that is not well formed becomes one replacement character, and the part is as long as it could
still have been the start of a character. -/
namespace ScriptHost.Text

abbrev Bytes := ByteArray

instance : DecidableEq Bytes := ByteArray.instDecidableEq

/-- The character that stands for an ill-formed part. -/
def replacement : Char := '\uFFFD'

def isContinuation (b : UInt8) : Bool := 0x80 ≤ b && b ≤ 0xBF

/-- Whether `second` may follow the lead byte `lead` of a character of three or four bytes. The narrower
ranges exclude overlong forms, surrogates and code points past the last plane. -/
def allowsSecond (lead second : UInt8) : Bool :=
  if lead == 0xE0 then 0xA0 ≤ second && second ≤ 0xBF
  else if lead == 0xED then 0x80 ≤ second && second ≤ 0x9F
  else if lead == 0xF0 then 0x90 ≤ second && second ≤ 0xBF
  else if lead == 0xF4 then 0x80 ≤ second && second ≤ 0x8F
  else isContinuation second

/-- The low six bits of a continuation byte. -/
def payload (b : UInt8) : Nat := b.toNat % 64

/-- Appends the text of `bytes` to `out`; ill-formed parts become replacement characters. -/
def decodeOnto (out : String) : List UInt8 → String
  | [] => out
  | b :: rest =>
    if b < 0x80 then decodeOnto (out.push (Char.ofNat b.toNat)) rest
    else if 0xC2 ≤ b && b ≤ 0xDF then
      match rest with
      | [] => out.push replacement
      | c :: rest' =>
        if isContinuation c then
          decodeOnto (out.push (Char.ofNat (b.toNat % 32 * 64 + payload c))) rest'
        else decodeOnto (out.push replacement) (c :: rest')
    else if 0xE0 ≤ b && b ≤ 0xEF then
      match rest with
      | [] => out.push replacement
      | c :: rest' =>
        if allowsSecond b c then
          match rest' with
          | [] => out.push replacement
          | d :: rest'' =>
            if isContinuation d then
              decodeOnto
                (out.push (Char.ofNat (b.toNat % 16 * 4096 + payload c * 64 + payload d))) rest''
            else decodeOnto (out.push replacement) (d :: rest'')
        else decodeOnto (out.push replacement) (c :: rest')
    else if 0xF0 ≤ b && b ≤ 0xF4 then
      match rest with
      | [] => out.push replacement
      | c :: rest' =>
        if allowsSecond b c then
          match rest' with
          | [] => out.push replacement
          | d :: rest'' =>
            if isContinuation d then
              match rest'' with
              | [] => out.push replacement
              | e :: rest''' =>
                if isContinuation e then
                  decodeOnto
                    (out.push (Char.ofNat
                      (b.toNat % 8 * 262144 + payload c * 4096 + payload d * 64 + payload e))) rest'''
                else decodeOnto (out.push replacement) (e :: rest''')
            else decodeOnto (out.push replacement) (d :: rest'')
        else decodeOnto (out.push replacement) (c :: rest')
    else decodeOnto (out.push replacement) rest

def decodeLossy (bytes : Bytes) : String := decodeOnto "" bytes.data.toList

end ScriptHost.Text
