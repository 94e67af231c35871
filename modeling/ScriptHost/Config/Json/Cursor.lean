import ScriptHost.Text.Utf8
/-! A place in a JSON text, failures with the place where they arose, and the reading of blanks, words,
strings and numbers. -/
namespace ScriptHost.Config.Json
open Text (Bytes)

structure Cursor where
  text : Bytes
  index : Nat := 0

inductive Fault where
  | endInList
  | endInObject
  | endInString
  | endInValue
  | expectedColon
  | expectedListEnd
  | expectedObjectEnd
  | expectedWord
  | expectedValue
  | invalidEscape
  | invalidNumber
  | numberOutOfRange
  | loneSurrogate
  | unfinishedEscape
  | controlCharacter
  | keyNotString
  | trailingComma
  | trailingCharacters
  | unfit (text : String)
  deriving DecidableEq, Repr

def Fault.message : Fault → String
  | .endInList => "EOF while parsing a list"
  | .endInObject => "EOF while parsing an object"
  | .endInString => "EOF while parsing a string"
  | .endInValue => "EOF while parsing a value"
  | .expectedColon => "expected `:`"
  | .expectedListEnd => "expected `,` or `]`"
  | .expectedObjectEnd => "expected `,` or `\x7d`"
  | .expectedWord => "expected ident"
  | .expectedValue => "expected value"
  | .invalidEscape => "invalid escape"
  | .invalidNumber => "invalid number"
  | .numberOutOfRange => "number out of range"
  | .loneSurrogate => "lone leading surrogate in hex escape"
  | .unfinishedEscape => "unexpected end of hex escape"
  | .controlCharacter => "control character (\\u0000-\\u001F) found while parsing a string"
  | .keyNotString => "key must be a string"
  | .trailingComma => "trailing comma"
  | .trailingCharacters => "trailing characters"
  | .unfit text => text

/-- A line, from one on, and the number of bytes of that line that lie before or at the place. -/
structure Position where
  line : Nat
  column : Nat
  deriving DecidableEq, Repr

structure Failure where
  fault : Fault
  position : Option Position

def Failure.message (failure : Failure) : String :=
  match failure.position with
  | none => failure.fault.message
  | some p => s!"{failure.fault.message} at line {p.line} column {p.column}"

/-- Readers keep the place they came to even when they fail. -/
abbrev Reader (α : Type) := ExceptT Failure (StateM Cursor) α

def positionAt (text : Bytes) (index : Nat) : Position :=
  (text.data.toList.take index).foldl
    (fun p b => if b == 10 then ⟨p.line + 1, 0⟩ else ⟨p.line, p.column + 1⟩) ⟨1, 0⟩

def failHere {α : Type} (fault : Fault) : Reader α := do
  let c ← get
  throw ⟨fault, some (positionAt c.text c.index)⟩

def failNext {α : Type} (fault : Fault) : Reader α := do
  let c ← get
  throw ⟨fault, some (positionAt c.text (min c.text.size (c.index + 1)))⟩

/-- Gives failures without a place the place that the reader came to. -/
def located {α : Type} (reader : Reader α) : Reader α :=
  tryCatch reader fun failure =>
    match failure.position with
    | some _ => throw failure
    | none => failHere failure.fault

def peek : Reader (Option UInt8) := do
  let c ← get
  return c.text[c.index]?

def skip : Reader Unit := modify fun c => { c with index := c.index + 1 }

def next : Reader (Option UInt8) := do
  let b ← peek
  if b.isSome then skip
  return b

def remaining : Reader Nat := do
  let c ← get
  return c.text.size - c.index

def isBlank (b : UInt8) : Bool := b == 32 || b == 10 || b == 9 || b == 13

def isDigit (b : UInt8) : Bool := 48 ≤ b && b ≤ 57

/-- The number of bytes from `index` on that satisfy `p`, at most `limit`. -/
def runLength (p : UInt8 → Bool) (text : Bytes) : Nat → Nat → Nat
  | 0, _ => 0
  | limit + 1, index =>
    match text[index]? with
    | some b => if p b then runLength p text limit (index + 1) + 1 else 0
    | none => 0

def skipWhile (p : UInt8 → Bool) : Reader Nat := do
  let c ← get
  let n := runLength p c.text (c.text.size - c.index) c.index
  set { c with index := c.index + n }
  return n

def peekToken : Reader (Option UInt8) := do
  let _ ← skipWhile isBlank
  peek

def readWord : List UInt8 → Reader Unit
  | [] => return ()
  | expected :: rest => do
    match ← next with
    | none => failHere .endInValue
    | some b => if b == expected then readWord rest else failHere .expectedWord

def hexDigit? (b : UInt8) : Option Nat :=
  if isDigit b then some (b.toNat - 48)
  else if 97 ≤ b && b ≤ 102 then some (b.toNat - 87)
  else if 65 ≤ b && b ≤ 70 then some (b.toNat - 55)
  else none

def readHexEscape : Reader Nat := do
  let c ← get
  if c.text.size < c.index + 4 then
    set { c with index := c.text.size }
    failHere .endInString
  else
    set { c with index := c.index + 4 }
    let digit := fun i => (c.text[c.index + i]?).bind hexDigit?
    match digit 0, digit 1, digit 2, digit 3 with
    | some w, some x, some y, some z => return ((w * 16 + x) * 16 + y) * 16 + z
    | _, _, _, _ => failHere .invalidEscape

def expectInPair (b : UInt8) : Reader Unit := do
  match ← peek with
  | none => failHere .endInString
  | some found =>
    skip
    if found == b then return () else failHere .unfinishedEscape

/-- Reads the rest of an escape for a code point; two escapes may make one character. -/
def readCodePoint : Reader Char := do
  let n ← readHexEscape
  if 0xDC00 ≤ n && n ≤ 0xDFFF then failHere .loneSurrogate
  else if 0xD800 ≤ n && n ≤ 0xDBFF then
    expectInPair 92
    expectInPair 117
    let low ← readHexEscape
    if 0xDC00 ≤ low && low ≤ 0xDFFF then
      return Char.ofNat ((n - 0xD800) * 1024 + (low - 0xDC00) + 0x10000)
    else failHere .loneSurrogate
  else return Char.ofNat n

def simpleEscape? (b : UInt8) : Option Char :=
  match b with
  | 34 => some '"'
  | 92 => some '\\'
  | 47 => some '/'
  | 98 => some '\x08'
  | 102 => some '\x0c'
  | 110 => some '\n'
  | 114 => some '\r'
  | 116 => some '\t'
  | _ => none

/-- Whether a byte stands for itself in a string. -/
def isPlain (b : UInt8) : Bool := b != 34 && b != 92 && 32 ≤ b

def readStringBytes : Nat → Bytes → Reader Bytes
  | 0, _ => failHere .endInString
  | fuel + 1, out => do
    let c ← get
    let n ← skipWhile isPlain
    let out := out ++ c.text.extract c.index (c.index + n)
    match ← next with
    | none => failHere .endInString
    | some 34 => return out
    | some 92 =>
      match ← next with
      | none => failHere .endInString
      | some 117 =>
        let ch ← readCodePoint
        readStringBytes fuel (out ++ ch.toString.toUTF8)
      | some b =>
        match simpleEscape? b with
        | some ch => readStringBytes fuel (out ++ ch.toString.toUTF8)
        | none => failHere .invalidEscape
    | some _ => failHere .controlCharacter

def readString : Reader String := do
  let n ← remaining
  let bytes ← readStringBytes (n + 1) ByteArray.empty
  return Text.decodeLossy bytes

/-- Skips a string after its opening quote. Escapes for code points need not make characters. -/
def skipStringFrom : Nat → Reader Unit
  | 0 => failHere .endInString
  | fuel + 1 => do
    let _ ← skipWhile isPlain
    match ← peek with
    | none => failHere .endInString
    | some 34 => skip
    | some 92 =>
      skip
      match ← next with
      | none => failHere .endInString
      | some 117 =>
        let _ ← readHexEscape
        skipStringFrom fuel
      | some b => if (simpleEscape? b).isSome then skipStringFrom fuel else failHere .invalidEscape
    | some _ => failHere .controlCharacter

def skipString : Reader Unit := do
  let n ← remaining
  skipStringFrom (n + 1)

end ScriptHost.Config.Json
