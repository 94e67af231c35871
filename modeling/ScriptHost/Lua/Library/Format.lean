import ScriptHost.Lua.Library.Description
import ScriptHost.Numeral.Layout
/-! Texts made by a format: bytes that stand for themselves, and directives that show an argument each. -/
namespace ScriptHost.Lua.Format
open Text (Bytes)

inductive Piece where
  | byte (b : UInt8)
  /-- What follows the percent sign, up to the letter of the conversion. -/
  | directive (body : List UInt8)

def percent : UInt8 := 37

def isModifier (b : UInt8) : Bool := "-+ #0123456789.".toUTF8.data.contains b

def piecesOf : Nat → List UInt8 → List Piece
  | 0, _ => []
  | _, [] => []
  | fuel + 1, b :: rest =>
    if b != percent then .byte b :: piecesOf fuel rest
    else
      match rest with
      | c :: after =>
        if c == percent then .byte percent :: piecesOf fuel after
        else
          let modifiers := rest.takeWhile isModifier
          let after := rest.dropWhile isModifier
          .directive (modifiers ++ after.take 1) :: piecesOf fuel (after.drop 1)
      | [] => [.directive []]

def pieces (format : Bytes) : List Piece := piecesOf (format.size + 1) format.data.toList

def takeTwoDigits : List UInt8 → Option Nat × List UInt8
  | a :: b :: rest =>
    if !isDigit a then (none, a :: b :: rest)
    else if !isDigit b then (some (a.toNat - 48), b :: rest)
    else (some ((a.toNat - 48) * 10 + (b.toNat - 48)), rest)
  | [a] => if isDigit a then (some (a.toNat - 48), []) else (none, [a])
  | [] => (none, [])

/-- The layout that a directive asks for, with the flags and a precision if its conversion allows them. -/
def layout? (flags : String) (allowsPrecision : Bool) (body : List UInt8) : Option Numeral.Layout :=
  let allowed := flags.toUTF8.data
  let given := body.takeWhile allowed.contains
  let rest := body.dropWhile allowed.contains
  let (width, precision, rest) :=
    if rest.head? == some 48 then (none, none, rest)
    else
      let (width, rest) := takeTwoDigits rest
      match rest with
      | 46 :: tail =>
        if allowsPrecision then
          let (precision, rest) := takeTwoDigits tail
          (width, some (precision.getD 0), rest)
        else (width, none, rest)
      | _ => (width, none, rest)
  if rest.length == 1 && rest.all (fun b => isLetter b && b != 95) then
    some {
      left := given.contains 45, plus := given.contains 43, blank := given.contains 32
      alternate := given.contains 35, zero := given.contains 48, width := width.getD 0, precision }
  else none

def shown (body : List UInt8) : Bytes := untilNul ⟨(percent :: body).toArray⟩

def layout (flags : String) (allowsPrecision : Bool) (body : List UInt8) : Task Numeral.Layout :=
  match layout? flags allowsPrecision body with
  | some l => pure l
  | none =>
    Task.fail (.located 1 ("invalid conversion specification: '".toUTF8 ++ shown body ++ "'".toUTF8))

def padBytes (l : Numeral.Layout) (s : Bytes) : Bytes :=
  let blanks : Bytes := ⟨Array.replicate (l.width - s.size) 32⟩
  if l.left then s ++ blanks else blanks ++ s

/-- A byte of a quoted string, with the byte that follows it. -/
def quoteByte (b : UInt8) (next : Option UInt8) : Bytes :=
  if b == 34 || b == 92 || b == 10 then ⟨#[92, b]⟩
  else if b < 32 || b == 127 then
    if next.any isDigit then ("\\" ++ Numeral.padZeros 3 (toString b.toNat)).toUTF8
    else ("\\" ++ toString b.toNat).toUTF8
  else ⟨#[b]⟩

def quoteBytes : List UInt8 → Bytes → Bytes
  | [], out => out
  | b :: rest, out => quoteBytes rest (out ++ quoteByte b rest.head?)

def quote (w : World) : Value → Option Bytes
  | .string s => some ((quoteBytes s.data.toList (ByteArray.mk #[34])).push 34)
  | .int i => some (if i == Int64.minValue then "0x8000000000000000".toUTF8 else (Number.intText i).toUTF8)
  | .float x =>
    match Numeral.Parts.ofFloat x with
    | .nan => some "(0/0)".toUTF8
    | .infinite negative => some (if negative then "-1e9999" else "1e9999").toUTF8
    | .finite _ _ _ => some (({} : Numeral.Layout).float .hexadecimal x).toUTF8
  | .nil => some (Value.plainText w .nil)
  | .bool b => some (Value.plainText w (.bool b))
  | _ => none

/-- The longest text that is laid out without a precision. -/
def longestField : Nat := 100

def formatText (args : List Value) (n : Nat) (body : List UInt8) : Task Bytes := do
  let s ← Task.describe (Argument.get args n)
  if body.length == 1 then return s
  else
    Argument.require (!s.data.contains 0) n "string contains zeros"
    let l ← layout "-" true body
    match l.precision with
    | none => return if longestField ≤ s.size then s else padBytes l s
    | some p => return padBytes l (s.extract 0 p)

def formatInteger (flags : String) (show_ : Numeral.Layout → Int64 → String) (args : List Value) (n : Nat)
    (body : List UInt8) : Task Bytes := do
  let i ← Argument.integer args n
  return (show_ (← layout flags true body) i).toUTF8

def formatFloat (style : Numeral.Layout.Style) (isUpper : Bool) (args : List Value) (n : Nat)
    (body : List UInt8) : Task Bytes := do
  let x ← Argument.float args n
  let s := (← layout "-+ #0" true body).float style x
  return (if isUpper then s.map Char.toUpper else s).toUTF8

/-- A hexadecimal float, whose directive is looked at before its argument. -/
def formatHexadecimal (isUpper : Bool) (args : List Value) (n : Nat) (body : List UInt8) : Task Bytes := do
  let _ ← layout "-+ #0" true body
  formatFloat .hexadecimal isUpper args n body

def formatAddress (args : List Value) (n : Nat) (body : List UInt8) : Task Bytes := do
  let v := Argument.get args n
  let l ← layout "-" false body
  let hasAddress := match v with
    | .pointer a => a != 0
    | .table _ | .function _ | .failure _ | .string _ => true
    | _ => false
  let address := match v with
    | .string s => 0x5581c0000000 + 64 * (s.hash.toNat % Nat.pow 2 20)
    | _ => v.address
  return (l.pad (if hasAddress then addressText address else "(null)")).toUTF8

/-- The number of modifiers that a directive may not have. -/
def modifierLimit : Nat := 22

def formatOne (args : List Value) (n : Nat) (body : List UInt8) : Task Bytes := do
  if modifierLimit ≤ body.length then Task.failCaller "invalid format string to 'format'"
  else
    match (body.getLast?.map fun b => Char.ofNat b.toNat).getD '\x00' with
    | 'c' =>
      let l ← layout "-" false body
      return padBytes l ⟨#[(← Argument.integer args n).toUInt64.toUInt8]⟩
    | 'd' | 'i' => formatInteger "-+0 " (fun l i => l.signed i.toInt) args n body
    | 'u' => formatInteger "-0" (fun l i => l.unsigned 10 i.toUInt64.toNat) args n body
    | 'o' => formatInteger "-#0" (fun l i => l.unsigned 8 i.toUInt64.toNat) args n body
    | 'x' => formatInteger "-#0" (fun l i => l.unsigned 16 i.toUInt64.toNat) args n body
    | 'X' => formatInteger "-#0" (fun l i => (l.unsigned 16 i.toUInt64.toNat).map Char.toUpper) args n body
    | 'a' => formatHexadecimal false args n body
    | 'A' => formatHexadecimal true args n body
    | 'f' => formatFloat .fixed false args n body
    | 'e' => formatFloat .scientific false args n body
    | 'E' => formatFloat .scientific true args n body
    | 'g' => formatFloat .general false args n body
    | 'G' => formatFloat .general true args n body
    | 'p' => formatAddress args n body
    | 'q' =>
      if 1 < body.length then Task.failCaller "specifier '%q' cannot have modifiers"
      else
        match ← Task.read fun w => quote w (Argument.get args n) with
        | some s => return s
        | none => Argument.fail n "value has no literal form"
    | 's' => formatText args n body
    | _ => Task.fail (.located 1 ("invalid conversion '".toUTF8 ++ shown body ++ "' to 'format'".toUTF8))

/-- The text of pieces. The directives show the arguments after the given number. -/
def formatAll (args : List Value) (n : Nat) (out : Bytes) : List Piece → Task Bytes
  | [] => pure out
  | .byte b :: rest => formatAll args n (out.push b) rest
  | .directive body :: rest => do
    if args.length ≤ n then Argument.fail (n + 1) "no value"
    else formatAll args (n + 1) (out ++ (← formatOne args (n + 1) body)) rest

def run (args : List Value) : Task (List Value) := do
  let format ← Argument.string args 1
  return [.string (← formatAll args 1 ByteArray.empty (pieces format))]

end ScriptHost.Lua.Format
