import ScriptHost.Config.Basic
import ScriptHost.Text.Quoted
import ScriptHost.Numeral.Rendering
/-! The wording of complaints about data that does not fit a configuration, and the shapes that the parts of
a configuration have. -/
namespace ScriptHost.Config

inductive Found where
  | null
  | boolean (value : Bool)
  | integer (value : Int)
  | float (value : Float)
  | string (value : String)
  | sequence
  | map

private def shortestParts (x : Float) : Option (Bool × Nat × Int) :=
  match Numeral.Parts.ofFloat x with
  | .finite negative 0 _ => some (negative, 0, 0)
  | .finite negative mantissa exponent =>
    let (d, e) := Numeral.shortest mantissa exponent
    some (negative, d, e)
  | _ => none

/-- Digits of which the first has the exponent `x`, written without an exponent. -/
private def positional (digits : String) (x : Int) : String :=
  if x < 0 then "0." ++ Numeral.zeros (-x - 1).toNat ++ digits
  else
    let whole := x.toNat + 1
    if digits.length ≤ whole then digits ++ Numeral.zeros (whole - digits.length) ++ ".0"
    else String.ofList (digits.toList.take whole) ++ "." ++ String.ofList (digits.toList.drop whole)

def plainFloat (x : Float) : String :=
  match shortestParts x with
  | some (negative, d, e) => (if negative then "-" else "") ++ positional (Numeral.digits 10 d) e
  | none => if x == x then (if x < 0 then "-inf" else "inf") else "NaN"

/-- The shortest text of a number, with an exponent outside of 10⁻⁵ to 10¹⁶. -/
def compactFloat (x : Float) : String :=
  match shortestParts x with
  | some (negative, d, e) =>
    let s := Numeral.digits 10 d
    let sign := if negative then "-" else ""
    if -5 ≤ e && e < 16 then sign ++ positional s e
    else
      let front := String.ofList (s.toList.take 1)
      let back := String.ofList (s.toList.drop 1)
      sign ++ front ++ (if back.isEmpty then "" else "." ++ back) ++ "e" ++ toString e
  | none => plainFloat x

/-- The name of what was found, with the given spellings of nothing and of numbers. -/
def Found.describe (null : String) (float : Float → String) : Found → String
  | .null => null
  | .boolean value => "boolean `" ++ toString value ++ "`"
  | .integer value => "integer `" ++ toString value ++ "`"
  | .float value => "floating point `" ++ float value ++ "`"
  | .string value => "string " ++ Text.quoted value
  | .sequence => "sequence"
  | .map => "map"

inductive Expected where
  | string
  | boolean
  | unit
  | variantName
  | config
  | libraries
  | logging
  deriving DecidableEq, Repr

def Expected.describe : Expected → String
  | .string => "a string"
  | .boolean => "a boolean"
  | .unit => "unit"
  | .variantName => "variant identifier"
  | .config => "struct BridgeConfig"
  | .libraries => "struct LibraryConfig"
  | .logging => "struct LoggingConfig"

def unknownLevel (name : String) : String :=
  "unknown variant `" ++ name ++ "`, expected one of " ++
    ", ".intercalate (LogLevel.all.map fun l => "`" ++ l.name ++ "`")

def missingField (name : String) : String := "missing field `" ++ name ++ "`"

def duplicateField (name : String) : String := "duplicate field `" ++ name ++ "`"

def emptyLogging : String := "invalid length 0, expected struct LoggingConfig with 1 element"

end ScriptHost.Config
