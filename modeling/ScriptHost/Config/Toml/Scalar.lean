import ScriptHost.Config.Toml.Value
import ScriptHost.Numeral.Binary64
/-! Numbers, truth values and moments of a TOML document, recognised by their whole text. -/
namespace ScriptHost.Config.Toml

def digit? (c : Char) : Option Nat :=
  if '0' ≤ c && c ≤ '9' then some (c.toNat - 48)
  else if 'a' ≤ c && c ≤ 'f' then some (c.toNat - 87)
  else if 'A' ≤ c && c ≤ 'F' then some (c.toNat - 55)
  else none

/-- The digits of a base with single underscores between them; `none` for anything else. The flag says that
a digit came before. -/
def digitsOf (base : Nat) : Bool → List Char → Option (List Nat)
  | afterDigit, [] => if afterDigit then some [] else none
  | afterDigit, '_' :: rest =>
    if afterDigit && !rest.isEmpty then digitsOf base false rest else none
  | _, c :: rest =>
    match digit? c with
    | some d => if d < base then (digitsOf base true rest).map (d :: ·) else none
    | none => none

def spell (base : Nat) (digits : List Nat) : Nat := digits.foldl (fun n d => n * base + d) 0

def natural? (cs : List Char) : Option Nat :=
  match cs, digitsOf 10 false cs with
  | '0' :: _ :: _, _ => none
  | _, digits? => digits?.map (spell 10)

def splitSign : List Char → Bool × Bool × List Char
  | '+' :: rest => (true, false, rest)
  | '-' :: rest => (true, true, rest)
  | cs => (false, false, cs)

/-- An integer. Only decimal ones have signs. -/
def integer? (cs : List Char) : Option Int :=
  match cs with
  | '0' :: 'x' :: rest => (digitsOf 16 false rest).map fun d => (spell 16 d : Int)
  | '0' :: 'o' :: rest => (digitsOf 8 false rest).map fun d => (spell 8 d : Int)
  | '0' :: 'b' :: rest => (digitsOf 2 false rest).map fun d => (spell 2 d : Int)
  | _ =>
    let (_, negative, rest) := splitSign cs
    (natural? rest).map fun n => if negative then -(n : Int) else n

def exponent? (cs : List Char) : Option Int :=
  let (_, negative, rest) := splitSign cs
  (digitsOf 10 false rest).map fun d => if negative then -(spell 10 d : Int) else spell 10 d

def float? (cs : List Char) : Option Float :=
  let (_, negative, rest) := splitSign cs
  if rest == ['i', 'n', 'f'] then some (Numeral.infinity negative)
  else if rest == ['n', 'a', 'n'] then some Numeral.nan
  else
    let isExponent := fun c => c == 'e' || c == 'E'
    let body := rest.takeWhile fun c => !isExponent c
    let tail := rest.dropWhile fun c => !isExponent c
    let whole := body.takeWhile (· != '.')
    let fraction := body.dropWhile (· != '.')
    if tail.isEmpty && fraction.isEmpty then none
    else do
      let w ← natural? whole
      let f ← match fraction with
        | [] => some []
        | _ :: digits => digitsOf 10 false digits
      let e ← match tail with
        | [] => some 0
        | _ :: digits => exponent? digits
      return Numeral.ofScaled negative (w * Nat.pow 10 f.length + spell 10 f) 10 (e - f.length)

def takeDigits (count : Nat) (cs : List Char) : Option (Nat × List Char) :=
  let front := cs.take count
  if front.length == count && front.all fun c => '0' ≤ c && c ≤ '9' then
    some (spell 10 (front.map fun c => c.toNat - 48), cs.drop count)
  else none

def takeChar (c : Char) : List Char → Option (List Char)
  | d :: rest => if d == c then some rest else none
  | [] => none

def daysIn (year month : Nat) : Nat :=
  if month == 2 then
    if year % 4 == 0 && (year % 100 != 0 || year % 400 == 0) then 29 else 28
  else if month == 4 || month == 6 || month == 9 || month == 11 then 30
  else 31

def takeDate (cs : List Char) : Option (List Char) := do
  let (year, cs) ← takeDigits 4 cs
  let (month, cs) ← takeDigits 2 (← takeChar '-' cs)
  let (day, cs) ← takeDigits 2 (← takeChar '-' cs)
  if 1 ≤ month && month ≤ 12 && 1 ≤ day && day ≤ daysIn year month then some cs else none

def takeMinutes (cs : List Char) : Option (List Char) := do
  let (hour, cs) ← takeDigits 2 cs
  let (minute, cs) ← takeDigits 2 (← takeChar ':' cs)
  if hour ≤ 23 && minute ≤ 59 then some cs else none

/-- A time of the day, and the rest. Seconds may be left out. -/
def takeTime (cs : List Char) : Option (List Char) := do
  let cs ← takeMinutes cs
  match cs with
  | ':' :: cs =>
    let (second, cs) ← takeDigits 2 cs
    if 60 < second then none
    else match cs with
      | '.' :: cs =>
        let digits := cs.takeWhile fun c => '0' ≤ c && c ≤ '9'
        if digits.isEmpty then none else some (cs.drop digits.length)
      | _ => some cs
  | _ => some cs

def isOffset (cs : List Char) : Bool :=
  match cs with
  | [] | ['Z'] | ['z'] => true
  | '+' :: rest | '-' :: rest => takeMinutes rest == some []
  | _ => false

def isMoment (cs : List Char) : Bool :=
  match takeDate cs with
  | some [] => true
  | some (c :: rest) =>
    (c == 'T' || c == 't' || c == ' ') &&
      match takeTime rest with
      | some offset => isOffset offset
      | none => false
  | none => takeTime cs == some []

def scalar? (cs : List Char) : Option Value :=
  if cs == "true".toList then some (.boolean true)
  else if cs == "false".toList then some (.boolean false)
  else match integer? cs with
    | some i => some (.integer i)
    | none => match float? cs with
      | some x => some (.float x)
      | none => if isMoment cs then some .moment else none

end ScriptHost.Config.Toml
