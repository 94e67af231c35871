import ScriptHost.Lua.Library.Argument
import ScriptHost.Lua.Pattern
/-! The library of encoded text. The encoding goes on in the same way past the last code point, which strict
decoding does not accept. -/
namespace ScriptHost.Lua.Utf8Function
open Text (Bytes)

def largestCode : Nat := 0x7FFFFFFF

/-- The last code point. -/
def lastCodePoint : Nat := 0x10FFFF

def continuesAt (s : Bytes) (i : Nat) : Bool := Text.isContinuation (Pattern.byteAt s i)

def continuationCount (first : UInt8) : Nat :=
  if first < 0xC0 then 0 else if first < 0xE0 then 1 else if first < 0xF0 then 2
  else if first < 0xF8 then 3 else if first < 0xFC then 4 else if first < 0xFE then 5
  else if first < 0xFF then 6 else 7

/-- The smallest number that needs so many bytes after the first. -/
def leastCode : Nat → Nat
  | 0 => 0x80
  | 1 => 0x80
  | 2 => 0x800
  | 3 => 0x10000
  | 4 => 0x200000
  | _ => 0x4000000

/-- The number that is encoded at a place, and the place after it. -/
def decodeAt? (s : Bytes) (i : Nat) (strict : Bool) : Option (Nat × Nat) :=
  let first := Pattern.byteAt s i
  if first < 0x80 then some (first.toNat, i + 1)
  else
    let count := continuationCount first
    let places := (List.range count).map (i + 1 + ·)
    if count == 0 || 5 < count || !places.all (continuesAt s) then none
    else
      let high := first.toNat % Nat.pow 2 (6 - count)
      let code := places.foldl (fun n k => n * 64 + Text.payload (Pattern.byteAt s k)) high
      if largestCode < code || code < leastCode count then none
      else if strict && (lastCodePoint < code || (0xD800 ≤ code && code ≤ 0xDFFF)) then none
      else some (code, i + 1 + count)

def encodeWith (code count : Nat) : List UInt8 :=
  let tail := (List.range count).reverse.map fun k => (0x80 + code / Nat.pow 64 k % 64).toUInt8
  let mark := 256 - Nat.pow 2 (7 - count)
  (mark + code / Nat.pow 64 count).toUInt8 :: tail

def encode (code : Nat) : Bytes :=
  if code < 0x80 then ⟨#[code.toUInt8]⟩
  else
    let count := if code < 0x800 then 1 else if code < 0x10000 then 2 else if code < 0x200000 then 3
      else if code < 0x4000000 then 4 else 5
    ⟨(encodeWith code count).toArray⟩

/-- What a position counted from either end means; zero if it lies before the start. -/
def fromStart (position : Int64) (size : Nat) : Int :=
  let i := position.toInt
  if 0 ≤ i then i else if i < -size then 0 else size + i + 1

def charsOf (args : List Value) : Nat → Nat → Bytes → Task Bytes
  | 0, _, out => pure out
  | count + 1, n, out => do
    let code ← Argument.integer args n
    Argument.require (0 ≤ code && code.toNatClampNeg ≤ largestCode) n "value out of range"
    charsOf args count (n + 1) (out ++ encode code.toNatClampNeg)

def invalidCode : String := "invalid UTF-8 code"

def codesBetween (s : Bytes) (strict : Bool) (stop : Int) : Nat → Nat → List Value → Task (List Value)
  | 0, _, found => pure found.reverse
  | fuel + 1, i, found =>
    if stop ≤ i then pure found.reverse
    else
      match decodeAt? s i strict with
      | some (code, next) => codesBetween s strict stop fuel next (.ofNat code :: found)
      | none => Task.failCaller invalidCode

def runCodepoint (args : List Value) : Task (List Value) := do
  let s ← Argument.string args 1
  let first := fromStart (← Argument.integerOr args 2 1) s.size
  let last := fromStart (← Argument.integerOr args 3 (Int64.ofInt first)) s.size
  Argument.require (1 ≤ first) 2 "out of bounds"
  Argument.require (last ≤ s.size) 3 "out of bounds"
  codesBetween s (!(Argument.get args 4).isTrue) last (s.size + 1) (first - 1).toNat []

/-- Counts encodings from a place up to another; or gives the place of bytes that encode nothing. -/
def countBetween (s : Bytes) (strict : Bool) (last : Int) : Nat → Int → Nat → List Value
  | 0, _, count => [.ofNat count]
  | fuel + 1, i, count =>
    if last < i then [.ofNat count]
    else
      match decodeAt? s i.toNat strict with
      | some (_, next) => countBetween s strict last fuel next (count + 1)
      | none => [.nil, .int (Int64.ofInt (i + 1))]

def runLen (args : List Value) : Task (List Value) := do
  let s ← Argument.string args 1
  let first := fromStart (← Argument.integerOr args 2 1) s.size
  let last := fromStart (← Argument.integerOr args 3 (-1)) s.size
  Argument.require (1 ≤ first && first - 1 ≤ s.size) 2 "initial position out of bounds"
  Argument.require (last - 1 < s.size) 3 "final position out of bounds"
  return countBetween s (!(Argument.get args 4).isTrue) (last - 1) (s.size + 1) (first - 1) 0

def startAtOrBefore (s : Bytes) : Nat → Nat
  | 0 => 0
  | i + 1 => if continuesAt s (i + 1) then startAtOrBefore s i else i + 1

def startAtOrAfter (s : Bytes) : Nat → Nat → Nat
  | 0, i => i
  | fuel + 1, i => if continuesAt s i then startAtOrAfter s fuel (i + 1) else i

def stepBack (s : Bytes) : Nat → Nat → Option Nat
  | 0, i => some i
  | n + 1, i => if i == 0 then none else stepBack s n (startAtOrBefore s (i - 1))

def stepOn (s : Bytes) : Nat → Nat → Option Nat
  | 0, i => some i
  | n + 1, i => if s.size ≤ i then none else stepOn s n (startAtOrAfter s s.size (i + 1))

/-- The position of an encoding that is counted from another position. -/
def runOffset (args : List Value) : Task (List Value) := do
  let s ← Argument.string args 1
  let n ← Argument.integer args 2
  let default := if 0 < n then 1 else Int64.ofNat (s.size + 1)
  let position := fromStart (← Argument.integerOr args 3 default) s.size
  Argument.require (1 ≤ position && position - 1 ≤ s.size) 3 "position out of bounds"
  let i := (position - 1).toNat
  let place (found : Option Nat) : List Value := [found.elim .nil fun i => .ofNat (i + 1)]
  if n == 0 then return place (some (startAtOrBefore s i))
  else if continuesAt s i then Task.failCaller "initial position is a continuation byte"
  else if n < 0 then return place (stepBack s (min n.toInt.natAbs (s.size + 2)) i)
  else return place (stepOn s (min (n.toInt.natAbs - 1) (s.size + 2)) i)

def runStep (strict : Bool) (args : List Value) : Task (List Value) := do
  let s ← Argument.string args 1
  let i := ((Argument.get args 2).toInteger?.getD 0).toUInt64.toNat
  let i := if i < s.size then startAtOrAfter s s.size i else i
  if s.size ≤ i then return []
  else
    match decodeAt? s i strict with
    | none => Task.failCaller invalidCode
    | some (code, next) =>
      if continuesAt s next then Task.failCaller invalidCode
      else return [.ofNat (i + 1), .ofNat code]

def stepValue (strict : Bool) : Value :=
  .function (Builtin.utf8 (if strict then .strictStep else .laxStep)).place

def runCodes (args : List Value) : Task (List Value) := do
  let s ← Argument.string args 1
  Argument.require (!continuesAt s 0) 1 invalidCode
  return [stepValue (!(Argument.get args 2).isTrue), .string s, .int 0]

def charPattern : Bytes :=
  ⟨#[91, 0, 45, 0x7F, 0xC2, 45, 0xFD, 93, 91, 0x80, 45, 0xBF, 93, 42]⟩

def run (f : Utf8Function) (args : List Value) : Task (List Value) := do
  match f with
  | .char => return [.string (← charsOf args args.length 1 ByteArray.empty)]
  | .codepoint => runCodepoint args
  | .codes => runCodes args
  | .len => runLen args
  | .offset => runOffset args
  | .strictStep => runStep true args
  | .laxStep => runStep false args

end ScriptHost.Lua.Utf8Function
