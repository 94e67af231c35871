import ScriptHost.Lua.Library.Argument
import ScriptHost.Lua.Pattern
/-! The functions that look for patterns in strings and replace what they match. -/
namespace ScriptHost.Lua.Search
open Text (Bytes)

def check {α : Type} : Except Pattern.Fault α → Task α
  | .ok a => pure a
  | .error fault => Task.failCaller fault.message

/-- The place of a string that a position means; the end counts as minus one. -/
def startOf (position : Int64) (size : Nat) : Nat :=
  let i := position.toInt
  if 0 < i then i.toNat
  else if i == 0 || i < -size then 1
  else (size + i + 1).toNat

/-- The place of a string at which a position ends it. -/
def endOf (position : Int64) (size : Nat) : Nat :=
  let i := position.toInt
  if size < i then size
  else if 0 ≤ i then i.toNat
  else (size + i + 1).toNat

/-- Looks for a pattern from a position on. `wantsPlace` gives the place of the match with the captures;
without it the captures alone are given, or the whole match. -/
def runFind (wantsPlace : Bool) (args : List Value) : Task (List Value) := do
  let text ← Argument.string args 1
  let pattern ← Argument.string args 2
  let start := startOf (← Argument.integerOr args 3 1) text.size - 1
  if text.size < start then return [.nil]
  else if wantsPlace && ((Argument.get args 4).isTrue || Pattern.isPlain pattern) then
    match Pattern.findPlain text pattern (text.size - start + 1) start with
    | some s => return [.ofNat (s + 1), .ofNat (s + pattern.size)]
    | none => return [.nil]
  else
    let (pattern, anchored) := Pattern.splitAnchor pattern
    let q : Pattern.Query := { text, pattern }
    match ← check (q.search (if anchored then 1 else text.size - start + 1) start) with
    | none => return [.nil]
    | some m =>
      if wantsPlace then return .ofNat (m.start + 1) :: .ofNat m.stop :: (← check (q.captures m))
      else check (q.capturesOrWhole m)

def runGmatch (args : List Value) : Task (List Value) := do
  let text ← Argument.string args 1
  let pattern ← Argument.string args 2
  let position := startOf (← Argument.integerOr args 3 1) text.size - 1
  let place ← Task.create (·.addFunction (.matching { text, pattern, position, lastEnd := none }))
  return [.function place]

/-- The first match at one of so many places that does not end where the last one did. -/
def searchAnew (q : Pattern.Query) (lastEnd : Option Nat) : Nat → Nat →
    Except Pattern.Fault (Option Pattern.Match)
  | 0, _ => .ok none
  | count + 1, s => do
    match ← q.matchAt s with
    | some (stop, captures) =>
      if lastEnd == some stop then searchAnew q lastEnd count (s + 1) else return some ⟨s, stop, captures⟩
    | none => searchAnew q lastEnd count (s + 1)

def runMatching (place : Nat) (m : Matching) : Task (List Value) := do
  let q : Pattern.Query := { text := m.text, pattern := m.pattern }
  match ← check (searchAnew q m.lastEnd (m.text.size + 1 - m.position) m.position) with
  | none => return []
  | some found =>
    let rest := { m with position := found.stop, lastEnd := some found.stop }
    Task.change fun w => { w with functions := putAt w.functions place (.matching rest) }
    check (q.capturesOrWhole found)

def expand (q : Pattern.Query) (m : Pattern.Match) (out : Bytes) : List UInt8 → Task Bytes
  | [] => pure out
  | [b] =>
    if b == Pattern.escape then Task.failCaller "invalid use of '%' in replacement string"
    else pure (out.push b)
  | b :: c :: rest => do
    if b != Pattern.escape then expand q m (out.push b) (c :: rest)
    else if c == Pattern.escape then expand q m (out.push c) rest
    else if c == 48 then expand q m (out ++ q.text.extract m.start m.stop) rest
    else if isDigit c then
      let v ← check (q.capture m (c.toNat - 49))
      expand q m (out ++ v.toBytes?.getD ByteArray.empty) rest
    else Task.failCaller "invalid use of '%' in replacement string"

/-- What replaces a match; none if the match stays. -/
def replacement (q : Pattern.Query) (m : Pattern.Match) (by_ : Value) : Task (Option Bytes) := do
  let found ← match by_ with
    | .function _ => Task.callFirst by_ (← check (q.capturesOrWhole m))
    | .table _ => Operation.index by_ (← check (q.capture m 0)) none
    | _ =>
      let text := by_.toBytes?.getD ByteArray.empty
      pure (.string (← expand q m ByteArray.empty text.data.toList))
  if !found.isTrue then return none
  else
    match found.toBytes? with
    | some s => return some s
    | none => Task.failCaller ("invalid replacement value (a " ++ found.typeName ++ ")")

structure Replacing where
  out : Bytes := ByteArray.empty
  position : Nat := 0
  lastEnd : Option Nat := none
  count : Nat := 0

def replaceAll (q : Pattern.Query) (by_ : Value) (limit : Int) (anchored : Bool) :
    Nat → Replacing → Task Replacing
  | 0, state => pure state
  | fuel + 1, state => do
    if limit ≤ state.count then return state
    else
      let s := state.position
      let found ← check (q.matchAt s)
      let fresh := match found with
        | some (stop, captures) =>
          if state.lastEnd == some stop then none else some (⟨s, stop, captures⟩ : Pattern.Match)
        | none => none
      match fresh with
      | some m =>
        let new := (← replacement q m by_).getD (q.text.extract m.start m.stop)
        let state :=
          { out := state.out ++ new, position := m.stop, lastEnd := some m.stop, count := state.count + 1 }
        if anchored then return state else replaceAll q by_ limit anchored fuel state
      | none =>
        if s < q.text.size then
          let state := { state with out := state.out.push (Pattern.byteAt q.text s), position := s + 1 }
          if anchored then return state else replaceAll q by_ limit anchored fuel state
        else return state

def runGsub (args : List Value) : Task (List Value) := do
  let text ← Argument.string args 1
  let pattern ← Argument.string args 2
  let by_ := Argument.get args 3
  let limit ← Argument.integerOr args 4 (Int64.ofNat (text.size + 1))
  match by_ with
  | .int _ | .float _ | .string _ | .table _ | .function _ =>
    let (pattern, anchored) := Pattern.splitAnchor pattern
    let q : Pattern.Query := { text, pattern }
    let state ← replaceAll q by_ limit.toInt anchored (2 * text.size + 3) {}
    return [.string (state.out ++ text.extract state.position text.size), .ofNat state.count]
  | _ => Argument.mismatch args 3 "string/function/table"

end ScriptHost.Lua.Search
