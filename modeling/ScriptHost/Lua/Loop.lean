import ScriptHost.Lua.Value
/-! Counting loops. With an integer start and step the number of rounds is known before the first; with any
other numbers the loop counts in floating point. -/
namespace ScriptHost.Lua.Loop

inductive Start where
  | skip
  /-- The first value, what bounds the loop, and the step. -/
  | run (first bound step : Value)
  | zeroStep
  /-- A part of the loop is no number. -/
  | wrong (part : String) (v : Value)

/-- The last integer up to which a loop can go; none if it does not run at all. -/
def lastInteger? (limit : Number) (ascending : Bool) : Option Int :=
  match limit with
  | .int i => some i.toInt
  | .float x =>
    let rounded := if ascending then Numeral.floor? x else Numeral.ceiling? x
    match rounded with
    | some i => if Numeral.inRange64 i then some i else clip x
    | none => clip x
where
  /-- The end of the range of integers on the side of a number outside of it. -/
  clip (x : Float) : Option Int :=
    if 0 < x then if ascending then some Int64.maxValue.toInt else none
    else if ascending then none else some Int64.minValue.toInt

/-- The start of a loop over integers, with the number of rounds after the first as the bound. -/
def integerStart (first step : Int64) (limit : Number) : Start :=
  if step == 0 then .zeroStep
  else
    let ascending := 0 < step
    match lastInteger? limit ascending with
    | none => .skip
    | some last =>
      let i := first.toInt
      if ascending then
        if last < i then .skip
        else .run (.int first) (.int (Int64.ofInt ((last - i) / step.toInt))) (.int step)
      else if i < last then .skip
      else .run (.int first) (.int (Int64.ofInt ((i - last) / (-step.toInt)))) (.int step)

def start (first limit step : Value) : Start :=
  match first, step with
  | .int i, .int s =>
    if s == 0 then .zeroStep
    else
      match limit.toNumber? with
      | some l => integerStart i s l
      | none => .wrong "limit" limit
  | _, _ =>
    match limit.toNumber?, step.toNumber?, first.toNumber? with
    | none, _, _ => .wrong "limit" limit
    | _, none, _ => .wrong "step" step
    | _, _, none => .wrong "initial value" first
    | some l, some s, some i =>
      let (l, s, i) := (l.toFloat, s.toFloat, i.toFloat)
      if s == 0 then .zeroStep
      else if (if 0 < s then l < i else i < l) then .skip
      else .run (.float i) (.float l) (.float s)

/-- The next value of a loop and its bound from then on; none after the last round. -/
def next? (index bound step : Value) : Option (Value × Value) :=
  match index, bound, step with
  | .int i, .int rounds, .int s =>
    if rounds == 0 then none else some (.int (i + s), .int (rounds - 1))
  | .float i, .float limit, .float s =>
    let i := i + s
    if (if 0 < s then i <= limit else limit <= i) then some (.float i, bound) else none
  | _, _, _ => none

end ScriptHost.Lua.Loop
