import ScriptHost.Lua.Library.Argument
/-! Sorting by exchanges around a pivot. The order in which values are compared is fixed, so that an order
function sees the same pairs every time. -/
namespace ScriptHost.Lua.Sort

structure Job where
  list : Value
  order : Value

def get (job : Job) (i : Nat) : Task Value := Operation.index job.list (.ofNat i) none

def set (job : Job) (i : Nat) (v : Value) : Task Unit := Operation.setIndex job.list (.ofNat i) v none

def setBoth (job : Job) (i : Nat) (v : Value) (j : Nat) (u : Value) : Task Unit := do
  set job i v
  set job j u

def before (job : Job) (a b : Value) : Task Bool :=
  match job.order with
  | .nil => Operation.less a b
  | order => do return (← Task.callFirst order [a, b]).isTrue

def failOrder {α : Type} : Task α := Task.failCaller "invalid order function for sorting"

/-- The first place after one whose value is not before the pivot, and the value. -/
def seekUp (job : Job) (pivot : Value) (high : Nat) : Nat → Nat → Task (Nat × Value)
  | 0, _ => failOrder
  | fuel + 1, i => do
    let v ← get job (i + 1)
    if ← before job v pivot then
      if i + 1 == high - 1 then failOrder else seekUp job pivot high fuel (i + 1)
    else return (i + 1, v)

/-- The first place before one whose value does not come after the pivot, and the value. -/
def seekDown (job : Job) (pivot : Value) (i : Nat) : Nat → Nat → Task (Nat × Value)
  | 0, _ => failOrder
  | fuel + 1, j => do
    let v ← get job (j - 1)
    if ← before job pivot v then
      if j - 1 < i then failOrder else seekDown job pivot i fuel (j - 1)
    else return (j - 1, v)

/-- Exchanges values until those before a place are not after the pivot, and those after it not before. The
pivot is next to the end. -/
def partition (job : Job) (pivot : Value) (high : Nat) : Nat → Nat → Nat → Task Nat
  | 0, _, _ => failOrder
  | fuel + 1, i, j => do
    let (i, atI) ← seekUp job pivot high (high + 1) i
    let (j, atJ) ← seekDown job pivot i (high + 1) j
    if j < i then
      setBoth job (high - 1) atI i pivot
      return i
    else
      setBoth job i atJ j atI
      partition job pivot high fuel i j

def orderEnds (job : Job) (low high : Nat) : Task Unit := do
  let first ← get job low
  let last ← get job high
  if ← before job last first then setBoth job low last high first else return ()

def orderMiddle (job : Job) (low middle high : Nat) : Task Unit := do
  let pivot ← get job middle
  let first ← get job low
  if ← before job pivot first then setBoth job middle first low pivot
  else
    let last ← get job high
    if ← before job last pivot then setBoth job middle last high pivot else return ()

def sortBetween (job : Job) : Nat → Nat → Nat → Task Unit
  | 0, _, _ => pure ()
  | fuel + 1, low, high => do
    if high ≤ low then return ()
    else
      orderEnds job low high
      if high - low == 1 then return ()
      else
        let middle := (low + high) / 2
        orderMiddle job low middle high
        if high - low == 2 then return ()
        else
          let pivot ← get job middle
          let other ← get job (high - 1)
          setBoth job middle other (high - 1) pivot
          let p ← partition job pivot high (high + 1) low (high - 1)
          if p - low < high - p then
            sortBetween job fuel low (p - 1)
            sortBetween job fuel (p + 1) high
          else
            sortBetween job fuel (p + 1) high
            sortBetween job fuel low (p - 1)

end ScriptHost.Lua.Sort
