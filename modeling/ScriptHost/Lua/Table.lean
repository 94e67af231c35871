import Std.Data.TreeMap.Basic
import ScriptHost.Lua.Value
/-! Tables: values by key, in an order in which they can be visited one by one. Values with the keys from one
on have a part of their own, whose size grows so that more than half of it is in use. -/
namespace ScriptHost.Lua
open Text (Bytes)

structure Table where
  /-- The values with the keys from one on. -/
  list : Array Value := #[]
  /-- The other keys in the order of their arrival. A key stays when its value becomes nil. -/
  nodes : Array (Key × Value) := #[]
  /-- Where each key is among those. -/
  places : Std.TreeMap Key Nat Key.compareKeys := ∅
  /-- The number of other keys at which the parts get new sizes. -/
  capacity : Nat := 0
  /-- Where the search for the end of the list starts. -/
  hint : Nat := 0
  metatable : Option Nat := none
  deriving Inhabited

namespace Table

/-- The place of a key in the list. -/
@[inline] def listPlace? (t : Table) (key : Key) : Option Nat :=
  match key with
  | .int i => if 1 ≤ i && i.toNatClampNeg ≤ t.list.size then some (i.toNatClampNeg - 1) else none
  | _ => none

def get (t : Table) (key : Key) : Value :=
  match t.listPlace? key with
  | some place => t.list[place]?.getD .nil
  | none =>
    match t.places[key]? with
    | some place => (t.nodes[place]?.map (·.2)).getD .nil
    | none => .nil

def getNat (t : Table) (n : Nat) : Value :=
  if 1 ≤ n && n ≤ t.list.size then t.list[n - 1]?.getD .nil
  else if n < Nat.pow 2 63 then t.get (.int (Int64.ofNat n)) else .nil

def getName (t : Table) (name : String) : Value := t.get (.string name.toUTF8)

def movesHint (t : Table) (key : Key) : Bool :=
  t.hint < t.list.size &&
    match t.listPlace? key with
    | some place => t.hint ≤ place
    | none => false

/-- The table after a read of a key. Reading past the hint in the list moves it. -/
def noteRead (t : Table) (key : Key) : Table :=
  match key with
  | .int i => if t.movesHint key then { t with hint := i.toNatClampNeg } else t
  | _ => t

def log2Ceil (n : Nat) : Nat := if n ≤ 1 then 0 else (n - 1).log2 + 1

def capacityFor (n : Nat) : Nat := if n == 0 then 0 else Nat.pow 2 (log2Ceil n)

/-- Adds a key that is not in the table and not in the range of the list. -/
def push (t : Table) (key : Key) (value : Value) : Table :=
  let place := t.nodes.size
  { t with places := t.places.insert key place, nodes := t.nodes.push (key, value) }

/-- Adds a value whose key is not among the other keys. -/
def place (t : Table) (key : Key) (value : Value) : Table :=
  match t.listPlace? key with
  | some i => { t with list := t.list.set! i value }
  | none => t.push key value

def resize (t : Table) (size others : Nat) : Table :=
  let moved := (t.list.toList.drop size).zipIdx (size + 1) |>.filter fun (v, _) => !v.isNil
  let start : Table := {
    list := if size ≤ t.list.size then t.list.take size
      else t.list ++ Array.replicate (size - t.list.size) Value.nil
    capacity := capacityFor others
    hint := size
    metatable := t.metatable }
  let start := moved.foldl (fun (u : Table) (v, i) => u.push (.int (Int64.ofNat i)) v) start
  t.nodes.foldl (fun (u : Table) (key, v) => if v.isNil then u else u.place key v) start

/-- Where a key counts in the list: the exponent of the power of two that it does not pass. -/
def slice? : Key → Option Nat
  | .int i => if 1 ≤ i then some (log2Ceil i.toNatClampNeg) else none
  | _ => none

/-- How many keys with a value there are up to each power of two and past the one before it; and how many
there are in all. -/
def census (t : Table) : Array Nat × Nat :=
  let count (counts : Array Nat × Nat) (key : Key) : Array Nat × Nat :=
    (match slice? key with
      | some s => counts.1.modify s (· + 1)
      | none => counts.1, counts.2 + 1)
  let inList := t.list.foldl (fun (counts, i) v =>
    (if v.isNil then counts else count counts (.int (Int64.ofNat i)), i + 1))
    ((Array.replicate 65 0, 0), 1)
  t.nodes.foldl (fun counts (key, v) => if v.isNil then counts else count counts key) inList.1

/-- The largest power of two such that more than half of the keys up to it are in use, and how many those
are. -/
def bestSize (counts : List Nat) (candidates : Nat) : Nat × Nat :=
  go counts 1 0 (0, 0)
where
  /-- Goes through the powers of two from `power` on; `below` keys are in use before it. -/
  go : List Nat → Nat → Nat → Nat × Nat → Nat × Nat
    | [], _, _, best => best
    | n :: rest, power, below, best =>
      if power / 2 < candidates then
        let below := below + n
        go rest (power * 2) below (if power / 2 < below then (power, below) else best)
      else best

def grow (t : Table) (key : Key) : Table :=
  let (counts, total) := t.census
  let counts := match slice? key with
    | some s => counts.modify s (· + 1)
    | none => counts
  let (size, inList) := bestSize counts.toList (counts.toList.foldl (· + ·) 0)
  t.resize size (total + 1 - inList)

def set (t : Table) (key : Key) (value : Value) : Table :=
  match t.listPlace? key with
  | some i => { t with list := t.list.set! i value }
  | none =>
    match t.places[key]? with
    | some i => { t with nodes := t.nodes.set! i (key, value) }
    | none =>
      if value.isNil then t
      else if t.nodes.size < t.capacity then t.push key value
      else (t.grow key).place key value

def setName (t : Table) (name : String) (value : Value) : Table := t.set (.string name.toUTF8) value

def setList (t : Table) (start : Nat) (values : List Value) : Table :=
  let last := start + values.length
  let t := if t.list.size < last then t.resize last t.capacity else t
  values.zipIdx.foldl (fun t (v, i) => { t with list := t.list.set! (start + i) v }) t

def searchList (list : Array Value) : Nat → Nat → Nat → Nat
  | 0, low, _ => low
  | fuel + 1, low, high =>
    if high - low ≤ 1 then low
    else
      let middle := (low + high) / 2
      if (list[middle - 1]?.getD .nil).isNil then searchList list fuel low middle
      else searchList list fuel middle high

def searchKeys (t : Table) : Nat → Nat → Nat → Nat
  | 0, low, _ => low
  | fuel + 1, low, high =>
    if high - low ≤ 1 then low
    else
      let middle := (low + high) / 2
      if (t.getNat middle).isNil then searchKeys t fuel low middle else searchKeys t fuel middle high

def largest : Nat := Nat.pow 2 63 - 1

/-- Doubles a number until its key is not in use, and searches below. -/
def searchBeyond (t : Table) : Nat → Nat → Nat
  | 0, low => low
  | fuel + 1, low =>
    let high := if low ≤ largest / 2 then low * 2 else largest
    if (t.getNat high).isNil then t.searchKeys 64 low high
    else if high == largest then largest
    else searchBeyond t fuel high

def isPowerOfTwo (n : Nat) : Bool := n == Nat.pow 2 n.log2

def hintMoves (t : Table) : Bool := t.hint != t.list.size || isPowerOfTwo t.hint

/-- The number of values before a key that is not in use, and where the search for it starts next time. -/
def border (t : Table) : Nat × Nat :=
  let used (n : Nat) : Bool := !(t.list[n - 1]?.getD .nil).isNil
  let limit := t.hint
  if 0 < limit && !used limit then
    if 2 ≤ limit && used (limit - 1) then
      (limit - 1, if t.hintMoves && !isPowerOfTwo (limit - 1) then limit - 1 else limit)
    else
      let found := searchList t.list 64 0 limit
      (found, if t.hintMoves && t.list.size / 2 < found then found else limit)
  else
    let size := t.list.size
    let beyond (_ : Unit) : Nat × Nat :=
      if (t.getNat (size + 1)).isNil then (size, limit)
      else (t.searchBeyond 64 (max size 1), limit)
    if limit != size then
      if !used (limit + 1) then (limit, limit)
      else if !used size then
        let found := searchList t.list 64 limit size
        (found, found)
      else beyond ()
    else beyond ()

def length (t : Table) : Nat := t.border.1

def firstInList (t : Table) : Nat → Nat → Option (Value × Value)
  | 0, _ => none
  | fuel + 1, i =>
    match t.list[i]? with
    | some v => if v.isNil then firstInList t fuel (i + 1) else some (Value.ofNat (i + 1), v)
    | none => none

def firstInNodes (t : Table) : Nat → Nat → Option (Value × Value)
  | 0, _ => none
  | fuel + 1, i =>
    match t.nodes[i]? with
    | some (key, v) => if v.isNil then firstInNodes t fuel (i + 1) else some (key.value, v)
    | none => none

inductive Next where
  | entry (key value : Value)
  | done
  /-- The key is not in the table. -/
  | invalid

def entryFrom (t : Table) (listFrom nodesFrom : Nat) : Next :=
  match t.firstInList (t.list.size + 1 - listFrom) listFrom with
  | some (key, v) => .entry key v
  | none =>
    match t.firstInNodes (t.nodes.size + 1 - nodesFrom) nodesFrom with
    | some (key, v) => .entry key v
    | none => .done

/-- The entry that comes after a key; nil comes before all. A key has to be given as the table keeps it. -/
def next (t : Table) (key : Value) : Next :=
  match key with
  | .nil => t.entryFrom 0 0
  | .float x =>
    match t.places[Key.float x.toBits]? with
    | some i => t.entryFrom t.list.size (i + 1)
    | none => .invalid
  | _ =>
    match Key.ofValue? key with
    | none => .invalid
    | some key =>
      match t.listPlace? key with
      | some i => t.entryFrom (i + 1) 0
      | none =>
        match t.places[key]? with
        | some i => t.entryFrom t.list.size (i + 1)
        | none => .invalid

end Table
end ScriptHost.Lua
