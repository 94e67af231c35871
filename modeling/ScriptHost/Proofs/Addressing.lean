import ScriptHost.Proofs.Peeking
/-! Positions on the stack. The place of a position is reckoned in words of 64 bits. No sum overflows on the way, and
what is looked up is on the stack. A place counted from the top is one counted from the bottom, and what stands there
counts as one integer. -/
namespace ScriptHost
open Lua (HostValue)

/-- What stops a computation on words: a sum that is no word, or an element that is not there. -/
inductive WordFault where
  | overflow
  | outOfBounds (length index : Nat)
  deriving DecidableEq, Repr

/-- The place of a position among so many values, counted from one at the bottom. -/
def placeAmong (depth : Nat) (position : Int) : Int := if position < 0 then depth + position + 1 else position

theorem placeAmong_bounds (depth : Nat) (position : Int) :
    1 ≤ placeAmong depth position ∧ placeAmong depth position ≤ depth ↔
      1 ≤ position ∧ position ≤ depth ∨ -(depth : Int) ≤ position ∧ position ≤ -1 := by
  unfold placeAmong
  split <;> omega

namespace Word

/-- The sum of two words. -/
def add (a b : Int64) : Except WordFault Int64 :=
  if Numeral.inRange64 (a.toInt + b.toInt) then .ok (a + b) else .error .overflow

/-- The difference of two words. -/
def sub (a b : Int64) : Except WordFault Int64 :=
  if Numeral.inRange64 (a.toInt - b.toInt) then .ok (a - b) else .error .overflow

/-- The element at an index, counted from zero. -/
def element {α : Type} (items : List α) (index : UInt64) : Except WordFault α :=
  match items[index.toNat]? with
  | some a => .ok a
  | none => .error (.outOfBounds items.length index.toNat)

/-- More elements than this have no room in a memory that is addressed with words. -/
def capacity : Nat := 2 ^ 63 - 1

/-- The place of a position, where `top` is the place of what is on top. -/
def place (top : Int64) (position : Int32) : Except WordFault Int64 :=
  if position < 0 then do add (← add top position.toInt64) 1 else .ok position.toInt64

section
variable {a b : Int64} {i : Int}

theorem add_eq_ok (hsum : a.toInt + b.toInt = i) (hi : -2 ^ 63 ≤ i ∧ i < 2 ^ 63) :
    ∃ c, add a b = .ok c ∧ c.toInt = i := by
  refine ⟨a + b, ?_, ?_⟩
  · rw [add, hsum, if_pos (Numeral.inRange64_iff.mpr (by omega))]
  · rw [Int64.toInt_add, hsum, Int.bmod_eq_of_le (by omega) (by omega)]

theorem sub_eq_ok (hdifference : a.toInt - b.toInt = i) (hi : -2 ^ 63 ≤ i ∧ i < 2 ^ 63) :
    ∃ c, sub a b = .ok c ∧ c.toInt = i := by
  refine ⟨a - b, ?_, ?_⟩
  · rw [sub, hdifference, if_pos (Numeral.inRange64_iff.mpr (by omega))]
  · rw [Int64.toInt_sub, hdifference, Int.bmod_eq_of_le (by omega) (by omega)]

theorem element_eq_ok {α : Type} {items : List α} {index : UInt64} {n : Nat} (hindex : index.toNat = n)
    (hn : n < items.length) : element items index = .ok items[n] := by
  rw [element, hindex, List.getElem?_eq_getElem hn]

theorem toInt_ofNat_depth {depth : Nat} (hdepth : depth ≤ capacity) : (Int64.ofNat depth).toInt = depth := by
  apply Int64.toInt_ofNat_of_lt
  unfold capacity at hdepth
  omega

/-- The place of a position is a word, wherever it lies. -/
theorem place_eq_ok {depth : Nat} (hdepth : depth ≤ capacity) (position : Int32) :
    ∃ index, place (Int64.ofNat depth) position = .ok index ∧
      index.toInt = placeAmong depth position.toInt := by
  have htop := toInt_ofNat_depth hdepth
  have hlow := position.le_toInt
  have hhigh := position.toInt_lt
  have hzero : position < 0 ↔ position.toInt < 0 := Int32.lt_iff_toInt_lt
  unfold capacity at hdepth
  unfold place placeAmong
  by_cases hnegative : position.toInt < 0
  · obtain ⟨sum, hsum, hvalue⟩ := @add_eq_ok (Int64.ofNat depth) position.toInt64 (depth + position.toInt)
      (by rw [htop, Int32.toInt_toInt64]) (by omega)
    obtain ⟨index, hindex, hplace⟩ := @add_eq_ok sum 1 (depth + position.toInt + 1)
      (by rw [hvalue, Int64.toInt_one]) (by omega)
    refine ⟨index, ?_, ?_⟩
    · rw [if_pos (hzero.mpr hnegative), hsum]
      exact hindex
    · rw [if_pos hnegative, hplace]
  · refine ⟨position.toInt64, ?_, ?_⟩
    · rw [if_neg (mt hzero.mp hnegative)]
    · rw [if_neg hnegative, Int32.toInt_toInt64]

end

end Word

namespace Host
variable (h : Host)

/-- The value at a position, sought with words among the values from the bottom on. -/
def seek (position : Int32) : Except WordFault (Option HostValue) := do
  let top := Int64.ofNat h.depth
  let index ← Word.place top position
  if index < 1 ∨ top < index then return none
  else return some (← Word.element h.stack.reverse (← Word.sub index 1).toUInt64)

/-- The integer that a value counts as. A number loses its fraction, a text counts as the number that it spells, and
all else as zero. -/
def integerOf : HostValue → Int64
  | .int i => Numeral.truncateToInt64 (Numeral.ofInt i.toInt)
  | .float x => Numeral.truncateToInt64 x
  | .string s =>
    if h.interpreter.isSome then
      match Lua.Number.ofBytes? s with
      | some n => Numeral.truncateToInt64 n.toFloat
      | none => 0
    else 0
  | _ => 0

/-- The integer at a position, sought with words. -/
def peekWords (position : Int32) : Except WordFault (Option Int64) := do
  return (← h.seek position).map h.integerOf

theorem peekInteger_eq (position : Int) : h.peekInteger position = (h.at? position).map h.integerOf := by
  have hcounts (v : HostValue) : ((h.numberOf? v).map Numeral.truncateToInt64).getD 0 = h.integerOf v := by
    cases v with
    | string s =>
      simp only [numberOf?, integerOf, HostValue.number?]
      split
      · cases Lua.Number.ofBytes? s <;> rfl
      · rfl
    | _ => rfl
  rw [peekInteger, funext hcounts]

theorem length_reverse_stack : h.stack.reverse.length = h.depth := List.length_reverse

/-- A value is found at the places of the stack and nowhere else. -/
theorem at?_eq (position : Int) :
    h.at? position =
      if placeAmong h.depth position < 1 ∨ h.depth < placeAmong h.depth position then none
      else h.stack.reverse[(placeAmong h.depth position - 1).toNat]? := by
  have hat : h.at? position =
      if 1 ≤ placeAmong h.depth position then h.stack.reverse[(placeAmong h.depth position - 1).toNat]?
      else none := rfl
  rw [hat]
  generalize placeAmong h.depth position = index
  by_cases hlow : 1 ≤ index
  · rw [if_pos hlow]
    by_cases hhigh : h.depth < index
    · rw [if_pos (.inr hhigh)]
      apply List.getElem?_eq_none
      rw [length_reverse_stack]
      omega
    · rw [if_neg (by omega)]
  · rw [if_neg hlow, if_pos (.inl (by omega))]

/-- There is a value exactly at the places of the stack. -/
theorem at?_isSome_iff (position : Int) :
    (h.at? position).isSome ↔ 1 ≤ placeAmong h.depth position ∧ placeAmong h.depth position ≤ h.depth := by
  have hlength := h.length_reverse_stack
  rw [at?_eq]
  generalize placeAmong h.depth position = index
  by_cases houtside : index < 1 ∨ h.depth < index
  · rw [if_pos houtside]
    simp only [Option.isSome_none, Bool.false_eq_true, false_iff]
    omega
  · rw [if_neg houtside, List.getElem?_eq_getElem (by omega)]
    simp only [Option.isSome_some, true_iff]
    omega

/-- The value with so many places from it to the top is found from the top and from the bottom. -/
theorem at?_both {k : Nat} (hlow : 1 ≤ k) (hhigh : k ≤ h.depth) :
    h.at? (-k) = h.stack[k - 1]? ∧ h.at? (h.depth - k + 1) = h.stack[k - 1]? := by
  have hlength : h.depth - k < h.stack.length := by
    unfold depth at hhigh ⊢
    omega
  have hindex : h.stack.length - 1 - (h.depth - k) = k - 1 := by
    unfold depth at hhigh ⊢
    omega
  have found {position : Int} (hplace : placeAmong h.depth position = h.depth - k + 1) :
      h.at? position = h.stack[k - 1]? := by
    have hoffset : ((h.depth : Int) - k + 1 - 1).toNat = h.depth - k := by omega
    rw [at?_eq, hplace, if_neg (by omega), hoffset, List.getElem?_reverse hlength, hindex]
  constructor <;>
  · apply found
    unfold placeAmong
    split <;> omega

/-- Nothing stops the search with words, and it finds what is at the position. -/
theorem seek_eq (hdepth : h.depth ≤ Word.capacity) (position : Int32) :
    h.seek position = .ok (h.at? position.toInt) := by
  obtain ⟨index, hplace, hindex⟩ := Word.place_eq_ok hdepth position
  have htop := Word.toInt_ofNat_depth hdepth
  have hbelow : index < 1 ↔ index.toInt < 1 := by rw [Int64.lt_iff_toInt_lt, Int64.toInt_one]
  have habove : Int64.ofNat h.depth < index ↔ (h.depth : Int) < index.toInt := by
    rw [Int64.lt_iff_toInt_lt, htop]
  have hlength := h.length_reverse_stack
  rw [at?_eq, seek, ← hindex]
  simp only [hplace, bind, Except.bind, hbelow, habove]
  by_cases houtside : index.toInt < 1 ∨ (h.depth : Int) < index.toInt
  · rw [if_pos houtside, if_pos houtside]
    rfl
  · unfold Word.capacity at hdepth
    obtain ⟨offset, hoffset, hvalue⟩ := @Word.sub_eq_ok index 1 (index.toInt - 1)
      (by rw [Int64.toInt_one]) (by omega)
    have hnat : offset.toUInt64.toNat = (index.toInt - 1).toNat := by
      have hpositive : 0 ≤ offset := by
        rw [Int64.le_iff_toInt_le, hvalue, Int64.toInt_zero]
        omega
      rw [Int64.toNat_toUInt64_of_le hpositive, Int64.toNatClampNeg, hvalue]
    have hinside : (index.toInt - 1).toNat < h.stack.reverse.length := by omega
    rw [if_neg houtside, if_neg houtside, List.getElem?_eq_getElem hinside]
    simp only [hoffset, Word.element_eq_ok hnat hinside]
    rfl

/-- Whatever the stack and the position, nothing stops the search for the integer there: no sum overflows, and no
element is missing. There is an integer exactly at the positions of the stack. Counted from the top or from the bottom,
it is what the value there counts as, and looking at it changes nothing. -/
theorem peek_addresses_stack (position : Int32) :
    (h.depth ≤ Word.capacity → h.peekWords position = .ok (h.peekInteger position.toInt)) ∧
      h.answer (.peekInteger position.toInt) =
        (.ok (.integerOrNone (h.peekInteger position.toInt)), h) ∧
      ((h.peekInteger position.toInt).isSome ↔
        1 ≤ position.toInt ∧ position.toInt ≤ h.depth ∨
          -(h.depth : Int) ≤ position.toInt ∧ position.toInt ≤ -1) ∧
      ∀ k : Nat, 1 ≤ k → k ≤ h.depth → ∃ v, h.stack[k - 1]? = some v ∧
        h.peekInteger (-k) = some (h.integerOf v) ∧ h.peekInteger (h.depth - k + 1) = some (h.integerOf v) := by
  refine ⟨?_, h.answer_peekInteger _, ?_, ?_⟩
  · intro hdepth
    rw [peekWords, seek_eq h hdepth, peekInteger_eq]
    rfl
  · rw [peekInteger_eq, Option.isSome_map, at?_isSome_iff, placeAmong_bounds]
  · intro k hlow hhigh
    obtain ⟨htop, hbottom⟩ := h.at?_both hlow hhigh
    have hlength : k - 1 < h.stack.length := by
      unfold depth at hhigh
      omega
    refine ⟨h.stack[k - 1], List.getElem?_eq_getElem hlength, ?_, ?_⟩
    · rw [peekInteger_eq, htop, List.getElem?_eq_getElem hlength]
      rfl
    · rw [peekInteger_eq, hbottom, List.getElem?_eq_getElem hlength]
      rfl

/-- A host with a value of each kind on its stack. -/
def assorted : Host :=
  (offering []).after [.pushInteger 10, .pushNumber 20.9, .pushString "30", .pushBoolean true]

theorem peek_addresses_stack_assorted :
    assorted.depth ≤ Word.capacity ∧ assorted.depth = 4 ∧
      assorted.peekWords (-4) = .ok (assorted.peekInteger (-4)) ∧
      assorted.peekWords Int32.minValue = .ok (assorted.peekInteger (-2147483648)) ∧
      ∃ v, assorted.stack[2]? = some v ∧ assorted.peekInteger (-3) = some (assorted.integerOf v) ∧
        assorted.peekInteger 2 = some (assorted.integerOf v) := by
  have hdepth : assorted.depth ≤ Word.capacity := by decide +kernel
  refine ⟨hdepth, by decide +kernel, ?_, ?_, ?_⟩
  · exact (assorted.peek_addresses_stack (-4)).1 hdepth
  · exact (assorted.peek_addresses_stack Int32.minValue).1 hdepth
  · exact (assorted.peek_addresses_stack 0).2.2.2 3 (by decide) (by decide +kernel)

end Host
end ScriptHost
