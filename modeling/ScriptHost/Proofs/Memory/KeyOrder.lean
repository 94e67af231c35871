import ScriptHost.Lua.Value
/-! The order in which tables look for keys. It is total and tells all keys apart, so that a search finds a key
exactly if it is there. -/
namespace ScriptHost.Lua.Key
open Text (Bytes)
open Std

private theorem compareFrom_eq {a b : Bytes} (hsize : a.size = b.size) :
    ∀ count i, count + i = a.size →
      compareFrom a b count i = compare (a.data.toList.drop i) (b.data.toList.drop i) := by
  intro count
  induction count with
  | zero =>
    intro i hi
    have ha : a.data.toList.drop i = [] := List.drop_eq_nil_of_le (by simp; omega)
    have hb : b.data.toList.drop i = [] := List.drop_eq_nil_of_le (by simp; omega)
    rw [ha, hb]
    rfl
  | succ count ih =>
    intro i hi
    have hai : i < a.size := by omega
    have hbi : i < b.size := by omega
    have ha : i < a.data.toList.length := by simpa using hai
    have hb : i < b.data.toList.length := by simpa using hbi
    have hstep : compareFrom a b (count + 1) i =
        if h : i < a.size ∧ i < b.size then (compare a[i] b[i]).then (compareFrom a b count (i + 1)) else .eq := rfl
    rw [List.drop_eq_getElem_cons ha, List.drop_eq_getElem_cons hb, List.compare_cons_cons,
      ← ih (i + 1) (by omega), hstep, dif_pos ⟨hai, hbi⟩]
    rfl

/-- Texts are ordered by their sizes first, and those of one size byte by byte. -/
theorem compareBytes_eq :
    compareBytes = compareLex (compareOn ByteArray.size) (compareOn fun s => s.data.toList) := by
  funext a b
  by_cases hsize : a.size = b.size
  · rw [compareBytes, compareFrom_eq hsize a.size 0 (by omega)]
    rfl
  · have hne : compare a.size b.size ≠ .eq := fun h => hsize (LawfulEqOrd.eq_of_compare h)
    rw [compareBytes, compareLex, compareOn]
    cases hc : compare a.size b.size with
    | eq => exact absurd hc hne
    | lt | gt => rfl

instance : TransCmp compareBytes := by
  rw [compareBytes_eq]
  infer_instance

instance : LawfulEqCmp compareBytes where
  compare_self := ReflCmp.compare_self
  eq_of_compare {a b} h := by
    rw [compareBytes_eq, compareLex_eq_eq] at h
    have hlist : a.data.toList = b.data.toList := LawfulEqOrd.eq_of_compare h.2
    exact ByteArray.ext (Array.toList_inj.mp hlist)

theorem compareKeys_of_rank_ne {a b : Key} (h : a.rank ≠ b.rank) :
    compareKeys a b = compare a.rank b.rank := by
  cases a <;> cases b <;> first | rfl | exact absurd rfl h

private theorem rank_le {a b : Key} (h : (compareKeys a b).isLE) : a.rank ≤ b.rank := by
  by_cases hr : a.rank = b.rank
  · omega
  · rw [compareKeys_of_rank_ne hr, Nat.isLE_compare] at h
    exact h

instance : TransCmp compareKeys where
  eq_swap {a b} := by
    cases a <;> cases b <;> simp only [compareKeys] <;> exact OrientedCmp.eq_swap
  isLE_trans {a b c} hab hbc := by
    have h₁ := rank_le hab
    have h₂ := rank_le hbc
    by_cases hr : a.rank = c.rank
    · -- All three are keys of one kind.
      have hb : a.rank = b.rank := by omega
      cases a <;> cases b <;> cases hb <;> cases c <;> cases hr <;>
        simp only [compareKeys] at hab hbc ⊢ <;> exact TransCmp.isLE_trans hab hbc
    · rw [compareKeys_of_rank_ne hr, Nat.isLE_compare]
      omega

instance : LawfulEqCmp compareKeys where
  compare_self {a} := by cases a <;> simp only [compareKeys] <;> exact ReflCmp.compare_self
  eq_of_compare {a b} h := by
    by_cases hr : a.rank = b.rank
    · cases a <;> cases b <;> cases hr <;> simp only [compareKeys] at h <;>
        exact congrArg _ (LawfulEqCmp.eq_of_compare h)
    · rw [compareKeys_of_rank_ne hr] at h
      exact absurd (LawfulEqOrd.eq_of_compare h) hr

end ScriptHost.Lua.Key
