import Mathlib.Logic.Relation
import ScriptHost.Recording
/-! Handles on records fall into families: copying connects them, and nothing else does. Each family has one list of
reports, and the store of records shows that list through every handle of the family. -/
namespace ScriptHost

namespace RecordCall

/-- What is left of a list of reports after a call. -/
def change : RecordCall → List Diagnostic → List Diagnostic
  | .add report, list => list ++ [report]
  | .clear, _ => []
  | _, list => list

/-- What a call shows of a list of reports. -/
def seen : RecordCall → List Diagnostic → RecordView
  | .add _, _ | .clear, _ => .done
  | .length, list => .count list.length
  | .isEmpty, list => .truth list.isEmpty
  | .entries, list => .reports list
  | .last, list => .latest list.getLast?

/-- The report that a call adds. -/
def report? : RecordCall → Option Diagnostic
  | .add report => some report
  | _ => none

/-- The reports that some calls have added since the latest of them that has cleared the list, in their order. -/
def sinceClear (calls : List RecordCall) : List Diagnostic :=
  (calls.reverse.takeWhile (· ≠ .clear)).reverse.filterMap report?

theorem sinceClear_concat (calls : List RecordCall) (call : RecordCall) :
    sinceClear (calls ++ [call]) = call.change (sinceClear calls) := by
  rw [sinceClear, List.reverse_concat]
  cases call with
  | clear => rfl
  | _ => simp [sinceClear, change, report?]

end RecordCall

namespace RecordSession
variable {n : Nat}

/-- Whether one handle has been copied from another one, by their numbers. -/
def Copied : {n : Nat} → RecordSession n → Nat → Nat → Prop
  | _, .start, _, _ => False
  | _, .create before, i, j => before.Copied i j
  | n + 1, .share before handle, i, j => before.Copied i j ∨ i = handle ∧ j = n
  | _, .call before _ _, i, j => before.Copied i j

/-- Whether two handles belong to one family. -/
def Related (session : RecordSession n) : Nat → Nat → Prop := Relation.EqvGen session.Copied

/-- The first handle of the family of a handle. -/
def root : {n : Nat} → RecordSession n → Nat → Nat
  | _, .start, i => i
  | _, .create before, i => before.root i
  | n + 1, .share before handle, i => before.root (if i = n then handle else i)
  | _, .call before _ _, i => before.root i

/-- The calls so far, in their order, with the handles that they went through. -/
def calls : {n : Nat} → RecordSession n → List (Nat × RecordCall)
  | _, .start => []
  | _, .create before | _, .share before _ => before.calls
  | _, .call before handle wanted => before.calls ++ [(handle.val, wanted)]

section Families
variable (session : RecordSession n)

theorem root_of_le {i : Nat} (hi : n ≤ i) : session.root i = i := by
  induction session with
  | start => rfl
  | create before ih => exact ih (Nat.le_of_succ_le hi)
  | @share n before handle ih =>
    rw [root, if_neg (by omega)]
    exact ih (Nat.le_of_succ_le hi)
  | call before handle wanted ih => exact ih hi

theorem root_lt {i : Nat} (hi : i < n) : session.root i < n := by
  induction session generalizing i with
  | start => exact hi
  | @create n before ih =>
    by_cases hnew : i < n
    · exact Nat.lt_succ_of_lt (ih hnew)
    · rw [root, before.root_of_le (Nat.le_of_not_lt hnew)]
      exact hi
  | @share n before handle ih =>
    rw [root]
    split
    · exact Nat.lt_succ_of_lt (ih handle.isLt)
    · next hold => exact Nat.lt_succ_of_lt (ih (Nat.lt_of_le_of_ne (Nat.le_of_lt_succ hi) hold))
  | call before handle wanted ih => exact ih hi

theorem lt_of_copied {i j : Nat} (h : session.Copied i j) : i < n ∧ j < n := by
  induction session with
  | start => exact h.elim
  | create before ih => exact (ih h).imp Nat.lt_succ_of_lt Nat.lt_succ_of_lt
  | share before handle ih =>
    rcases h with hbefore | ⟨rfl, rfl⟩
    · exact (ih hbefore).imp Nat.lt_succ_of_lt Nat.lt_succ_of_lt
    · exact ⟨Nat.lt_succ_of_lt handle.isLt, Nat.lt_succ_self _⟩
  | call before handle wanted ih => exact ih h

theorem root_eq_of_copied {i j : Nat} (h : session.Copied i j) : session.root i = session.root j := by
  induction session with
  | start => exact h.elim
  | create before ih => exact ih h
  | @share n before handle ih =>
    rw [root, root]
    rcases h with hbefore | ⟨rfl, rfl⟩
    · obtain ⟨hi, hj⟩ := before.lt_of_copied hbefore
      rw [if_neg (Nat.ne_of_lt hi), if_neg (Nat.ne_of_lt hj)]
      exact ih hbefore
    · rw [if_neg (Nat.ne_of_lt handle.isLt), if_pos rfl]
  | call before handle wanted ih => exact ih h

theorem related_root (i : Nat) : session.Related i (session.root i) := by
  induction session generalizing i with
  | start => exact .refl i
  | create before ih => exact ih i
  | @share n before handle ih =>
    have later (i j : Nat) (h : before.Related i j) : (before.share handle).Related i j :=
      Relation.EqvGen.mono (fun _ _ hbefore => Or.inl hbefore) i j h
    rw [root]
    split
    · next hi =>
      subst hi
      exact .trans _ _ _ (.symm _ _ (.rel _ _ (.inr ⟨rfl, rfl⟩))) (later _ _ (ih handle))
    · exact later _ _ (ih i)
  | call before handle wanted ih => exact ih i

/-- Handles belong to one family exactly if the family has begun with one handle. -/
theorem related_iff (i j : Nat) : session.Related i j ↔ session.root i = session.root j := by
  constructor
  · intro h
    induction h with
    | rel i j hcopied => exact session.root_eq_of_copied hcopied
    | refl i => rfl
    | symm i j _ ih => exact ih.symm
    | trans i j k _ _ ih₁ ih₂ => exact ih₁.trans ih₂
  · intro h
    have hj := session.related_root j
    rw [← h] at hj
    exact .trans _ _ _ (session.related_root i) (.symm _ _ hj)

theorem lt_of_mem_calls {c : Nat × RecordCall} (hc : c ∈ session.calls) : c.1 < n := by
  induction session with
  | start => cases hc
  | create before ih => exact Nat.lt_succ_of_lt (ih hc)
  | share before handle ih => exact Nat.lt_succ_of_lt (ih hc)
  | call before handle wanted ih =>
    rcases List.mem_append.mp hc with hbefore | hnew
    · exact ih hbefore
    · obtain rfl := List.mem_singleton.mp hnew
      exact handle.isLt

end Families

instance (session : RecordSession n) (i j : Nat) : Decidable (session.Related i j) :=
  decidable_of_iff _ (session.related_iff i j).symm

/-- The calls through handles of the family of a handle. -/
def familyCalls (session : RecordSession n) (i : Nat) : List RecordCall :=
  (session.calls.filter fun c => session.Related c.1 i).map (·.2)

/-- The list of reports of a family. -/
def recorded (session : RecordSession n) (i : Nat) : List Diagnostic :=
  RecordCall.sinceClear (session.familyCalls i)

section Records
variable (before : RecordSession n) (handle : Fin n) (i j : Nat)

theorem not_related_of_le {i j : Nat} (hi : i < n) (hj : n ≤ j) : ¬ before.Related i j := by
  have hroot := before.root_lt hi
  rw [related_iff, before.root_of_le hj]
  exact Nat.ne_of_lt (Nat.lt_of_lt_of_le hroot hj)

/-- A copy belongs where the handle belongs from which it has been copied. -/
theorem related_share_iff : (before.share handle).Related i j ↔
    before.Related (if i = n then handle else i) (if j = n then handle else j) := by
  rw [related_iff, related_iff, root, root]

theorem recorded_create : before.create.recorded i = before.recorded i := rfl

/-- Nothing has been reported through a handle that has not been obtained. -/
theorem recorded_of_le (hi : n ≤ i) : before.recorded i = [] := by
  have hnone : before.familyCalls i = [] := by
    rw [familyCalls, List.map_eq_nil_iff, List.filter_eq_nil_iff]
    intro c hc
    rw [decide_eq_true_eq]
    exact before.not_related_of_le (before.lt_of_mem_calls hc) hi
  rw [recorded, hnone]
  rfl

/-- A copy has the reports of its family. -/
theorem recorded_share : (before.share handle).recorded i = before.recorded (if i = n then handle else i) := by
  have hcalls : (before.share handle).familyCalls i = before.familyCalls (if i = n then handle else i) := by
    rw [familyCalls, familyCalls]
    congr 1
    apply List.filter_congr
    intro c hc
    have hold : c.1 ≠ n := Nat.ne_of_lt (before.lt_of_mem_calls hc)
    rw [decide_eq_decide, related_share_iff, if_neg hold]
  rw [recorded, recorded, hcalls]

/-- A call changes the list of its family and no other one. -/
theorem recorded_call (wanted : RecordCall) :
    (before.call handle wanted).recorded i =
      if before.Related handle i then wanted.change (before.recorded i) else before.recorded i := by
  have hcalls : (before.call handle wanted).familyCalls i =
      before.familyCalls i ++ if before.Related handle i then [wanted] else [] := by
    change ((before.calls ++ [(handle.val, wanted)]).filter fun c => before.Related c.1 i).map (·.2) = _
    rw [List.filter_append, List.map_append, familyCalls]
    by_cases h : before.Related handle i <;> simp [h]
  rw [recorded, hcalls, recorded]
  split
  · exact RecordCall.sinceClear_concat _ wanted
  · rw [List.append_nil]

end Records
end RecordSession
end ScriptHost
