import ScriptHost.Proofs.Recording.Family
/-! The store of records after a session. Handles point to one record exactly if they belong to one family, and the
record has the reports of the family. -/
namespace ScriptHost

namespace RecordCall
variable {store : RecordStore} {handle : RecordHandle}

/-- What a call makes of the store. -/
def changeStore (call : RecordCall) (store : RecordStore) (handle : RecordHandle) : RecordStore :=
  match call with
  | .add report => store.add handle report
  | .clear => store.clear handle
  | _ => store

/-- What a call shows of the store. -/
def seenIn (call : RecordCall) (store : RecordStore) (handle : RecordHandle) : RecordView :=
  match call with
  | .add _ | .clear => .done
  | .length => .count (store.length handle)
  | .isEmpty => .truth (store.isEmpty handle)
  | .entries => .reports (store.entries handle)
  | .last => .latest (store.last? handle)

/-- A call shows what the list of the record is like. -/
theorem seenIn_eq (call : RecordCall) : call.seenIn store handle = call.seen (store.entries handle) := by
  cases call <;> rfl

theorem size_changeStore (call : RecordCall) : (call.changeStore store handle).records.size = store.records.size := by
  cases call with
  | add _ | clear => exact Array.size_modify
  | _ => rfl

/-- A call changes the record of its handle and no other one. -/
theorem entries_changeStore (call : RecordCall) (hin : handle.place < store.records.size) (other : RecordHandle) :
    (call.changeStore store handle).entries other =
      if handle = other then call.change (store.entries other) else store.entries other := by
  obtain ⟨place⟩ := handle
  obtain ⟨place'⟩ := other
  have hrecord : store.records[place]? = some store.records[place] := Array.getElem?_eq_getElem hin
  cases call with
  | add _ | clear =>
    by_cases hplace : place = place'
    · subst hplace
      simp [changeStore, change, RecordStore.entries, RecordStore.add, RecordStore.clear, Array.getElem?_modify,
        hrecord]
    · simp [changeStore, RecordStore.entries, RecordStore.add, RecordStore.clear, Array.getElem?_modify, hplace]
  | _ => simp [changeStore, change]

end RecordCall

namespace RecordStore
variable (store : RecordStore)

/-- A new record is empty, and the others are as they were. -/
theorem entries_create (other : RecordHandle) : store.create.2.entries other = store.entries other := by
  rw [create, entries, entries, Array.getElem?_push]
  split
  · next hnew =>
    rw [hnew, Array.getElem?_eq_none (Nat.le_refl _)]
    rfl
  · rfl

theorem size_create : store.create.2.records.size = store.records.size + 1 := Array.size_push _

end RecordStore

namespace RecordSession
variable {n : Nat}

/-- The handles and the store after a session. -/
def stored : {n : Nat} → RecordSession n → Vector RecordHandle n × RecordStore
  | _, .start => (#v[], {})
  | _, .create before =>
    let (handles, store) := before.stored
    let (handle, store) := store.create
    (handles.push handle, store)
  | _, .share before handle =>
    let (handles, store) := before.stored
    let (handle, store) := store.share (handles.get handle)
    (handles.push handle, store)
  | _, .call before handle wanted =>
    let (handles, store) := before.stored
    (handles, wanted.changeStore store (handles.get handle))

/-- Handles and a store that are as a session wants them. -/
structure Follows (session : RecordSession n) (handles : Vector RecordHandle n) (store : RecordStore) : Prop where
  inside : ∀ i (hi : i < n), handles[i].place < store.records.size
  family : ∀ i j (hi : i < n) (hj : j < n), handles[i] = handles[j] ↔ session.Related i j
  entries : ∀ i (hi : i < n), store.entries handles[i] = session.recorded i

section Steps
variable {before : RecordSession n} {handles : Vector RecordHandle n} {store : RecordStore}
  (follows : before.Follows handles store)
include follows

theorem Follows.create : before.create.Follows (handles.push store.create.1) store.create.2 where
  inside i hi := by
    rw [RecordStore.size_create, Vector.getElem_push]
    split
    · next hold => exact Nat.lt_succ_of_lt (follows.inside i hold)
    · exact Nat.lt_succ_self _
  family i j hi hj := by
    -- The new handle points past all records, and it is the only one of its family.
    have apart (k : Nat) (hk : k < n) : handles[k] ≠ store.create.1 ∧ ¬ before.Related k n := by
      refine ⟨?_, before.not_related_of_le hk (Nat.le_refl n)⟩
      intro hsame
      have hplace := follows.inside k hk
      rw [hsame] at hplace
      exact Nat.lt_irrefl _ hplace
    change _ ↔ before.Related i j
    rw [Vector.getElem_push, Vector.getElem_push]
    by_cases hi' : i < n <;> by_cases hj' : j < n
    · rw [dif_pos hi', dif_pos hj']
      exact follows.family i j hi' hj'
    · obtain rfl : j = n := by omega
      rw [dif_pos hi', dif_neg hj']
      exact iff_of_false (apart i hi').1 (apart i hi').2
    · obtain rfl : i = n := by omega
      rw [dif_neg hi', dif_pos hj']
      exact iff_of_false (apart j hj').1.symm fun h => (apart j hj').2 h.symm
    · obtain rfl : i = n := by omega
      obtain rfl : j = i := by omega
      exact iff_of_true rfl (.refl _)
  entries i hi := by
    rw [RecordStore.entries_create, recorded_create, Vector.getElem_push]
    split
    · next hold => exact follows.entries i hold
    · next hnew =>
      rw [before.recorded_of_le i (Nat.le_of_not_lt hnew)]
      simp [RecordStore.entries, RecordStore.create]

/-- A copy is a handle like that from which it has been copied. -/
theorem Follows.share (k : Fin n) : (before.share k).Follows (handles.push (handles.get k)) store := by
  have origin (i : Nat) (hi : i < n + 1) : ∃ hk : (if i = n then k.val else i) < n,
      (handles.push (handles.get k))[i] = handles[if i = n then k.val else i] := by
    by_cases hnew : i = n
    · subst hnew
      have hcopy : handles.get k = handles[k.val] := rfl
      simp [hcopy]
    · have hold : i < n := by omega
      simp [hnew, hold]
  refine ⟨fun i hi => ?_, fun i j hi hj => ?_, fun i hi => ?_⟩
  · obtain ⟨hk, hget⟩ := origin i hi
    rw [hget]
    exact follows.inside _ hk
  · obtain ⟨hi', hgeti⟩ := origin i hi
    obtain ⟨hj', hgetj⟩ := origin j hj
    rw [hgeti, hgetj, related_share_iff]
    exact follows.family _ _ hi' hj'
  · obtain ⟨hk, hget⟩ := origin i hi
    rw [hget, recorded_share]
    exact follows.entries _ hk

theorem Follows.call (k : Fin n) (wanted : RecordCall) :
    (before.call k wanted).Follows handles (wanted.changeStore store (handles.get k)) where
  inside i hi := by
    rw [RecordCall.size_changeStore]
    exact follows.inside i hi
  family i j hi hj := follows.family i j hi hj
  entries i hi := by
    have hin : (handles.get k).place < store.records.size := follows.inside k k.isLt
    have hfamily : handles.get k = handles[i] ↔ before.Related k i := follows.family k i k.isLt hi
    rw [RecordCall.entries_changeStore wanted hin, recorded_call, follows.entries i hi]
    simp only [hfamily]

end Steps

/-- The handles and the store after a session are as it wants them. -/
theorem follows_stored (session : RecordSession n) : session.Follows session.stored.1 session.stored.2 := by
  induction session with
  | start => exact ⟨fun _ hi => absurd hi (Nat.not_lt_zero _), fun _ _ hi => absurd hi (Nat.not_lt_zero _),
      fun _ hi => absurd hi (Nat.not_lt_zero _)⟩
  | create before ih => exact ih.create
  | share before k ih => exact ih.share k
  | call before k wanted ih => exact ih.call k wanted

end RecordSession
end ScriptHost
