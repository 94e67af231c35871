import ScriptHost.Proofs.Memory.Lookup
import ScriptHost.Proofs.Memory.World
/-! What tables keep names no places but those that were put into them, and whatever key is set, all keys can be
found afterwards. -/
namespace ScriptHost.Lua
open Text (Bytes)
variable {w : World}

/-- All places that a table names are in use. -/
structure Table.FilledIn (t : Table) (w : World) : Prop where
  list : w.Has t.list
  nodes : w.Has t.nodes
  metatable : w.Has (t.metatable.map Value.table)

/-- The same of a table whose keys can be found. -/
structure Table.NamedIn (t : Table) (w : World) : Prop extends t.FilledIn w where
  searchable : t.Searchable

instance : Referring Table where
  namedIn := Table.NamedIn
  extend h he := ⟨⟨h.list.extend he, h.nodes.extend he, h.metatable.extend he⟩, h.searchable⟩

instance : Referring Table.Next where
  namedIn
    | .entry key v, w => w.Has key ∧ w.Has v
    | .done, _ | .invalid, _ => True
  extend {next _ _} h he := by
    cases next with
    | entry key v => exact ⟨h.1.extend he, h.2.extend he⟩
    | _ => trivial

theorem has_table_iff {t : Table} :
    w.Has t ↔ w.Has t.list ∧ w.Has t.nodes ∧ w.Has (t.metatable.map Value.table) ∧ t.Searchable :=
  ⟨fun h => ⟨h.list, h.nodes, h.metatable, h.searchable⟩, fun ⟨h₁, h₂, h₃, h₄⟩ => ⟨⟨h₁, h₂, h₃⟩, h₄⟩⟩

/-- A key names what its value names. -/
theorem has_ofValue? {v : Value} (hv : w.Has v) : w.Has (Key.ofValue? v) := by
  intro key hk
  cases v with
  | float x =>
    simp only [Key.ofValue?] at hk
    split at hk
    · cases hk; trivial
    · split at hk <;> cases hk
      trivial
  | nil => cases hk
  | _ => cases hk; exact hv

namespace Table
variable {t : Table}

/-- A table without values names nothing, however much room it has. -/
theorem has_withCapacity (capacity : Nat) : w.Has ({ capacity } : Table) :=
  has_table_iff.mpr ⟨has_empty_array, has_empty_array, has_none, searchable_withCapacity capacity⟩

theorem has_empty : w.Has ({} : Table) := has_withCapacity 0

/-- What a table gives for a key. -/
theorem has_get (ht : w.Has t) (key : Key) : w.Has (t.get key) := by
  have hlist := (has_table_iff.mp ht).1
  have hnodes := (has_table_iff.mp ht).2.1
  unfold get
  split
  · exact (hlist.at? _).getD has_nil
  · split
    · next place _ =>
      rcases hn : t.nodes[place]? with _ | ⟨k, v⟩
      · exact has_nil
      · exact (hnodes.at? place _ hn).2
    · exact has_nil

theorem has_getName (ht : w.Has t) (name : String) : w.Has (t.getName name) := has_get ht _

namespace FilledIn

theorem push (ht : t.FilledIn w) {key : Key} (hk : w.Has key) {v : Value} (hv : w.Has v) :
    (t.push key v).FilledIn w :=
  ⟨ht.list, ht.nodes.push ⟨hk, hv⟩, ht.metatable⟩

theorem place (ht : t.FilledIn w) {key : Key} (hk : w.Has key) {v : Value} (hv : w.Has v) :
    (t.place key v).FilledIn w := by
  unfold Table.place
  split
  · exact ⟨ht.list.set! _ hv, ht.nodes, ht.metatable⟩
  · exact ht.push hk hv

/-- Sizes change and nothing is added. -/
theorem resize (ht : t.FilledIn w) (size others : Nat) : (t.resize size others).FilledIn w := by
  unfold Table.resize
  rw [← Array.foldl_toList]
  -- The list gets its size; values that it has no room for move to the other keys, and those are placed anew.
  refine List.foldlRecOn (motive := (FilledIn · w)) _ _
    (List.foldlRecOn (motive := (FilledIn · w)) _ _ ?_ fun u hu a ha => ?_) fun u hu a ha => ?_
  · refine ⟨?_, has_empty_array, ht.metatable⟩
    dsimp only
    split
    · intro v hv
      have hv : v ∈ t.list.toList.take size := by simpa using Array.mem_toList_iff.mpr hv
      exact ht.list v (Array.mem_toList_iff.mp (List.mem_of_mem_take hv))
    · intro v hv
      obtain hv | hv := Array.mem_append.mp hv
      · exact ht.list v hv
      · rw [(Array.mem_replicate.mp hv).2]
        exact has_nil
  · obtain ⟨v, i⟩ := a
    have hv : v ∈ t.list := by
      have h₁ := (List.mem_filter.mp ha).1
      have h₂ := List.mem_of_mem_drop (List.fst_mem_of_mem_zipIdx h₁)
      simpa using h₂
    exact hu.push (by simp [Key.value]) (ht.list v hv)
  · obtain ⟨key, v⟩ := a
    obtain ⟨hk, hv⟩ := ht.nodes (key, v) (by simpa using ha)
    dsimp only
    split
    · exact hu
    · exact hu.place hk hv

theorem set (ht : t.FilledIn w) {key : Key} (hk : w.Has key) {v : Value} (hv : w.Has v) :
    (t.set key v).FilledIn w := by
  unfold Table.set
  split
  · exact ⟨ht.list.set! _ hv, ht.nodes, ht.metatable⟩
  · split
    · exact ⟨ht.list, ht.nodes.set! _ ⟨hk, hv⟩, ht.metatable⟩
    · split
      · exact ht
      · split
        · exact ht.push hk hv
        · exact (ht.resize _ _).place hk hv

theorem setList (ht : t.FilledIn w) (start : Nat) {values : List Value} (hv : w.Has values) :
    (t.setList start values).FilledIn w := by
  unfold Table.setList
  refine List.foldlRecOn (motive := (FilledIn · w)) _ _ ?_ fun u hu a ha => ?_
  · split
    · exact ht.resize _ _
    · exact ht
  · exact ⟨hu.list.set! _ (hv _ (List.fst_mem_of_mem_zipIdx ha)), hu.nodes, hu.metatable⟩

end FilledIn

theorem has_set (ht : w.Has t) {key : Key} (hk : w.Has key) {v : Value} (hv : w.Has v) : w.Has (t.set key v) :=
  ⟨NamedIn.toFilledIn ht |>.set hk hv, (NamedIn.searchable ht).set key v⟩

theorem has_setName (ht : w.Has t) (name : String) {v : Value} (hv : w.Has v) : w.Has (t.setName name v) :=
  has_set ht (by simp [Key.value]) hv

theorem has_setList (ht : w.Has t) (start : Nat) {values : List Value} (hv : w.Has values) :
    w.Has (t.setList start values) :=
  ⟨NamedIn.toFilledIn ht |>.setList start hv, (NamedIn.searchable ht).setList start values⟩

/-- Where a search starts names nothing. -/
theorem has_withHint (ht : w.Has t) (hint : Nat) : w.Has { t with hint } := by
  obtain ⟨hlist, hnodes, hmeta, hsearch⟩ := has_table_iff.mp ht
  exact has_table_iff.mpr ⟨hlist, hnodes, hmeta, hsearch.of_eq rfl rfl⟩

theorem has_noteRead (ht : w.Has t) (key : Key) : w.Has (t.noteRead key) := by
  unfold noteRead
  split
  · split
    · exact has_withHint ht _
    · exact ht
  · exact ht

theorem has_firstInList (ht : w.Has t) (fuel i : Nat) : w.Has (t.firstInList fuel i) := by
  induction fuel generalizing i with
  | zero => exact has_none
  | succ fuel ih =>
    unfold firstInList
    split
    · next v hv =>
      split
      · exact ih _
      · exact (has_some _).mpr ⟨has_ofNat _, (has_table_iff.mp ht).1.at? i v hv⟩
    · exact has_none

theorem has_firstInNodes (ht : w.Has t) (fuel i : Nat) : w.Has (t.firstInNodes fuel i) := by
  induction fuel generalizing i with
  | zero => exact has_none
  | succ fuel ih =>
    unfold firstInNodes
    split
    · next key v hv =>
      split
      · exact ih _
      · exact (has_some _).mpr ((has_table_iff.mp ht).2.1.at? i _ hv)
    · exact has_none

theorem has_entryFrom (ht : w.Has t) (listFrom nodesFrom : Nat) : w.Has (t.entryFrom listFrom nodesFrom) := by
  unfold entryFrom
  split
  · next key v hf => exact has_firstInList ht _ _ _ hf
  · split
    · next key v hf => exact has_firstInNodes ht _ _ _ hf
    · trivial

/-- What comes after a key in a visit. -/
theorem has_next (ht : w.Has t) (key : Value) : w.Has (t.next key) := by
  unfold next
  split
  · exact has_entryFrom ht _ _
  · split
    · exact has_entryFrom ht _ _
    · trivial
  · split
    · trivial
    · split
      · exact has_entryFrom ht _ _
      · split
        · exact has_entryFrom ht _ _
        · trivial

end Table

theorem has_tableOf {entries : Entries} (he : ∀ entry ∈ entries, w.Has entry.2) : w.Has (tableOf entries) :=
  List.foldlRecOn _ _ Table.has_empty fun _ hu entry hentry => Table.has_setName hu entry.1 (he entry hentry)

end ScriptHost.Lua
