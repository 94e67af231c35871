import Std.Data.TreeMap.Lemmas
import ScriptHost.Lua.Library
import ScriptHost.Proofs.Memory.KeyOrder
/-! Tables as maps from names to values. The other keys of a table stand in the order of their arrival, and the
index beside them says where each name is; from that it follows that a name has the value it was given last, however
the table has grown meanwhile. -/
namespace ScriptHost.Lua
open Text (Bytes)

namespace Table
variable {t : Table}

/-- The value that is kept under a name, which can be nil. -/
def held? (t : Table) (name : Bytes) : Option Value :=
  t.places[Key.string name]?.bind fun place => t.nodes[place]?.map (·.2)

/-- The index finds a name exactly where it is. -/
def Indexed (t : Table) : Prop :=
  ∀ name place, t.places[Key.string name]? = some place ↔ ∃ v, t.nodes[place]? = some (.string name, v)

theorem get_string (t : Table) (name : Bytes) : t.get (.string name) = (t.held? name).getD .nil := by
  simp only [get, listPlace?, held?]
  cases t.places[Key.string name]? <;> rfl

theorem Indexed.held?_eq_none_iff (ht : t.Indexed) (name : Bytes) :
    t.held? name = none ↔ t.places[Key.string name]? = none := by
  rw [held?]
  cases hp : t.places[Key.string name]? with
  | none => simp
  | some place =>
    obtain ⟨v, hv⟩ := (ht name place).mp hp
    simp [hv]

theorem Indexed.held?_eq_some_iff (ht : t.Indexed) (name : Bytes) (v : Value) :
    t.held? name = some v ↔ (Key.string name, v) ∈ t.nodes := by
  rw [Array.mem_iff_getElem?, held?]
  constructor
  · intro he
    obtain ⟨place, hp, hv⟩ := Option.bind_eq_some_iff.mp he
    obtain ⟨v', hn⟩ := (ht name place).mp hp
    rw [hn] at hv
    cases hv
    exact ⟨place, hn⟩
  · rintro ⟨place, hn⟩
    rw [(ht name place).mpr ⟨v, hn⟩, Option.bind_some, hn]
    rfl

theorem places_push (t : Table) (key key' : Key) (v : Value) :
    (t.push key v).places[key']? = if key = key' then some t.nodes.size else t.places[key']? := by
  simp only [push, Std.TreeMap.getElem?_insert, Std.LawfulEqCmp.compare_eq_iff_eq]

theorem nodes_push (t : Table) (key : Key) (v : Value) (place : Nat) :
    (t.push key v).nodes[place]? = if place = t.nodes.size then some (key, v) else t.nodes[place]? :=
  Array.getElem?_push

theorem Indexed.place_lt (ht : t.Indexed) {name : Bytes} {place : Nat}
    (hp : t.places[Key.string name]? = some place) : place < t.nodes.size := by
  obtain ⟨v, hv⟩ := (ht name place).mp hp
  exact (Array.getElem?_eq_some_iff.mp hv).1

/-- A key that is not a name yet may be added. -/
theorem Indexed.push (ht : t.Indexed) {key : Key} (v : Value)
    (hfresh : ∀ name, key = .string name → t.held? name = none) : (t.push key v).Indexed := by
  intro name place
  rw [places_push, nodes_push]
  by_cases hk : key = .string name
  · rw [if_pos hk, Option.some_inj]
    constructor
    · intro hplace
      exact ⟨v, by rw [if_pos hplace.symm, hk]⟩
    · rintro ⟨v', hv'⟩
      by_cases hplace : place = t.nodes.size
      · exact hplace.symm
      · rw [if_neg hplace] at hv'
        have hsome := (ht name place).mpr ⟨v', hv'⟩
        rw [(ht.held?_eq_none_iff name).mp (hfresh name hk)] at hsome
        cases hsome
  · rw [if_neg hk, ht name place]
    by_cases hplace : place = t.nodes.size
    · rw [if_pos hplace, hplace]
      simp [hk]
    · rw [if_neg hplace]

theorem Indexed.held?_push (ht : t.Indexed) (key : Key) (v : Value) (name : Bytes) :
    (t.push key v).held? name = if key = .string name then some v else t.held? name := by
  rw [held?, places_push]
  by_cases hk : key = .string name
  · rw [if_pos hk, if_pos hk, Option.bind_some, nodes_push, if_pos rfl]
    rfl
  · rw [if_neg hk, if_neg hk, held?]
    cases hp : t.places[Key.string name]? with
    | none => rfl
    | some place =>
      have hlt := ht.place_lt hp
      rw [Option.bind_some, Option.bind_some, nodes_push, if_neg (by omega)]

/-- The list of a table has no names in it. -/
theorem place_string (t : Table) (name : Bytes) (v : Value) :
    t.place (.string name) v = t.push (.string name) v := rfl

theorem Indexed.place (ht : t.Indexed) {key : Key} (v : Value)
    (hfresh : ∀ name, key = .string name → t.held? name = none) :
    (t.place key v).Indexed ∧
      ∀ name, (t.place key v).held? name = if key = .string name then some v else t.held? name := by
  unfold Table.place
  split
  · next i hi =>
    refine ⟨ht, fun name => ?_⟩
    rw [if_neg]
    · rfl
    · rintro rfl
      cases hi
  · exact ⟨ht.push v hfresh, ht.held?_push key v⟩

/-- Two entries that are not of one name. -/
private def Apart (p q : Key × Value) : Prop := ∀ name, p.1 = .string name → q.1 ≠ .string name

private theorem Indexed.apart (ht : t.Indexed) : t.nodes.toList.Pairwise Apart := by
  rw [List.pairwise_iff_getElem]
  intro i j hi hj hij name hni hnj
  have hplace {k : Nat} (hk : k < t.nodes.toList.length) (hn : t.nodes.toList[k].1 = .string name) :
      t.places[Key.string name]? = some k := by
    refine (ht name k).mpr ⟨t.nodes.toList[k].2, ?_⟩
    rw [← hn, ← Array.getElem?_toList, List.getElem?_eq_getElem hk]
  have hsame : i = j := Option.some.inj ((hplace hi hni).symm.trans (hplace hj hnj))
  omega

/-- The table with one more entry, if that has a value. -/
private def fill (u : Table) (p : Key × Value) : Table := if p.2.isNil then u else u.place p.1 p.2

/-- One entry is found under its name, and a name without a value has the value nil. -/
private theorem Indexed.fill {u : Table} (hu : u.Indexed) {p : Key × Value}
    (hfresh : ∀ name, p.1 = .string name → u.held? name = none) :
    (u.fill p).Indexed ∧ (∀ name, p.1 = .string name → (u.fill p).get (.string name) = p.2) ∧
      ∀ name, p.1 ≠ .string name → (u.fill p).held? name = u.held? name := by
  unfold Table.fill
  split
  · next hv =>
    refine ⟨hu, fun name hname => ?_, fun _ _ => rfl⟩
    rw [get_string, hfresh name hname]
    cases hp : p.2 with
    | nil => rfl
    | _ =>
      rw [hp] at hv
      cases hv
  · obtain ⟨hplaced, hheld⟩ := hu.place p.2 hfresh
    refine ⟨hplaced, fun name hname => ?_, fun name hname => ?_⟩
    · rw [get_string, hheld, if_pos hname]
      rfl
    · rw [hheld, if_neg hname]

/-- Entries that are placed one after the other are found, if none of them is there twice; and nothing else
changes. -/
private theorem foldl_fill {l : List (Key × Value)} {u : Table} (hu : u.Indexed) (hl : l.Pairwise Apart)
    (hfresh : ∀ p ∈ l, ∀ name, p.1 = .string name → u.held? name = none) :
    (l.foldl fill u).Indexed ∧ (∀ name v, (Key.string name, v) ∈ l → (l.foldl fill u).get (.string name) = v) ∧
      ∀ name, (∀ v, (Key.string name, v) ∉ l) → (l.foldl fill u).held? name = u.held? name := by
  induction l generalizing u with
  | nil => exact ⟨hu, by simp, fun _ _ => rfl⟩
  | cons p rest ih =>
    obtain ⟨hapart, hrest⟩ := List.pairwise_cons.mp hl
    obtain ⟨hfill, hown, hothers⟩ := hu.fill (hfresh p List.mem_cons_self)
    have hfresh' : ∀ q ∈ rest, ∀ name, q.1 = .string name → (u.fill p).held? name = none := by
      intro q hq name hname
      rw [hothers name fun hp => hapart q hq name hp hname]
      exact hfresh q (List.mem_cons_of_mem _ hq) name hname
    obtain ⟨hi, hget, hother⟩ := ih hfill hrest hfresh'
    rw [List.foldl_cons]
    refine ⟨hi, fun name v hmem => ?_, fun name hno => ?_⟩
    · rcases List.mem_cons.mp hmem with rfl | hmem
      · -- None of the entries that follow has the name of this one.
        have habsent : ∀ v', (Key.string name, v') ∉ rest := fun v' hmem => hapart _ hmem name rfl rfl
        rw [get_string, hother name habsent, ← get_string]
        exact hown name rfl
      · exact hget name v hmem
    · rw [hother name fun v hmem => hno v (List.mem_cons_of_mem _ hmem)]
      refine hothers name fun hp => hno p.2 ?_
      rw [← hp]
      exact List.mem_cons_self

/-- A table that changes its sizes fills one that has no names. -/
private theorem exists_resize_eq (t : Table) (size others : Nat) :
    ∃ u : Table, u.Indexed ∧ (∀ name, u.held? name = none) ∧
      t.resize size others = t.nodes.toList.foldl fill u := by
  refine ⟨_, ?_, ?_, Array.foldl_toList _ |>.symm⟩
  · refine List.foldlRecOn _ _ (fun name place => by simp) fun u hu p _ => ?_
    exact hu.push _ (by simp)
  · intro name
    refine (List.foldlRecOn (motive := fun u : Table => u.Indexed ∧ u.held? name = none) _ _
      ⟨fun name place => by simp, by simp [held?]⟩ fun u hu p _ => ?_).2
    refine ⟨hu.1.push _ (by simp), ?_⟩
    rw [hu.1.held?_push, if_neg (by simp)]
    exact hu.2

/-- A table that changes its sizes keeps its names. -/
theorem Indexed.resize (ht : t.Indexed) (size others : Nat) :
    (t.resize size others).Indexed ∧
      (∀ name, (t.resize size others).get (.string name) = t.get (.string name)) ∧
      ∀ name, t.held? name = none → (t.resize size others).held? name = none := by
  obtain ⟨u, hu, hnone, heq⟩ := t.exists_resize_eq size others
  rw [heq]
  obtain ⟨hi, hget, hother⟩ := foldl_fill hu ht.apart fun _ _ name _ => hnone name
  have habsent (name : Bytes) (hn : t.held? name = none) : ∀ v, (Key.string name, v) ∉ t.nodes.toList := by
    intro v hmem
    rw [(ht.held?_eq_some_iff name v).mpr (Array.mem_toList_iff.mp hmem)] at hn
    cases hn
  refine ⟨hi, fun name => ?_, fun name hn => (hother name (habsent name hn)).trans (hnone name)⟩
  rw [t.get_string]
  cases hn : t.held? name with
  | none => rw [get_string, hother name (habsent name hn), hnone]
  | some v => exact hget name v (Array.mem_toList_iff.mpr ((ht.held?_eq_some_iff name v).mp hn))

/-- The value of a name can be changed where it is. -/
theorem Indexed.put (ht : t.Indexed) {name : Bytes} {place : Nat}
    (hp : t.places[Key.string name]? = some place) (v : Value) :
    let u : Table := { t with nodes := t.nodes.set! place (.string name, v) }
    u.Indexed ∧ ∀ name', u.held? name' = if name' = name then some v else t.held? name' := by
  have hlt := ht.place_lt hp
  obtain ⟨old, hold⟩ := (ht name place).mp hp
  have hnodes (i : Nat) : (t.nodes.set! place (.string name, v))[i]? =
      if place = i then some (.string name, v) else t.nodes[i]? := by
    rw [Array.set!_eq_setIfInBounds, Array.getElem?_setIfInBounds]
    simp [hlt]
  constructor
  · intro name' i
    rw [ht name' i]
    dsimp only
    rw [hnodes]
    by_cases hi : place = i
    · rw [if_pos hi, ← hi, hold]
      simp
    · rw [if_neg hi]
  · intro name'
    simp only [held?, hnodes]
    by_cases hn : name' = name
    · rw [if_pos hn, hn, hp]
      simp
    · rw [if_neg hn]
      cases hp' : t.places[Key.string name']? with
      | none => rfl
      | some i =>
        have hi : place ≠ i := by
          rintro rfl
          obtain ⟨v', hv'⟩ := (ht name' place).mp hp'
          rw [hold] at hv'
          cases hv'
          exact hn rfl
        rw [Option.bind_some, Option.bind_some, if_neg hi]

theorem Indexed.push_name (ht : t.Indexed) {name : Bytes} (hn : t.held? name = none) (v : Value) :
    (t.push (.string name) v).Indexed ∧
      ∀ name', (t.push (.string name) v).get (.string name') =
        if name' = name then v else t.get (.string name') := by
  refine ⟨ht.push v fun name' hname => ?_, fun name' => ?_⟩
  · cases hname
    exact hn
  · rw [get_string, ht.held?_push]
    by_cases h : name' = name
    · rw [if_pos h, if_pos (by rw [h])]
      rfl
    · rw [if_neg h, if_neg fun hk => h (Key.string.inj hk).symm, get_string]

/-- A name has the value that it was given last, and no other name changes. -/
theorem Indexed.set (ht : t.Indexed) (name : Bytes) (v : Value) :
    (t.set (.string name) v).Indexed ∧
      ∀ name', (t.set (.string name) v).get (.string name') =
        if name' = name then v else t.get (.string name') := by
  unfold Table.set
  simp only [listPlace?]
  split
  · next place hp =>
    obtain ⟨hi, hheld⟩ := ht.put hp v
    refine ⟨hi, fun name' => ?_⟩
    rw [get_string, hheld]
    split
    · rfl
    · rw [get_string]
  · next hp =>
    have hn := (ht.held?_eq_none_iff name).mpr hp
    split
    · next hv =>
      refine ⟨ht, fun name' => ?_⟩
      split
      · next h =>
        rw [h, get_string, hn]
        cases v with
        | nil => rfl
        | _ => cases hv
      · rfl
    · split
      · exact ht.push_name hn v
      · obtain ⟨hi, hget, hnone⟩ : (t.grow (.string name)).Indexed ∧
            (∀ name', (t.grow (.string name)).get (.string name') = t.get (.string name')) ∧
            ∀ name', t.held? name' = none → (t.grow (.string name)).held? name' = none := ht.resize _ _
        obtain ⟨hpushed, hvalue⟩ := hi.push_name (hnone name hn) v
        rw [place_string]
        refine ⟨hpushed, fun name' => ?_⟩
        rw [hvalue, hget]

theorem Indexed.setName (ht : t.Indexed) (name : String) (v : Value) : (t.setName name v).Indexed :=
  (ht.set _ v).1

theorem Indexed.getName_setName (ht : t.Indexed) (name name' : String) (v : Value) :
    (t.setName name v).getName name' = if name' = name then v else t.getName name' := by
  unfold Table.setName Table.getName
  rw [(ht.set _ v).2]
  simp only [String.toUTF8_eq_toByteArray, String.toByteArray_inj]

theorem indexed_withCapacity (capacity : Nat) : ({ capacity } : Table).Indexed := by
  intro name place
  simp

/-- The index leads each key to a place where it is. -/
def Finds (t : Table) : Prop :=
  ∀ (key : Key) (place : Nat), t.places[key]? = some place → ∃ v, t.nodes[place]? = some (key, v)

/-- The index leads all keys to their places, and finds names exactly there. -/
structure Searchable (t : Table) : Prop where
  indexed : t.Indexed
  finds : t.Finds

theorem searchable_withCapacity (capacity : Nat) : ({ capacity } : Table).Searchable :=
  ⟨indexed_withCapacity capacity, fun key place hp => by simp at hp⟩

namespace Searchable

/-- The list and the sizes do not count. -/
theorem of_eq {u : Table} (ht : t.Searchable) (hnodes : u.nodes = t.nodes) (hplaces : u.places = t.places) :
    u.Searchable := by
  obtain ⟨list, nodes, places, capacity, hint, metatable⟩ := u
  cases hnodes
  cases hplaces
  exact ⟨ht.indexed, ht.finds⟩

/-- Keys that are found stay where they are when one is added. -/
private theorem finds_push (hfinds : t.Finds) (key : Key) (v : Value) : (t.push key v).Finds := by
  intro key' place hp
  rw [places_push] at hp
  rw [nodes_push]
  split at hp
  · next hk =>
    cases hp
    exact ⟨v, by rw [if_pos rfl, hk]⟩
  · obtain ⟨v', hv'⟩ := hfinds key' place hp
    have hlt : place < t.nodes.size := (Array.getElem?_eq_some_iff.mp hv').1
    exact ⟨v', by rw [if_neg (by omega), hv']⟩

/-- A key that is not a name yet may be added. -/
theorem push (ht : t.Searchable) {key : Key} (v : Value)
    (hfresh : ∀ name, key = .string name → t.held? name = none) : (t.push key v).Searchable :=
  ⟨ht.indexed.push v hfresh, finds_push ht.finds key v⟩

theorem place (ht : t.Searchable) {key : Key} (v : Value)
    (hfresh : ∀ name, key = .string name → t.held? name = none) : (t.place key v).Searchable := by
  unfold Table.place
  split
  · exact ht.of_eq rfl rfl
  · exact ht.push v hfresh

theorem resize (ht : t.Searchable) (size others : Nat) : (t.resize size others).Searchable := by
  refine ⟨(ht.indexed.resize size others).1, ?_⟩
  unfold Table.resize
  rw [← Array.foldl_toList]
  refine List.foldlRecOn _ _ (List.foldlRecOn _ _ ?_ fun u hu a _ => finds_push hu _ _) fun u hu a _ => ?_
  · intro key place hp
    simp at hp
  · dsimp only
    split
    · exact hu
    · unfold Table.place
      split
      · exact hu
      · exact finds_push hu _ _

/-- The value of a key that is not a name changes where it is. -/
private theorem put (ht : t.Searchable) {key : Key} {place : Nat} (hp : t.places[key]? = some place) (v : Value) :
    ({ t with nodes := t.nodes.set! place (key, v) } : Table).Searchable := by
  obtain ⟨old, hold⟩ := ht.finds key place hp
  have hlt : place < t.nodes.size := (Array.getElem?_eq_some_iff.mp hold).1
  have hnodes (i : Nat) : (t.nodes.set! place (key, v))[i]? = if place = i then some (key, v) else t.nodes[i]? := by
    rw [Array.set!_eq_setIfInBounds, Array.getElem?_setIfInBounds]
    simp [hlt]
  constructor
  · intro name i
    rw [ht.indexed name i]
    dsimp only
    rw [hnodes]
    by_cases hi : place = i
    · rw [if_pos hi, ← hi, hold]
      simp
    · rw [if_neg hi]
  · intro key' i hi
    obtain ⟨v', hv'⟩ := ht.finds key' i hi
    dsimp only
    rw [hnodes]
    by_cases hpi : place = i
    · rw [← hpi, hold] at hv'
      cases hv'
      exact ⟨v, if_pos hpi⟩
    · exact ⟨v', by rw [if_neg hpi, hv']⟩

/-- Whatever is set under whatever key, all keys can be found. -/
theorem set (ht : t.Searchable) (key : Key) (v : Value) : (t.set key v).Searchable := by
  unfold Table.set
  split
  · exact ht.of_eq rfl rfl
  · split
    · next place hp => exact ht.put hp v
    · next hp =>
      have hfresh (name : Bytes) (hk : key = .string name) : t.held? name = none :=
        (ht.indexed.held?_eq_none_iff name).mpr (hk ▸ hp)
      split
      · exact ht
      · split
        · exact ht.push v hfresh
        · have hresized (size others : Nat) : ((t.resize size others).place key v).Searchable :=
            (ht.resize size others).place v fun name hk => (ht.indexed.resize size others).2.2 name (hfresh name hk)
          exact hresized _ _

theorem setList (ht : t.Searchable) (start : Nat) (values : List Value) : (t.setList start values).Searchable := by
  unfold Table.setList
  refine List.foldlRecOn _ _ ?_ fun u hu a _ => hu.of_eq rfl rfl
  split
  · exact ht.resize _ _
  · exact ht

end Searchable
end Table

theorem indexed_tableOf (entries : Entries) : (tableOf entries).Indexed :=
  List.foldlRecOn _ _ (Table.indexed_withCapacity 0) fun _ hu entry _ => hu.setName entry.1 entry.2

end ScriptHost.Lua
