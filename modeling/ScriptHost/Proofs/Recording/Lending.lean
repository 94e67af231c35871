import ScriptHost.Proofs.Recording.Store
/-! The memory of records after a session. No call fails, because every call gives its cell back. Through every handle
it shows the list of the family, and the lists that callers have got stay as they are. -/
namespace ScriptHost

namespace ReportMemory
variable {memory : ReportMemory} {handle : RecordHandle} {cell : ReportCell}

/-- A cell that is lent out as it was is as it was. -/
theorem lent_self (hc : memory.cells[handle.place]? = some cell) {loan : Int} (hl : cell.loan = loan) :
    memory.lent handle loan = memory := by
  obtain ⟨hin, hcell⟩ := Array.getElem?_eq_some_iff.mp hc
  have hcells : memory.cells.modify handle.place ({ · with loan }) = memory.cells := by
    apply Array.ext
    · exact Array.size_modify
    · intro place hplace hplace'
      rw [Array.getElem_modify]
      split
      · next hsame =>
        subst hsame
        rw [hcell, ← hl]
      · rfl
  rw [lent, hcells]

theorem lent_lent (loan loan' : Int) : (memory.lent handle loan).lent handle loan' = memory.lent handle loan' := by
  have hcells : (memory.cells.modify handle.place ({ · with loan })).modify handle.place ({ · with loan := loan' }) =
      memory.cells.modify handle.place ({ · with loan := loan' }) := by
    apply Array.ext
    · simp
    · intro place hplace hplace'
      simp only [Array.getElem_modify]
      split <;> rfl
  simp only [lent, hcells]

theorem cell_lent (hc : memory.cells[handle.place]? = some cell) (loan : Int) :
    (memory.lent handle loan).cells[handle.place]? = some { cell with loan } := by
  rw [lent, Array.getElem?_modify, if_pos rfl, hc, Option.map_some]

/-- The memory with a new cell, which has a new list. -/
def withRecord (memory : ReportMemory) : ReportMemory :=
  { memory with
    cells := memory.cells.push { contents := memory.lists.size }
    lists := memory.lists.push #[] }

theorem create_eq (memory : ReportMemory) :
    RecordWork.create memory = .ok (⟨memory.cells.size⟩, memory.withRecord) := rfl

theorem cell_withRecord {place : Nat} (hc : memory.withRecord.cells[place]? = some cell) :
    memory.cells[place]? = some cell ∨ place = memory.cells.size ∧ cell = { contents := memory.lists.size } := by
  rw [withRecord, Array.getElem?_push] at hc
  split at hc
  · next hnew =>
    cases hc
    exact .inr ⟨hnew, rfl⟩
  · exact .inl hc

/-- Memory that has the records of a store. None of its cells is lent out, and no two of them have one list. -/
structure Holds (memory : ReportMemory) (store : RecordStore) : Prop where
  size : memory.cells.size = store.records.size
  free : ∀ (place : Nat) (cell : ReportCell), memory.cells[place]? = some cell → cell.loan = 0
  record : ∀ (place : Nat) (cell : ReportCell), memory.cells[place]? = some cell →
    memory.lists[cell.contents]? = store.records[place]?
  apart : ∀ (place place' : Nat) (cell cell' : ReportCell), memory.cells[place]? = some cell →
    memory.cells[place']? = some cell' → cell.contents = cell'.contents → place = place'

namespace Holds
variable {store : RecordStore} (holds : memory.Holds store)
include holds

theorem exists_cell (hin : handle.place < store.records.size) :
    ∃ cell, memory.cells[handle.place]? = some cell ∧ cell.loan = 0 := by
  rw [← holds.size] at hin
  exact ⟨_, Array.getElem?_eq_getElem hin, holds.free _ _ (Array.getElem?_eq_getElem hin)⟩

theorem contents_lt {place : Nat} {cell : ReportCell} (hc : memory.cells[place]? = some cell) :
    cell.contents < memory.lists.size := by
  obtain ⟨hin, -⟩ := Array.getElem?_eq_some_iff.mp hc
  rw [holds.size] at hin
  exact (Array.getElem?_eq_some_iff.mp ((holds.record place cell hc).trans (Array.getElem?_eq_getElem hin))).1

theorem list_eq (hc : memory.cells[handle.place]? = some cell) :
    (memory.list cell.contents).toList = store.entries handle := by
  rw [list, holds.record _ _ hc, RecordStore.entries]

/-- A change of the list of one cell is a change of one record. -/
theorem modify (hc : memory.cells[handle.place]? = some cell) (change : Array Diagnostic → Array Diagnostic) :
    Holds { memory with lists := memory.lists.modify cell.contents change }
      ⟨store.records.modify handle.place change⟩ where
  size := holds.size.trans Array.size_modify.symm
  free := holds.free
  record place cell' hc' := by
    rw [Array.getElem?_modify, Array.getElem?_modify, holds.record place cell' hc']
    by_cases hplace : handle.place = place
    · subst hplace
      obtain rfl : cell = cell' := Option.some.inj (hc.symm.trans hc')
      rw [if_pos rfl, if_pos rfl]
    · have hcontents : cell.contents ≠ cell'.contents := fun hsame => hplace (holds.apart _ _ _ _ hc hc' hsame)
      rw [if_neg hplace, if_neg hcontents]
  apart := holds.apart

/-- A list for a caller is in no cell. -/
theorem addList (list : Array Diagnostic) : (memory.addList list).2.Holds store where
  size := holds.size
  free := holds.free
  record place cell hc := by
    have hcontents := holds.contents_lt hc
    change (memory.lists.push list)[cell.contents]? = _
    rw [Array.getElem?_push, if_neg (Nat.ne_of_lt hcontents), holds.record place cell hc]
  apart := holds.apart

/-- A new cell is a new record. -/
theorem withRecord : memory.withRecord.Holds store.create.2 where
  size := by
    rw [RecordStore.size_create, ← holds.size]
    exact Array.size_push _
  free place cell hc := by
    rcases cell_withRecord hc with hold | ⟨-, rfl⟩
    · exact holds.free place cell hold
    · rfl
  record place cell hc := by
    change (memory.lists.push #[])[cell.contents]? = (store.records.push #[])[place]?
    rw [Array.getElem?_push, Array.getElem?_push, ← holds.size]
    rcases cell_withRecord hc with hold | ⟨rfl, rfl⟩
    · obtain ⟨hin, -⟩ := Array.getElem?_eq_some_iff.mp hold
      rw [if_neg (Nat.ne_of_lt (holds.contents_lt hold)), if_neg (Nat.ne_of_lt hin), holds.record place cell hold]
    · rw [if_pos rfl, if_pos rfl]
  apart place place' cell cell' hc hc' hsame := by
    rcases cell_withRecord hc with hold | ⟨rfl, rfl⟩ <;> rcases cell_withRecord hc' with hold' | ⟨rfl, rfl⟩
    · exact holds.apart place place' cell cell' hold hold' hsame
    · exact absurd hsame (Nat.ne_of_lt (holds.contents_lt hold))
    · exact absurd hsame.symm (Nat.ne_of_lt (holds.contents_lt hold'))
    · rfl

end Holds

/-- Whether a list belongs to a caller. -/
def Owned (memory : ReportMemory) (place : Nat) : Prop :=
  place < memory.lists.size ∧ ∀ cell ∈ memory.cells, cell.contents ≠ place

/-- Whether the lists that belong to callers still do and are as they were. -/
def Keeps (memory memory' : ReportMemory) : Prop :=
  ∀ place, memory.Owned place → memory'.Owned place ∧ memory'.list place = memory.list place

/-- Whether a list that a call has returned belongs to its caller. -/
def OwnsReply (memory : ReportMemory) : RecordReply → Prop
  | .list place => memory.Owned place
  | _ => True

namespace Keeps

theorem refl (memory : ReportMemory) : memory.Keeps memory := fun _ howned => ⟨howned, rfl⟩

theorem trans {memory₁ memory₂ memory₃ : ReportMemory} (h₁ : memory₁.Keeps memory₂) (h₂ : memory₂.Keeps memory₃) :
    memory₁.Keeps memory₃ := by
  intro place howned
  obtain ⟨howned₂, hlist₂⟩ := h₁ place howned
  obtain ⟨howned₃, hlist₃⟩ := h₂ place howned₂
  exact ⟨howned₃, hlist₃.trans hlist₂⟩

theorem modify (hc : memory.cells[handle.place]? = some cell) (change : Array Diagnostic → Array Diagnostic) :
    memory.Keeps { memory with lists := memory.lists.modify cell.contents change } := by
  intro place ⟨hin, hfree⟩
  have hother : cell.contents ≠ place := hfree cell (Array.mem_of_getElem? hc)
  refine ⟨⟨Nat.lt_of_lt_of_eq hin Array.size_modify.symm, hfree⟩, ?_⟩
  rw [list, list, Array.getElem?_modify, if_neg hother]

theorem addList (list : Array Diagnostic) : memory.Keeps (memory.addList list).2 := by
  intro place ⟨hin, hfree⟩
  refine ⟨⟨Nat.lt_of_lt_of_eq (Nat.lt_succ_of_lt hin) (Array.size_push _).symm, hfree⟩, ?_⟩
  change ((memory.lists.push list)[place]?).getD #[] = _
  rw [Array.getElem?_push, if_neg (Nat.ne_of_lt hin), ReportMemory.list]

theorem withRecord (memory : ReportMemory) : memory.Keeps memory.withRecord := by
  intro place ⟨hin, hfree⟩
  refine ⟨⟨Nat.lt_of_lt_of_eq (Nat.lt_succ_of_lt hin) (Array.size_push _).symm, fun cell hcell => ?_⟩, ?_⟩
  · rcases Array.mem_push.mp hcell with hold | rfl
    · exact hfree cell hold
    · exact (Nat.ne_of_lt hin).symm
  · change ((memory.lists.push #[])[place]?).getD #[] = _
    rw [Array.getElem?_push, if_neg (Nat.ne_of_lt hin), ReportMemory.list]

/-- What a caller sees of a reply does not change. -/
theorem view_eq {memory' : ReportMemory} (hkeeps : memory.Keeps memory') {reply : RecordReply}
    (howns : memory.OwnsReply reply) : memory'.view reply = memory.view reply := by
  cases reply with
  | list place => exact congrArg (fun list => RecordView.reports list.toList) (hkeeps place howns).2
  | _ => rfl

end Keeps
end ReportMemory

namespace RecordWork
open ReportMemory
variable {memory memory' : ReportMemory} {handle : RecordHandle} {cell : ReportCell} {α β : Type}

theorem bind_eq {work : RecordWork α} {next : α → RecordWork β} {a : α} (h : work memory = .ok (a, memory')) :
    (work >>= next) memory = next a memory' := by
  change (work memory >>= fun p => next p.1 p.2) = _
  rw [h]
  rfl

theorem return_eq {work : RecordWork α} (f : α → β) {a : α} (h : work memory = .ok (a, memory')) :
    (work >>= fun a => pure (f a)) memory = .ok (f a, memory') :=
  bind_eq h

theorem cell_eq (hc : memory.cells[handle.place]? = some cell) :
    RecordWork.cell handle memory = .ok (cell, memory) := by
  have hget : (get : RecordWork ReportMemory) memory = .ok (memory, memory) := rfl
  rw [RecordWork.cell, bind_eq hget, hc]
  rfl

theorem takeFromReader_eq (hc : memory.cells[handle.place]? = some cell) :
    takeFromReader handle memory = .ok ((), memory.lent handle (cell.loan - 1)) := by
  rw [takeFromReader, bind_eq (cell_eq hc)]
  rfl

theorem takeFromWriter_eq (hc : memory.cells[handle.place]? = some cell) :
    takeFromWriter handle memory = .ok ((), memory.lent handle (cell.loan + 1)) := by
  rw [takeFromWriter, bind_eq (cell_eq hc)]
  rfl

section Loans
variable (hc : memory.cells[handle.place]? = some cell) (hfree : cell.loan = 0)
include hc hfree

theorem lendToReader_eq : lendToReader handle memory = .ok (cell, memory.lent handle 1) := by
  rw [lendToReader, bind_eq (cell_eq hc), hfree]
  rfl

theorem lendToWriter_eq : lendToWriter handle memory = .ok (cell, memory.lent handle (-1)) := by
  rw [lendToWriter, bind_eq (cell_eq hc), hfree]
  rfl

/-- Taking back a cell that was not lent out before leaves the cells as they were. -/
theorem lent_back (loan : Int) (lists : Array (Array Diagnostic)) :
    ({ memory.lent handle loan with lists } : ReportMemory).lent handle 0 = { memory with lists } := by
  have hback : (memory.lent handle loan).lent handle 0 = memory := by rw [lent_lent, lent_self hc hfree]
  exact congrArg (fun m : ReportMemory => { m with lists }) hback

/-- A reader gives the cell back. -/
theorem reading_eq {use : Array Diagnostic → RecordWork α} {a : α} {lists : Array (Array Diagnostic)}
    (huse : use (memory.list cell.contents) (memory.lent handle 1) = .ok (a, { memory.lent handle 1 with lists })) :
    reading handle use memory = .ok (a, { memory with lists }) := by
  have hget : (get : RecordWork ReportMemory) (memory.lent handle 1) =
      .ok (memory.lent handle 1, memory.lent handle 1) := rfl
  have hlent : ({ memory.lent handle 1 with lists } : ReportMemory).cells[handle.place]? =
      some { cell with loan := 1 } := cell_lent hc 1
  rw [reading, bind_eq (lendToReader_eq hc hfree), bind_eq hget]
  refine (bind_eq huse).trans ?_
  rw [bind_eq (takeFromReader_eq hlent)]
  exact congrArg (fun m => Except.ok (a, m)) (lent_back hc hfree 1 lists)

theorem reading_pure (f : Array Diagnostic → α) :
    reading handle (fun list => pure (f list)) memory = .ok (f (memory.list cell.contents), memory) :=
  reading_eq hc hfree rfl

/-- A reader that copies the reports leaves a list behind, and its place is the first that was free. -/
theorem reading_addList :
    reading handle (fun list => modifyGet (·.addList list)) memory =
      .ok (memory.addList (memory.list cell.contents)) :=
  reading_eq hc hfree rfl

/-- A writer gives the cell back, and the list of the cell is changed. -/
theorem writing_eq (change : Array Diagnostic → Array Diagnostic) :
    writing handle change memory = .ok ((), { memory with lists := memory.lists.modify cell.contents change }) := by
  let lists := memory.lists.modify cell.contents change
  have hmodify : (modify fun memory : ReportMemory =>
      { memory with lists := memory.lists.modify cell.contents change } : RecordWork PUnit) (memory.lent handle (-1)) =
      .ok ((), { memory.lent handle (-1) with lists }) := rfl
  have hlent : ({ memory.lent handle (-1) with lists } : ReportMemory).cells[handle.place]? =
      some { cell with loan := -1 } := cell_lent hc (-1)
  rw [writing, bind_eq (lendToWriter_eq hc hfree), bind_eq hmodify, takeFromWriter_eq hlent]
  exact congrArg (fun m => Except.ok ((), m)) (lent_back hc hfree (-1) _)

end Loans

/-- What a call replies in memory that has the records of a store, and the memory after it. -/
structure Replies (memory : ReportMemory) (store : RecordStore) (handle : RecordHandle) (call : RecordCall)
    (reply : RecordReply) (memory' : ReportMemory) : Prop where
  perform : perform handle call memory = .ok (reply, memory')
  holds : memory'.Holds (call.changeStore store handle)
  view : memory'.view reply = call.seenIn store handle
  keeps : memory.Keeps memory'
  owns : memory'.OwnsReply reply

section Replies
variable {store : RecordStore} (holds : memory.Holds store)
include holds

/-- What is only looked at stays, and what is seen of it is seen in the store. -/
theorem Replies.of_reading (hc : memory.cells[handle.place]? = some cell) {call : RecordCall} {reply : RecordReply}
    (hstore : call.changeStore store handle = store)
    (hperform : RecordWork.perform handle call memory = .ok (reply, memory))
    (hview : memory.view reply = call.seen (memory.list cell.contents).toList) (howns : memory.OwnsReply reply) :
    Replies memory store handle call reply memory where
  perform := hperform
  holds := by rwa [hstore]
  view := by rw [RecordCall.seenIn_eq, ← holds.list_eq hc, hview]
  keeps := .refl memory
  owns := howns

/-- No call fails. -/
theorem exists_replies (hin : handle.place < store.records.size) (call : RecordCall) :
    ∃ reply memory', Replies memory store handle call reply memory' := by
  obtain ⟨cell, hc, hfree⟩ := holds.exists_cell hin
  cases call with
  | add report =>
    let noted : ReportMemory := { memory with log := DiagnosticSink.recording.event report :: memory.log }
    have hnoted : noted.Holds store := ⟨holds.size, holds.free, holds.record, holds.apart⟩
    have hc' : noted.cells[handle.place]? = some cell := hc
    have hnote : note (DiagnosticSink.recording.event report) memory = .ok ((), noted) := rfl
    have hperform : perform handle (.add report) memory =
        .ok (.done, { noted with lists := memory.lists.modify cell.contents (·.push report) }) := by
      rw [perform, bind_eq hnote, bind_eq (writing_eq hc' hfree _)]
      rfl
    exact ⟨_, _, hperform, hnoted.modify hc' _, rfl, Keeps.modify hc' _, trivial⟩
  | clear =>
    have hperform : perform handle .clear memory =
        .ok (.done, { memory with lists := memory.lists.modify cell.contents fun _ => #[] }) := by
      rw [perform, bind_eq (writing_eq hc hfree _)]
      rfl
    exact ⟨_, _, hperform, holds.modify hc _, rfl, .modify hc _, trivial⟩
  | length =>
    have hperform := return_eq RecordReply.count (reading_pure hc hfree Array.size)
    exact ⟨_, _, .of_reading holds hc rfl hperform rfl trivial⟩
  | isEmpty =>
    have hperform := return_eq RecordReply.truth (reading_pure hc hfree Array.isEmpty)
    exact ⟨_, _, .of_reading holds hc rfl hperform (congrArg RecordView.truth Array.isEmpty_toList.symm) trivial⟩
  | last =>
    have hperform := return_eq RecordReply.latest (reading_pure hc hfree Array.back?)
    exact ⟨_, _, .of_reading holds hc rfl hperform (congrArg RecordView.latest (Array.getLast?_toList _).symm) trivial⟩
  | entries =>
    let list := memory.list cell.contents
    have hperform := return_eq RecordReply.list (reading_addList hc hfree)
    have hlist : (memory.addList list).2.list memory.lists.size = list := by
      change ((memory.lists.push list)[memory.lists.size]?).getD #[] = list
      rw [Array.getElem?_push_size, Option.getD_some]
    refine ⟨_, _, hperform, holds.addList list, ?_, .addList list, ?_⟩
    · rw [RecordCall.seenIn_eq, ← holds.list_eq hc]
      exact congrArg (fun list => RecordView.reports list.toList) hlist
    · refine ⟨Nat.lt_of_lt_of_eq (Nat.lt_succ_self _) (Array.size_push _).symm, fun cell hcell => ?_⟩
      obtain ⟨place, hplace⟩ := Array.mem_iff_getElem?.mp hcell
      exact Nat.ne_of_lt (holds.contents_lt hplace)

end Replies
end RecordWork
end ScriptHost
