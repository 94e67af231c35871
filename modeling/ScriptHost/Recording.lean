import ScriptHost.Diagnostics
/-! Records of reports in memory. All handles on a record share one cell, which is lent out during a call and given
back at its end. A caller that asks for the reports gets a list of its own. -/
namespace ScriptHost

/-- A cell that handles share. It has its reports in a list, which it names by its place. -/
structure ReportCell where
  contents : Nat
  /-- The number of readers that the cell is lent to; -1 if it is lent to a writer. -/
  loan : Int := 0
  deriving DecidableEq, Repr

/-- The memory of records. A list that is in no cell belongs to a caller. -/
structure ReportMemory where
  cells : Array ReportCell := #[]
  lists : Array (Array Diagnostic) := #[]
  /-- The events of the log, the latest first. -/
  log : List LogEvent := []
  deriving DecidableEq, Repr

inductive LoanFault where
  /-- There is nothing where the handle points. -/
  | noCell
  /-- The cell cannot be read while a writer has it. -/
  | lentToWriter
  /-- The cell cannot be written while anybody has it. -/
  | lentOut
  deriving DecidableEq, Repr

abbrev RecordWork (α : Type) := StateT ReportMemory (Except LoanFault) α

inductive RecordCall where
  | add (report : Diagnostic)
  | clear
  | length
  | isEmpty
  | entries
  | last
  deriving DecidableEq, Repr

inductive RecordReply where
  | done
  | count (n : Nat)
  | truth (b : Bool)
  | latest (report : Option Diagnostic)
  /-- A list in memory, by its place. -/
  | list (place : Nat)
  deriving DecidableEq, Repr

/-- What a caller sees of a reply. -/
inductive RecordView where
  | done
  | count (n : Nat)
  | truth (b : Bool)
  | latest (report : Option Diagnostic)
  | reports (list : List Diagnostic)
  deriving DecidableEq, Repr

namespace ReportMemory

def list (memory : ReportMemory) (place : Nat) : Array Diagnostic := memory.lists[place]?.getD #[]

def view (memory : ReportMemory) : RecordReply → RecordView
  | .done => .done
  | .count n => .count n
  | .truth b => .truth b
  | .latest report => .latest report
  | .list place => .reports (memory.list place).toList

def addList (memory : ReportMemory) (list : Array Diagnostic) : Nat × ReportMemory :=
  (memory.lists.size, { memory with lists := memory.lists.push list })

def lent (memory : ReportMemory) (handle : RecordHandle) (loan : Int) : ReportMemory :=
  { memory with cells := memory.cells.modify handle.place ({ · with loan }) }

end ReportMemory

namespace RecordWork

def cell (handle : RecordHandle) : RecordWork ReportCell := do
  match (← get).cells[handle.place]? with
  | some cell => return cell
  | none => throw .noCell

def lendToReader (handle : RecordHandle) : RecordWork ReportCell := do
  let cell ← cell handle
  if cell.loan < 0 then throw .lentToWriter
  modify (·.lent handle (cell.loan + 1))
  return cell

def takeFromReader (handle : RecordHandle) : RecordWork Unit := do
  let cell ← cell handle
  modify (·.lent handle (cell.loan - 1))

def lendToWriter (handle : RecordHandle) : RecordWork ReportCell := do
  let cell ← cell handle
  if cell.loan ≠ 0 then throw .lentOut
  modify (·.lent handle (-1))
  return cell

def takeFromWriter (handle : RecordHandle) : RecordWork Unit := do
  let cell ← cell handle
  modify (·.lent handle (cell.loan + 1))

def reading {α : Type} (handle : RecordHandle) (use : Array Diagnostic → RecordWork α) : RecordWork α := do
  let cell ← lendToReader handle
  let a ← use ((← get).list cell.contents)
  takeFromReader handle
  return a

def writing (handle : RecordHandle) (change : Array Diagnostic → Array Diagnostic) : RecordWork Unit := do
  let cell ← lendToWriter handle
  modify fun memory => { memory with lists := memory.lists.modify cell.contents change }
  takeFromWriter handle

def create : RecordWork RecordHandle := do
  let place ← modifyGet (·.addList #[])
  modifyGet fun memory => (⟨memory.cells.size⟩, { memory with cells := memory.cells.push { contents := place } })

def note (event : LogEvent) : RecordWork Unit := modify fun memory => { memory with log := event :: memory.log }

/-- Does what a call wants. The reports are copied for who asks for them. -/
def perform (handle : RecordHandle) : RecordCall → RecordWork RecordReply
  | .add report => do
    note (DiagnosticSink.recording.event report)
    writing handle (·.push report)
    return .done
  | .clear => do
    writing handle fun _ => #[]
    return .done
  | .length => return .count (← reading handle fun list => return list.size)
  | .isEmpty => return .truth (← reading handle fun list => return list.isEmpty)
  | .entries => return .list (← reading handle fun list => modifyGet (·.addList list))
  | .last => return .latest (← reading handle fun list => return list.back?)

end RecordWork

/-- What has been done with handles so far. They are numbered as they were obtained, and everything can be done at any
time. -/
inductive RecordSession : Nat → Type where
  | start : RecordSession 0
  /-- A handle on a new record. -/
  | create {n : Nat} (before : RecordSession n) : RecordSession (n + 1)
  /-- A copy of a handle. -/
  | share {n : Nat} (before : RecordSession n) (handle : Fin n) : RecordSession (n + 1)
  | call {n : Nat} (before : RecordSession n) (handle : Fin n) (wanted : RecordCall) : RecordSession n

def RecordSession.run : {n : Nat} → RecordSession n → Except LoanFault (Vector RecordHandle n × ReportMemory)
  | _, .start => .ok (#v[], {})
  | _, .create before => do
    let (handles, memory) ← before.run
    let (handle, memory) ← RecordWork.create memory
    return (handles.push handle, memory)
  | _, .share before handle => do
    let (handles, memory) ← before.run
    return (handles.push (handles.get handle), memory)
  | _, .call before handle wanted => do
    let (handles, memory) ← before.run
    let (_, memory) ← RecordWork.perform (handles.get handle) wanted memory
    return (handles, memory)

end ScriptHost
