import ScriptHost.Log
/-! Reports of script errors to the user, and records of them that several handles share. -/
namespace ScriptHost

structure Diagnostic where
  message : String
  tag : String
  deriving DecidableEq, Repr

inductive DiagnosticSink where
  /-- Reports are kept, and noted in the log. -/
  | recording
  /-- Reports are errors in the log and are not kept. -/
  | logging
  deriving DecidableEq, Repr

def DiagnosticSink.event (sink : DiagnosticSink) (report : Diagnostic) : LogEvent :=
  match sink with
  | .recording => ⟨.debug, .host, report.message, [("tag", report.tag)]⟩
  | .logging => ⟨.error, .host, report.message, [("tag", report.tag)]⟩

def DiagnosticSink.kept (sink : DiagnosticSink) (report : Diagnostic) : List Diagnostic :=
  match sink with
  | .recording => [report]
  | .logging => []

/-- Records of reports, oldest first, each shared by all handles that name its place. -/
structure RecordStore where
  records : Array (Array Diagnostic) := #[]

/-- A handle on a record. A copy of a handle names the same record. -/
structure RecordHandle where
  place : Nat
  deriving DecidableEq, Repr

namespace RecordStore

def create (store : RecordStore) : RecordHandle × RecordStore :=
  (⟨store.records.size⟩, ⟨store.records.push #[]⟩)

def share (store : RecordStore) (handle : RecordHandle) : RecordHandle × RecordStore :=
  (handle, store)

def entries (store : RecordStore) (handle : RecordHandle) : List Diagnostic :=
  (store.records[handle.place]?.getD #[]).toList

def add (store : RecordStore) (handle : RecordHandle) (report : Diagnostic) : RecordStore :=
  ⟨store.records.modify handle.place (·.push report)⟩

def clear (store : RecordStore) (handle : RecordHandle) : RecordStore :=
  ⟨store.records.modify handle.place fun _ => #[]⟩

def length (store : RecordStore) (handle : RecordHandle) : Nat := (store.entries handle).length

def isEmpty (store : RecordStore) (handle : RecordHandle) : Bool := (store.entries handle).isEmpty

def last? (store : RecordStore) (handle : RecordHandle) : Option Diagnostic :=
  (store.entries handle).getLast?

end RecordStore
end ScriptHost
