import ScriptHost.Config.Toml.Document
import ScriptHost.Config.Wording
/-! Reading a configuration from a TOML document. The document is read first; then its values are fitted to
the fields, in the order of their names. -/
namespace ScriptHost.Config.Toml

/-- Why a document gives no configuration. Only complaints about the kind of a value, a field that is
missing and an unknown name have a wording of their own. -/
inductive Refusal where
  | malformed
  | unfit (text : String)
  deriving DecidableEq, Repr

abbrev Fitted (α : Type) := Except Refusal α

def Value.found : Value → Found
  | .string text => .string text
  | .integer value => .integer value
  | .float value => .float value
  | .boolean value => .boolean value
  | .moment => .map
  | .array _ _ => .sequence
  | .table _ _ => .map

/-- The complaint that a value is not what was expected. Integers outside of 64 bits are named with their
width, and there are none outside of 128 bits. -/
def mismatch {α : Type} (value : Value) (expected : Expected) : Fitted α :=
  let complain := fun (found : String) =>
    Except.error (.unfit ("invalid type: " ++ found ++ ", expected " ++ expected.describe))
  match value with
  | .integer i =>
    if -(Nat.pow 2 63 : Int) ≤ i && i < Nat.pow 2 64 then complain (value.found.describe "unit value" plainFloat)
    else if -(Nat.pow 2 127 : Int) ≤ i && i < Nat.pow 2 127 then complain s!"integer `{i}` as i128"
    else if 0 ≤ i && i < Nat.pow 2 128 then complain s!"integer `{i}` as u128"
    else .error .malformed
  | _ => complain (value.found.describe "unit value" plainFloat)

def fitText : Value → Fitted String
  | .string text => .ok text
  | value => mismatch value .string

def fitBool : Value → Fitted Bool
  | .boolean b => .ok b
  | value => mismatch value .boolean

def isVoid : Value → Bool
  | .array _ items => items.isEmpty
  | .table _ entries => entries.isEmpty
  | _ => false

private def levelNamed (name : String) : Fitted LogLevel :=
  match LogLevel.ofName? name with
  | some level => .ok level
  | none => .error (.unfit (unknownLevel name))

def fitLevel : Value → Fitted LogLevel
  | .string name => levelNamed name
  | .table _ [(name, content)] => do
    let level ← levelNamed name
    if isVoid content then return level else .error .malformed
  | _ => .error .malformed

def Entries.sorted (entries : Entries) : Entries :=
  entries.mergeSort fun a b => compare a.1 b.1 != .gt

/-- Fits the entries of a table one after the other; `field` leaves what it does not know. -/
def fitFields {α : Type} (field : α → String → Value → Fitted α) (start : α) (entries : Entries) :
    Fitted α :=
  entries.sorted.foldlM (fun state entry => field state entry.1 entry.2) start

/-- Fits the items of an array to fields by their place; further items are left. -/
def fitPlaces {α : Type} : List (α → Value → Fitted α) → List Value → α → Fitted α
  | field :: fields, item :: items, state => do
    let state ← field state item
    fitPlaces fields items state
  | _, _, state => .ok state

/-- A section: an array or a table of its fields. A moment counts as a table of other fields. -/
def fitSection {α : Type} (expected : Expected) (start : α) (fields : List (String × (α → Value → Fitted α)))
    (value : Value) : Fitted α :=
  match value with
  | .array _ items => fitPlaces (fields.map (·.2)) items start
  | .table _ entries =>
    fitFields (fun state name value =>
      match fields.lookup name with
      | some field => field state value
      | none => .ok state) start entries
  | .moment => .ok start
  | _ => mismatch value expected

def fitLibraries : Value → Fitted Libraries :=
  fitSection .libraries {} [
    ("math", fun l v => return { l with math := ← fitBool v }),
    ("string", fun l v => return { l with string := ← fitBool v }),
    ("table", fun l v => return { l with table := ← fitBool v }),
    ("utf8", fun l v => return { l with utf8 := ← fitBool v })]

def fitLogging (value : Value) : Fitted LogLevel := do
  let level? ← fitSection .logging (none : Option LogLevel)
    [("level", fun _ v => return some (← fitLevel v))] value
  match level?, value with
  | some level, _ => return level
  | none, .array _ _ => .error (.unfit emptyLogging)
  | none, _ => .error (.unfit (missingField "level"))

def fitConfig : Value → Fitted Config :=
  fitSection .config {} [
    ("chunk_name", fun c v => return { c with chunkName := ← fitText v }),
    ("error_tag", fun c v => return { c with errorTag := ← fitText v }),
    ("libraries", fun c v => return { c with libraries := ← fitLibraries v }),
    ("prepare_expressions", fun c v => return { c with prepareExpressions := ← fitBool v }),
    ("logging", fun c v => return { c with logLevel := ← fitLogging v })]

def parse {α : Type} (fit : Value → Fitted α) (text : String) : Fitted α :=
  match parse? text with
  | some entries => fit (.table .headed entries)
  | none => .error .malformed

/-- The last line of a refusal's wording, if it is one of those that are told. -/
def Refusal.lastLine? : Refusal → Option String
  | .malformed => none
  | .unfit text =>
    let line := (text.splitOn "\n").getLastD ""
    if ["invalid type: ", "missing field ", "unknown variant "].any (fun start => line.startsWith start) then some line
    else none

end ScriptHost.Config.Toml

namespace ScriptHost

def Config.ofToml (text : String) : Except Config.Toml.Refusal Config :=
  Config.Toml.parse Config.Toml.fitConfig text

def Libraries.ofToml (text : String) : Except Config.Toml.Refusal Libraries :=
  Config.Toml.parse Config.Toml.fitLibraries text

end ScriptHost
