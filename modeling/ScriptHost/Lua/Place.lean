import ScriptHost.Lua.ChunkName
import ScriptHost.Lua.Frame
/-! Where in a script something happens: the functions that are running, the lines they are at, their names,
and the messages of errors that say all this. -/
namespace ScriptHost.Lua
open Text (Bytes)

inductive Running where
  | script (place : Nat) (proto : Proto) (pc : Nat) (isTail : Bool)
  | provided (place : Nat) (isTail : Bool)

namespace Running

def place : Running → Nat
  | .script place _ _ _ => place
  | .provided place _ => place

def isTail : Running → Bool
  | .script _ _ _ isTail => isTail
  | .provided _ isTail => isTail

/-- The functions that are running, the innermost first. -/
def ofFrames : List Frame → List Running
  | [] => []
  | .script f :: rest => .script f.place f.proto f.pc f.isTail :: ofFrames rest
  | .task t :: rest =>
    match t.function with
    | some place => .provided place t.isTail :: ofFrames rest
    | none => ofFrames rest

def position : Running → Bytes
  | .script _ proto pc _ =>
    shownName proto.source ++ (":" ++ toString (proto.lines[pc]?.getD 0) ++ ": ").toUTF8
  | .provided _ _ => ByteArray.empty

def eventName : Instr → Option String
  | .index _ _ _ | .lookup _ _ _ => some "index"
  | .setIndex _ _ _ => some "newindex"
  | .arith op _ _ _ => some (String.ofList ((Operation.arithEvent op).toList.drop 2))
  | .unary .negate _ _ => some "unm"
  | .unary .complement _ _ => some "bnot"
  | .unary .length _ _ => some "len"
  | .concat _ _ _ => some "concat"
  | .compare op _ _ _ _ | .jumpCompare op _ _ _ _ =>
    match op with
    | .equal => some "eq"
    | .less => some "lt"
    | .lessEqual => some "le"
  | .close _ | .leave _ _ | .ret _ _ => some "close"
  | _ => none

def calleeName : Running → Option (String × Bytes)
  | .provided _ _ => none
  | .script _ proto pc _ =>
    match proto.code[pc]? with
    | some (.call _ _ _) | some (.tailCall _ _) =>
      match proto.names[pc]? with
      | some (some name :: _) => some name.parts
      | _ => none
    | some (.callGeneric _ _) => some ("for iterator", "for iterator".toUTF8)
    | some instr => (eventName instr).map fun e => ("metamethod", e.toUTF8)
    | none => none

def calledAs (running : Running) (callers : List Running) : Option (String × Bytes) :=
  if running.isTail then none else callers.head?.bind calleeName

end Running

def World.libraryName? (w : World) (place : Nat) : Option Bytes :=
  w.loaded.findSome? fun (library, tablePlace) =>
    let t := w.table tablePlace
    let entry := t.nodes.find? fun (_, v) =>
      match v with
      | .function p => p == place
      | _ => false
    match entry with
    | some (.string name, _) =>
      if library == "_G".toUTF8 then some name else some (library ++ ".".toUTF8 ++ name)
    | _ => none

namespace Running

def description (w : World) (running : Running) (callers : List Running) : Bytes :=
  let quote (s : Bytes) : Bytes := "'".toUTF8 ++ s ++ "'".toUTF8
  match w.libraryName? running.place with
  | some name => "function ".toUTF8 ++ quote name
  | none =>
    match running.calledAs callers with
    | some (kind, name) => (kind ++ " ").toUTF8 ++ quote name
    | none =>
      match running with
      | .script _ proto _ _ =>
        if proto.isMain then "main chunk".toUTF8
        else
          "function <".toUTF8 ++ shownName proto.source ++ s!":{proto.lineDefined}>".toUTF8
      | .provided _ _ => "?".toUTF8

def tracebackLine (w : World) (running : Running) (callers : List Running) : Bytes :=
  let where_ := match running with
    | .script _ proto pc _ =>
      shownName proto.source ++
        (match proto.lines[pc]? with
          | some line => if line == 0 then ":".toUTF8 else s!":{line}:".toUTF8
          | none => ":".toUTF8)
    | .provided _ _ => "[C]:".toUTF8
  "\n\t".toUTF8 ++ where_ ++ " in ".toUTF8 ++ running.description w callers ++
    (if running.isTail then "\n\t(...tail calls...)".toUTF8 else ByteArray.empty)

def tracebackLines (w : World) : List Running → List Bytes
  | [] => []
  | r :: callers => r.tracebackLine w callers :: tracebackLines w callers

def shownInnermost : Nat := 10

def shownOutermost : Nat := 11

/-- The functions that are running, line by line. Of very many only the first and the last are shown. -/
def traceback (w : World) (all : List Running) : Bytes :=
  let joined (lines : List Bytes) : Bytes := lines.foldl (· ++ ·) ByteArray.empty
  let count := all.length
  let body :=
    if count ≤ shownInnermost + shownOutermost + 1 then joined (tracebackLines w all)
    else
      let skipped := count - shownInnermost - shownOutermost - 1
      let first := ((tracebackLines w (all.take (shownInnermost + 1))).take shownInnermost)
      joined first ++ s!"\n\t...\t(skipping {skipped} levels)".toUTF8 ++
        joined (tracebackLines w (all.drop (count - shownOutermost)))
  "stack traceback:".toUTF8 ++ body

/-- What a message adds about the operand of the instruction that a script is at. -/
def operandNote (all : List Running) (operand : Option Nat) : Bytes :=
  match all, operand with
  | .script _ proto pc _ :: _, some i =>
    match (proto.names[pc]?.bind (·[i]?)).join with
    | some name =>
      let (kind, text) := name.parts
      (" (" ++ kind ++ " '").toUTF8 ++ untilNul text ++ "')".toUTF8
    | none => ByteArray.empty
  | _, _ => ByteArray.empty

def calleeNote (all : List Running) : Bytes :=
  match all.head?.bind calleeName with
  | some (kind, text) => (" (" ++ kind ++ " '").toUTF8 ++ untilNul text ++ "')".toUTF8
  | none => ByteArray.empty

def positioned (all : List Running) (message : Bytes) : Raised :=
  { value := .string ((all.head?.map position).getD ByteArray.empty ++ message) }

def positionedAt (all : List Running) (level : Nat) (message : Bytes) : Raised :=
  positioned (all.drop level) message

/-- The message about an argument that is not as it has to be. The object of a method call does not count. -/
def badArgument (w : World) (all : List Running) (index : Nat) (message : Bytes) : Bytes :=
  let complaint (index : Nat) (name : Bytes) : Bytes :=
    s!"bad argument #{index} to '".toUTF8 ++ name ++ "' (".toUTF8 ++ message ++ ")".toUTF8
  match all with
  | [] => complaint index "?".toUTF8
  | r :: callers =>
    match r.calledAs callers with
    | some ("method", name) =>
      if index == 1 then
        "calling '".toUTF8 ++ name ++ "' on bad self (".toUTF8 ++ message ++ ")".toUTF8
      else complaint (index - 1) name
    | some (_, name) => complaint index name
    | none => complaint index ((w.libraryName? r.place).getD "?".toUTF8)

def raise (w : World) (all : List Running) : Fault → Raised
  | .value v => { value := v }
  | .raised message => positioned all message
  | .located level message => positionedAt all level message
  | .argument index message => positionedAt all 1 (badArgument w all index message)
  | .unsuitable action v operand =>
    positioned all (("attempt to " ++ action ++ " a ").toUTF8 ++ w.typeNameOf v ++ " value".toUTF8 ++
      operandNote all operand)
  | .notIntegral operand =>
    positioned all ("number".toUTF8 ++ operandNote all operand ++
      " has no integer representation".toUTF8)
  | .notCallable v =>
    positioned all ("attempt to call a ".toUTF8 ++ w.typeNameOf v ++ " value".toUTF8 ++
      calleeNote all)
  | .memory => { value := .string "not enough memory".toUTF8, kind := .memory }
  | .reraised raised => raised

end Running
end ScriptHost.Lua
