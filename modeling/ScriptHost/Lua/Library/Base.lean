import ScriptHost.Lua.Chunk
import ScriptHost.Lua.Library.Description
/-! The base library. -/
namespace ScriptHost.Lua.BaseFunction
open Text (Bytes)

def valueOf (f : BaseFunction) : Value := .function (Builtin.base f).place

def nextValue : Value := valueOf .next

def ipairsStepValue : Value := valueOf .ipairsStep

/-- Raises a value as an error. A text gets the position of the function so many calls up in front. -/
def raise (v : Value) (level : Int64) : Task (List Value) :=
  match v with
  | .string message =>
    if 0 < level then Task.fail (.located level.toNatClampNeg message) else Task.fail (.value v)
  | _ => Task.fail (.value v)

def runAssert (args : List Value) : Task (List Value) := do
  let v ← Argument.any args 1
  if v.isTrue then return args
  else raise (args[1]?.getD (.ofText "assertion failed!")) 1

def collectorOptions : List String :=
  ["stop", "restart", "collect", "count", "step", "setpause", "setstepmul", "isrunning",
    "generational", "incremental"]

def setGenerational (on : Bool) (w : World) : Value × World :=
  (.ofText (if w.collector.generational then "generational" else "incremental"),
    { w with collector := { w.collector with generational := on } })

/-- Speaks to the reclaiming of memory. -/
def runCollectgarbage (args : List Value) : Task (List Value) := do
  let option ← Argument.stringOr args 1 "collect".toUTF8
  let set (change : Collector → Collector) : Task Unit :=
    Task.change fun w => { w with collector := change w.collector }
  match collectorOptions.find? fun o => o.toUTF8 == untilNul option with
  | none => Task.fail (.argument 1 ("invalid option '".toUTF8 ++ untilNul option ++ "'".toUTF8))
  | some "stop" => set fun c => { c with isRunning := false }; return [.int 0]
  | some "restart" => set fun c => { c with isRunning := true }; return [.int 0]
  | some "count" => return [.float (Numeral.ofRatio false (← Task.measure).bytes 1024)]
  | some "step" => let _ ← Argument.integerOr args 2 0; return [.bool (← Task.measure).endsRound]
  | some "setpause" =>
    let pause ← Argument.integerOr args 2 0
    let old ← Task.read (·.collector.pause)
    set fun c => { c with pause }
    return [.int old]
  | some "setstepmul" =>
    let stepMultiplier ← Argument.integerOr args 2 0
    let old ← Task.read (·.collector.stepMultiplier)
    set fun c => { c with stepMultiplier }
    return [.int old]
  | some "isrunning" => return [.bool (← Task.read (·.collector.isRunning))]
  | some "generational" => return [← Task.create (setGenerational true)]
  | some "incremental" => return [← Task.create (setGenerational false)]
  | some _ => return [.int 0]

def byteOrderMark : Bytes := ByteArray.mk #[0xef, 0xbb, 0xbf]

/-- A file as a chunk: without a mark of the byte order, and without a first line that starts with a hash. -/
def chunkOfFile (content : Bytes) : Bytes :=
  let content := if content.extract 0 3 == byteOrderMark then content.extract 3 content.size else content
  match content.data.toList with
  | 35 :: rest =>
    let rest := rest.dropWhile (· != 10)
    match rest with
    | 10 :: after => if after.head? == some Chunk.binaryMark then ⟨after.toArray⟩ else ⟨rest.toArray⟩
    | _ => ByteArray.empty
  | _ => content

def loadChunk (name text mode : Bytes) (environment : Option Value) : Task (Except Value Value) := do
  let levels := (← Task.surroundings).levels
  let written ← Task.read (·.written)
  match Chunk.read written name text mode (levelLimit - 1 - levels) with
  | .ok proto =>
    let globals ← Task.read fun w => Value.table w.globals
    let place ← Task.create (·.addChunk proto (environment.getD globals))
    return .ok (.function place)
  | .error (.malformed message) => return .error (.string message)
  | .error .nestedTooDeeply =>
    return .error (← Task.catchFault (.raised "C stack overflow".toUTF8)).value

def loadFile (path : Bytes) (mode : Bytes) (environment : Option Value) : Task (Except Value Value) := do
  let path := untilNul path
  let files ← Task.read (·.files)
  let fault (verb : String) (fault : FileTree.Fault) : Except Value Value :=
    .error (.string (("cannot " ++ verb ++ " ").toUTF8 ++ path ++ (": " ++ fault.words.1).toUTF8))
  match files.read (Text.decodeLossy path) with
  | .error .isDirectory => return fault "read" .isDirectory
  | .error f => return fault "open" f
  | .ok content => loadChunk ("@".toUTF8 ++ path) (chunkOfFile content) mode environment

/-- The file that a function of the library was asked for. Without a name there is nothing to read. -/
def loadNamed (args : List Value) (mode : Bytes) (environment : Option Value) :
    Task (Except Value Value) := do
  if Argument.isAbsent args 1 then loadChunk "=stdin".toUTF8 ByteArray.empty mode environment
  else loadFile (← Argument.string args 1) mode environment

def anyMode : Bytes := "bt".toUTF8

def loaded : Except Value Value → List Value
  | .ok f => [f]
  | .error message => [.nil, message]

def runDofile (args : List Value) : Task (List Value) := do
  match ← loadNamed args anyMode none with
  | .ok f => Task.call f []
  | .error message => Task.fail (.value message)

def runLoadfile (args : List Value) : Task (List Value) := do
  let mode ← Argument.stringOr args 2 anyMode
  return loaded (← loadNamed args mode (Argument.get? args 3))

/-- The number of pieces that a chunk may come in. -/
def pieceLimit : Nat := 1000000

/-- A chunk from a function that gives it piece by piece, up to nil or an empty piece. -/
def readPieces (reader : Value) : Nat → Bytes → Task (Except Value Bytes)
  | 0, _ => Task.fail .memory
  | fuel + 1, text => do
    match ← Task.callGuarded reader [] .outer with
    | .error raised => return .error raised.value
    | .ok results =>
      match results.headD .nil with
      | .nil => return .ok text
      | piece =>
        match piece.toBytes? with
        | none =>
          let fault := Fault.located 1 "reader function must return a string".toUTF8
          return .error (← Task.catchFault fault).value
        | some s => if s.isEmpty then return .ok text else readPieces reader fuel (text ++ s)

def runLoad (args : List Value) : Task (List Value) := do
  let mode ← Argument.stringOr args 3 anyMode
  let environment := Argument.get? args 4
  match (Argument.get args 1).toBytes? with
  | some text =>
    let name ← Argument.stringOr args 2 text
    return loaded (← loadChunk (untilNul name) text mode environment)
  | none =>
    let name ← Argument.stringOr args 2 "=(load)".toUTF8
    let reader ← Argument.function args 1
    match ← readPieces reader pieceLimit ByteArray.empty with
    | .ok text => return loaded (← loadChunk (untilNul name) text mode environment)
    | .error message => return [.nil, message]

def runGetmetatable (args : List Value) : Task (List Value) := do
  let v ← Argument.any args 1
  match v with
  | .failure _ => return [.bool false]
  | _ =>
    match ← Task.read (·.metatable? v) with
    | none => return [.nil]
    | some place =>
      match ← Task.read fun w => (w.table place).getName "__metatable" with
      | .nil => return [.table place]
      | shown => return [shown]

def runSetmetatable (args : List Value) : Task (List Value) := do
  let place ← Argument.table args 1
  let metatable ← match Argument.get? args 2 with
    | some .nil => pure none
    | some (.table m) => pure (some m)
    | _ => Argument.mismatch args 2 "nil or table"
  match ← Task.read (·.handler (.table place) "__metatable") with
  | .nil =>
    Task.change fun w => w.modifyTable place fun t => { t with metatable }
    return [.table place]
  | _ => Task.failCaller "cannot change a protected metatable"

def runNext (args : List Value) : Task (List Value) := do
  let place ← Argument.table args 1
  match ← Task.read fun w => (w.table place).next (Argument.get args 2) with
  | .entry key value => return [key, value]
  | .done => return [.nil]
  | .invalid => Task.failHere "invalid key to 'next'"

def runPairs (args : List Value) : Task (List Value) := do
  let v ← Argument.any args 1
  match ← Task.read (·.handler v "__pairs") with
  | .nil => return [nextValue, v, .nil]
  | handler =>
    let results ← Task.call handler [v]
    return [results.headD .nil, results[1]?.getD .nil, results[2]?.getD .nil]

def runIpairsStep (args : List Value) : Task (List Value) := do
  let i := (← Argument.integer args 2) + 1
  match ← Operation.index (Argument.get args 1) (.int i) none with
  | .nil => return [.nil]
  | v => return [.int i, v]

def runProtected (f : Value) (args : List Value) (handler : Handler) : Task (List Value) := do
  match ← Task.callGuarded f args handler with
  | .ok results => return .bool true :: results
  | .error raised => return [.bool false, raised.value]

/-- Shows values; the texts go nowhere. -/
def describeAll : List Value → Task Unit
  | [] => pure ()
  | v :: rest => do
    let _ ← Task.describe v
    describeAll rest

def checkTexts (args : List Value) : Nat → Nat → Task Unit
  | 0, _ => pure ()
  | count + 1, n => do
    let _ ← Argument.string args n
    checkTexts args count (n + 1)

/-- The arguments from a number on, counted from the end if it is negative. -/
def runSelect (args : List Value) : Task (List Value) := do
  let count := args.length
  let countsOnly := match Argument.get args 1 with
    | .string s => s.data.toList.head? == some 35
    | _ => false
  if countsOnly then return [.ofNat (count - 1)]
  else
    let i := (← Argument.integer args 1).toInt
    let i := if i < 0 then count + i else min i count
    Argument.require (1 ≤ i) 1 "index out of range"
    return args.drop i.toNat

def digitValue? (b : UInt8) : Option Nat :=
  if isDigit b then some (b.toNat - 48)
  else if 97 ≤ b && b ≤ 122 then some (b.toNat - 87)
  else if 65 ≤ b && b ≤ 90 then some (b.toNat - 55)
  else none

/-- The integer that a text spells in a base; it wraps around. -/
def spelled? (base : Nat) (s : Bytes) : Option Int64 :=
  let (negative, digits) := Number.splitSign (Number.trim s.data.toList)
  let values := digits.map digitValue?
  if digits.isEmpty || values.any (fun v => v.all (base ≤ ·)) then none
  else
    let n : Int := values.foldl (fun n v => n * base + v.getD 0) 0
    some (Int64.ofInt (if negative then -n else n))

def runTonumber (args : List Value) : Task (List Value) := do
  if Argument.isAbsent args 2 then
    let v ← Argument.any args 1
    return [v.toNumber?.elim .nil Value.ofNumber]
  else
    let base ← Argument.integer args 2
    match Argument.get args 1 with
    | .string s =>
      Argument.require (2 ≤ base && base ≤ 36) 2 "base out of range"
      return [(spelled? base.toNatClampNeg s).elim .nil Value.int]
    | _ => Argument.mismatch args 1 "string"

def run (f : BaseFunction) (args : List Value) : Task (List Value) := do
  match f with
  | .assert => runAssert args
  | .collectgarbage => runCollectgarbage args
  | .dofile => runDofile args
  | .error =>
    let level ← Argument.integerOr args 2 1
    raise (Argument.get args 1) level
  | .getmetatable => runGetmetatable args
  | .ipairs => return [ipairsStepValue, ← Argument.any args 1, .int 0]
  | .load => runLoad args
  | .loadfile => runLoadfile args
  | .next => runNext args
  | .pairs => runPairs args
  | .pcall =>
    let f ← Argument.any args 1
    runProtected f (args.drop 1) .none
  | .print => describeAll args; return []
  | .rawequal => return [.bool (Value.same (← Argument.any args 1) (← Argument.any args 2))]
  | .rawget =>
    let place ← Argument.table args 1
    let key ← Argument.any args 2
    return [← Task.read fun w => ((Key.ofValue? key).map (w.table place).get).getD .nil]
  | .rawlen =>
    match Argument.get args 1 with
    | .table place => return [.ofNat (← Task.read fun w => (w.table place).length)]
    | .string s => return [.ofNat s.size]
    | _ => Argument.mismatch args 1 "table or string"
  | .rawset =>
    let place ← Argument.table args 1
    let key ← Argument.any args 2
    let value ← Argument.any args 3
    Operation.rawSet place key value
    return [.table place]
  | .select => runSelect args
  | .setmetatable => runSetmetatable args
  | .tonumber => runTonumber args
  | .tostring => return [.string (← Task.describe (← Argument.any args 1))]
  | .type => return [.ofText (← Argument.any args 1).typeName]
  | .warn => checkTexts args (max args.length 1) 1; return []
  | .xpcall =>
    let handler ← Argument.function args 2
    runProtected (Argument.get args 1) (args.drop 2) (.function handler)
  | .ipairsStep => runIpairsStep args

end ScriptHost.Lua.BaseFunction
