import ScriptHost.Config.Json.Number
/-! Reading a configuration from a JSON text. Sections may be objects or arrays of their fields in order,
fields that are not known are skipped, and of several things wrong the first in the text is named. -/
namespace ScriptHost.Config.Json

/-- Fails because something else was expected; the place is not known yet. -/
private def unfit {α : Type} (found : Found) (expected : Expected) : Reader α :=
  throw ⟨.unfit ("invalid type: " ++ found.describe "null" compactFloat ++ ", expected " ++
    expected.describe), none⟩

private def complain {α : Type} (text : String) : Reader α := throw ⟨.unfit text, none⟩

/-- Fails because of the value at the place, which is read as far as its kind shows. -/
def failUnfit {α : Type} (expected : Expected) : Reader α := located do
  match ← peek with
  | some 110 => skip; readWord [117, 108, 108]; unfit .null expected
  | some 116 => skip; readWord [114, 117, 101]; unfit (.boolean true) expected
  | some 102 => skip; readWord [97, 108, 115, 101]; unfit (.boolean false) expected
  | some 45 =>
    skip
    let found ← readNumber false
    unfit found expected
  | some 34 =>
    skip
    let s ← readString
    unfit (.string s) expected
  | some 91 => unfit .sequence expected
  | some 123 => unfit .map expected
  | some b =>
    if isDigit b then
      let found ← readNumber true
      unfit found expected
    else failNext .expectedValue
  | none => failNext .expectedValue

def peekValue : Reader UInt8 := do
  match ← peekToken with
  | some b => return b
  | none => failNext .endInValue

def readStringAs {α : Type} (expected : Expected) (use : String → Reader α) : Reader α := located do
  let b ← peekValue
  if b == 34 then
    skip
    let s ← readString
    use s
  else failUnfit expected

def readText : Reader String := readStringAs .string pure

def readBool : Reader Bool := located do
  match ← peekValue with
  | 116 => skip; readWord [114, 117, 101]; return true
  | 102 => skip; readWord [97, 108, 115, 101]; return false
  | _ => failUnfit .boolean

def readNull : Reader Unit := located do
  match ← peekValue with
  | 110 => skip; readWord [117, 108, 108]
  | _ => failUnfit .unit

private def endArray : Reader Unit := do
  match ← peekToken with
  | some 93 => skip
  | some 44 =>
    skip
    match ← peekToken with
    | some 93 => failNext .trailingComma
    | _ => failNext .trailingCharacters
  | some _ => failNext .trailingCharacters
  | none => failNext .endInList

def endObject : Reader Unit := do
  match ← peekToken with
  | some 125 => skip
  | some 44 => failNext .trailingComma
  | some _ => failNext .trailingCharacters
  | none => failNext .endInObject

def hasElement (first : Bool) : Reader Bool := do
  match ← peekToken with
  | none => failNext .endInList
  | some 93 => return false
  | some b =>
    if first then return true
    else if b == 44 then
      skip
      match ← peekToken with
      | some 93 => failNext .trailingComma
      | some _ => return true
      | none => failNext .endInValue
    else failNext .expectedListEnd

def hasKey (first : Bool) : Reader Bool := do
  match ← peekToken with
  | none => failNext .endInObject
  | some 125 => return false
  | some b =>
    if first then
      if b == 34 then return true else failNext .keyNotString
    else if b == 44 then
      skip
      match ← peekToken with
      | some 34 => return true
      | some 125 => failNext .trailingComma
      | some _ => failNext .keyNotString
      | none => failNext .endInValue
    else failNext .expectedObjectEnd

def readColon : Reader Unit := do
  match ← peekToken with
  | some 58 => skip
  | some _ => failNext .expectedColon
  | none => failNext .endInObject

inductive Bracket where
  | list
  | object
  deriving DecidableEq

/-- Leaves closed brackets and reads the comma before the next value inside of one. Returns the brackets
still open, innermost first; none if the value is complete. -/
def leaveBrackets : Nat → Bool → List Bracket → Reader (List Bracket)
  | 0, _, _ => return []
  | _, _, [] => return []
  | fuel + 1, afterValue, bracket :: outer => do
    match ← peekToken, bracket with
    | none, .list => failNext .endInList
    | none, .object => failNext .endInObject
    | some 93, .list => skip; leaveBrackets fuel true outer
    | some 125, .object => skip; leaveBrackets fuel true outer
    | some b, _ =>
      if afterValue then
        if b == 44 then
          skip
          return bracket :: outer
        else
          match bracket with
          | .list => failNext .expectedListEnd
          | .object => failNext .expectedObjectEnd
      else return bracket :: outer

def skipWithin : Nat → List Bracket → Reader Unit
  | 0, _ => return ()
  | fuel + 1, brackets => do
    let n ← remaining
    let opened : Option Bracket ← do
      match ← peekValue with
      | 110 => skip; readWord [117, 108, 108]; pure none
      | 116 => skip; readWord [114, 117, 101]; pure none
      | 102 => skip; readWord [97, 108, 115, 101]; pure none
      | 45 => skip; skipNumber; pure none
      | 34 => skip; skipString; pure none
      | 91 => skip; pure (some Bracket.list)
      | 123 => skip; pure (some Bracket.object)
      | b => if isDigit b then do skipNumber; pure none else failNext .expectedValue
    let left ←
      match opened with
      | some bracket => leaveBrackets (n + 1) false (bracket :: brackets)
      | none => leaveBrackets (n + 1) true brackets
    match left with
    | [] => return ()
    | .list :: _ => skipWithin fuel left
    | .object :: _ =>
      match ← peekToken with
      | some 34 => skip
      | some _ => failNext .keyNotString
      | none => failNext .endInObject
      skipString
      readColon
      skipWithin fuel left

def skipValue : Reader Unit := do
  let n ← remaining
  skipWithin (n + 1) []

/-- Reads what follows even if `reader` fails, whose failure is then the one that counts. -/
def thenAlways {α : Type} (reader : Reader α) (finish : Reader Unit) : Reader α := do
  let result ← tryCatch (Except.ok <$> reader) fun failure => return Except.error failure
  match result with
  | .ok a => finish; return a
  | .error failure =>
    tryCatch finish fun _ => return ()
    throw failure

def readSection {α : Type} (expected : Expected) (inArray inObject : Reader α) : Reader α := located do
  match ← peekValue with
  | 91 => skip; thenAlways inArray endArray
  | 123 => skip; thenAlways inObject endObject
  | _ => failUnfit expected

def element? {α : Type} (first : Bool) (reader : Reader α) : Reader (Option α) := do
  if ← hasElement first then some <$> reader else return none

/-- Reads the fields of an object one by one into a value. `field` is given the name, and tells how to
read it, or that the field is not known. Of a known field there may be one. -/
def readFields {α : Type} (field : String → α → Option (Reader α)) :
    Nat → Bool → List String → α → Reader (List String × α)
  | 0, _, seen, value => return (seen, value)
  | fuel + 1, first, seen, value => do
    if ← hasKey first then
      skip
      let name ← readString
      match field name value with
      | none =>
        readColon
        skipValue
        readFields field fuel false seen value
      | some reader =>
        if seen.contains name then complain (duplicateField name)
        else
          readColon
          let value ← reader
          readFields field fuel false (name :: seen) value
    else return (seen, value)

def fieldsOf {α : Type} (start : α) (field : String → α → Option (Reader α)) :
    Reader (List String × α) := do
  let n ← remaining
  readFields field (n + 1) true [] start

def store {α β : Type} (reader : Reader β) (put : β → α) : Option (Reader α) :=
  some (put <$> reader)

def readLibraries : Reader Libraries :=
  readSection .libraries
    (do
      let start : Libraries := {}
      let some math ← element? true readBool | return start
      let some string ← element? false readBool | return { start with math }
      let some table ← element? false readBool | return { start with math, string }
      let some utf8 ← element? false readBool | return { start with math, string, table }
      return { math, string, table, utf8 })
    (Prod.snd <$> fieldsOf {} fun name libraries =>
      match name with
      | "math" => store readBool fun on => { libraries with math := on }
      | "string" => store readBool fun on => { libraries with string := on }
      | "table" => store readBool fun on => { libraries with table := on }
      | "utf8" => store readBool fun on => { libraries with utf8 := on }
      | _ => none)

def levelNamed (name : String) : Reader LogLevel :=
  match LogLevel.ofName? name with
  | some level => return level
  | none => complain (unknownLevel name)

/-- A level: its name, or an object that has the name as its only key. -/
def readLevel : Reader LogLevel := do
  match ← peekToken with
  | some 123 =>
    skip
    let level ← readStringAs .variantName levelNamed
    readColon
    readNull
    match ← peekToken with
    | some 125 => skip; return level
    | some _ => failHere .expectedValue
    | none => failHere .endInObject
  | some 34 => readStringAs .variantName levelNamed
  | some _ => failNext .expectedValue
  | none => failNext .endInValue

def readLogging : Reader LogLevel :=
  readSection .logging
    (do
      let some level ← element? true readLevel | complain emptyLogging
      return level)
    (do
      let (_, level?) ← fieldsOf (none : Option LogLevel) fun name _ =>
        match name with
        | "level" => store readLevel some
        | _ => none
      match level? with
      | some level => return level
      | none => complain (missingField "level"))

def readConfig : Reader Config :=
  readSection .config
    (do
      let start : Config := {}
      let some chunkName ← element? true readText | return start
      let some errorTag ← element? false readText | return { start with chunkName }
      let some libraries ← element? false readLibraries | return { start with chunkName, errorTag }
      let some prepareExpressions ← element? false readBool
        | return { start with chunkName, errorTag, libraries }
      let some logLevel ← element? false readLogging
        | return { start with chunkName, errorTag, libraries, prepareExpressions }
      return { chunkName, errorTag, libraries, prepareExpressions, logLevel })
    (Prod.snd <$> fieldsOf {} fun name config =>
      match name with
      | "chunk_name" => store readText fun s => { config with chunkName := s }
      | "error_tag" => store readText fun s => { config with errorTag := s }
      | "libraries" => store readLibraries fun l => { config with libraries := l }
      | "prepare_expressions" => store readBool fun b => { config with prepareExpressions := b }
      | "logging" => store readLogging fun l => { config with logLevel := l }
      | _ => none)

def parse {α : Type} (reader : Reader α) (text : String) : Except String α :=
  let whole : Reader α := do
    let value ← reader
    match ← peekToken with
    | some _ => failNext .trailingCharacters
    | none => return value
  match whole.run.run { text := text.toUTF8 } with
  | (.ok value, _) => .ok value
  | (.error failure, _) => .error failure.message

end ScriptHost.Config.Json

namespace ScriptHost

def Config.ofJson (text : String) : Except ConfigError Config :=
  (Config.Json.parse Config.Json.readConfig text).mapError .parse

def Libraries.ofJson (text : String) : Except ConfigError Libraries :=
  (Config.Json.parse Config.Json.readLibraries text).mapError .parse

end ScriptHost
