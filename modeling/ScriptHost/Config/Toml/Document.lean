import ScriptHost.Config.Toml.Scalar
/-! Reading a TOML document. What is wrong with one that is refused is not told. -/
namespace ScriptHost.Config.Toml

/-- Readers take characters from the front of the text, or refuse it. -/
abbrev Reader (α : Type) := StateT (List Char) Option α

def refuse {α : Type} : Reader α := fun _ => none

def peek : Reader (Option Char) := return (← get).head?

def skip : Reader Unit := modify List.tail

def takeWhile (p : Char → Bool) : Reader (List Char) := do
  let cs ← get
  set (cs.dropWhile p)
  return cs.takeWhile p

def expect (s : List Char) : Reader Unit := do
  let cs ← get
  if s.isPrefixOf cs then set (cs.drop s.length) else refuse

def skipBlanks : Reader Unit := do let _ ← takeWhile fun c => c == ' ' || c == '\t'

def isPlain (c : Char) : Bool := c == '\t' || (' ' ≤ c && c != '\x7f')

/-- Reads a line break if there is one. -/
def lineBreak? : Reader Bool := do
  match ← get with
  | '\n' :: rest => set rest; return true
  | '\r' :: '\n' :: rest => set rest; return true
  | _ => return false

def skipComment : Reader Unit := do
  if (← peek) == some '#' then
    let _ ← takeWhile isPlain

def endLine : Reader Unit := do
  skipBlanks
  skipComment
  if (← get).isEmpty then return ()
  if ← lineBreak? then return () else refuse

def skipGaps : Nat → Reader Unit
  | 0 => return ()
  | fuel + 1 => do
    skipBlanks
    skipComment
    if ← lineBreak? then skipGaps fuel

def skipGap : Reader Unit := do skipGaps ((← get).length + 1)

def readCodePoint (count : Nat) : Reader Char := do
  let cs ← get
  let digits := (cs.take count).filterMap digit?
  if digits.length != count then refuse
  else
    let n := spell 16 digits
    if (0xD800 ≤ n && n ≤ 0xDFFF) || 0x10FFFF < n then refuse
    else
      set (cs.drop count)
      return Char.ofNat n

def readEscape : Reader Char := do
  let c ← peek
  skip
  match c with
  | some 'b' => return '\x08'
  | some 't' => return '\t'
  | some 'n' => return '\n'
  | some 'f' => return '\x0c'
  | some 'r' => return '\r'
  | some 'e' => return '\x1b'
  | some '"' => return '"'
  | some '\\' => return '\\'
  | some 'x' => readCodePoint 2
  | some 'u' => readCodePoint 4
  | some 'U' => readCodePoint 8
  | _ => refuse

/-- Reads a string on one line after its opening quote, onto characters in reverse. -/
def readBasic : Nat → List Char → Reader String
  | 0, _ => refuse
  | fuel + 1, out => do
    match ← peek with
    | some '"' => skip; return String.ofList out.reverse
    | some '\\' =>
      skip
      let c ← readEscape
      readBasic fuel (c :: out)
    | some c => if isPlain c then do skip; readBasic fuel (c :: out) else refuse
    | none => refuse

def readLiteral : Reader String := do
  let cs ← takeWhile fun c => isPlain c && c != '\''
  expect ['\'']
  return String.ofList cs

/-- Reads the quotes at a place in a string over several lines, which ends if there are three or more.
Returns the quotes that belong to the string, and whether it ended. -/
def readQuotes (quote : Char) : Reader (List Char × Bool) := do
  let quotes := ((← get).take 5).takeWhile (· == quote)
  modify (·.drop quotes.length)
  if quotes.length < 3 then return (quotes, false) else return (quotes.drop 3, true)

/-- Reads a string over several lines after its opening quotes, onto characters in reverse. A backslash at the
end of a line, where `escapes` are read, skips to the next character that is no blank. -/
def readLines (quote : Char) (escapes : Bool) : Nat → List Char → Reader String
  | 0, _ => refuse
  | fuel + 1, out => do
    if ← lineBreak? then readLines quote escapes fuel ('\n' :: out)
    else
      match ← peek with
      | none => refuse
      | some c =>
        if c == quote then
          let (kept, ended) ← readQuotes quote
          if ended then return String.ofList (kept ++ out).reverse
          else readLines quote escapes fuel (kept ++ out)
        else if c == '\\' && escapes then
          skip
          let rest ← get
          match rest.dropWhile fun c => c == ' ' || c == '\t' with
          | '\n' :: _ | '\r' :: '\n' :: _ =>
            skipBlanks
            let gap := fun c => c == ' ' || c == '\t' || c == '\n' || c == '\r'
            let skipped ← takeWhile gap
            let bareReturns := fun (cs : List Char) =>
              (cs.zip (cs.drop 1 ++ [' '])).any fun (a, b) => a == '\r' && b != '\n'
            if bareReturns skipped then refuse else readLines quote escapes fuel out
          | _ =>
            let c ← readEscape
            readLines quote escapes fuel (c :: out)
        else if isPlain c then
          skip
          readLines quote escapes fuel (c :: out)
        else refuse

def readString (overLines : Bool) : Reader String := do
  let cs ← get
  let fuel := cs.length + 1
  match cs with
  | '"' :: '"' :: '"' :: rest =>
    if overLines then
      set rest
      let _ ← lineBreak?
      readLines '"' true fuel []
    else refuse
  | '\'' :: '\'' :: '\'' :: rest =>
    if overLines then
      set rest
      let _ ← lineBreak?
      readLines '\'' false fuel []
    else refuse
  | '"' :: rest => set rest; readBasic fuel []
  | '\'' :: rest => set rest; readLiteral
  | _ => refuse

def isKeyChar (c : Char) : Bool := c.isAlphanum || c == '_' || c == '-'

def readName : Reader String := do
  match ← peek with
  | some '"' | some '\'' => readString false
  | _ =>
    let cs ← takeWhile isKeyChar
    if cs.isEmpty then refuse else return String.ofList cs

def readNames : Nat → Reader (List String)
  | 0 => refuse
  | fuel + 1 => do
    skipBlanks
    let name ← readName
    skipBlanks
    if (← peek) == some '.' then
      skip
      return name :: (← readNames fuel)
    else return [name]

def readKey : Reader (List String) := do readNames ((← get).length + 1)

def endsScalar (c : Char) : Bool :=
  c == ' ' || c == '\t' || c == '\n' || c == '\r' || c == ',' || c == ']' || c == '}' || c == '#'

/-- A value without quotes or brackets. A date may be followed by a blank and a time. -/
def readScalar : Reader Value := do
  let first ← takeWhile fun c => !endsScalar c
  let text ←
    if takeDate first == some [] then
      match ← get with
      | ' ' :: d :: _ =>
        if d.isDigit then do
          skip
          let second ← takeWhile fun c => !endsScalar c
          pure (first ++ ' ' :: second)
        else pure first
      | _ => pure first
    else pure first
  match scalar? text with
  | some value => return value
  | none => refuse

def readItems {α : Type} (close : Char) (item : α → Reader α) : Nat → α → Reader α
  | 0, _ => refuse
  | fuel + 1, state => do
    skipGap
    if (← peek) == some close then
      skip
      return state
    else
      let state ← item state
      skipGap
      match ← peek with
      | some ',' => skip; readItems close item fuel state
      | some c => if c == close then do skip; return state else refuse
      | none => refuse

/-- Makes the tables that dots opened between braces complete, too. -/
def closeTable (entries : Entries) : Value := .table .inlined entries

/-- A value. Brackets and braces nest only so deep. -/
def readValue : Nat → Reader Value
  | 0 => refuse
  | depth + 1 => do
    match ← peek with
    | some '"' | some '\'' => return .string (← readString true)
    | some '[' =>
      skip
      let fuel := (← get).length + 1
      let items ← readItems ']' (fun (out : List Value) => return (← readValue depth) :: out) fuel []
      return .array false items.reverse
    | some '\x7b' =>
      skip
      let fuel := (← get).length + 1
      let entries ← readItems '\x7d' (fun (entries : Entries) => do
        let key ← readKey
        expect ['=']
        skipBlanks
        let value ← readValue depth
        match entries.addDotted key value with
        | some entries => return entries
        | none => refuse) fuel []
      return closeTable entries
    | _ => readScalar

def depthLimit : Nat := 80

/-- A document in progress: its root, and the path of the header that is open. -/
structure Progress where
  root : Entries := []
  path : List String := []

def Progress.add (progress : Progress) (key : List String) (value : Value) : Option Progress :=
  (progress.root.alongHeader (fun entries => entries.addDotted key value) progress.path).map
    fun root => { progress with root }

def Progress.openHeader (progress : Progress) (ofArray : Bool) (path : List String) : Option Progress :=
  match path.reverse with
  | [] => none
  | key :: before =>
    let change := if ofArray then Entries.openElement key else Entries.openTable key
    (progress.root.alongHeader change before.reverse).map fun root => { root, path }

def readDocument : Nat → Progress → Reader Entries
  | 0, _ => refuse
  | fuel + 1, progress => do
    skipBlanks
    match ← peek with
    | none => return progress.root
    | some '#' | some '\n' | some '\r' =>
      endLine
      readDocument fuel progress
    | some '[' =>
      skip
      let ofArray := (← peek) == some '['
      if ofArray then skip
      let path ← readKey
      expect (if ofArray then [']', ']'] else [']'])
      endLine
      match progress.openHeader ofArray path with
      | some progress => readDocument fuel progress
      | none => refuse
    | some _ =>
      let key ← readKey
      expect ['=']
      skipBlanks
      let value ← readValue depthLimit
      endLine
      match progress.add key value with
      | some progress => readDocument fuel progress
      | none => refuse

/-- The root table of a document. A mark of the byte order in front is skipped. -/
def parse? (text : String) : Option Entries :=
  let cs := match text.toList with
    | '\uFEFF' :: rest => rest
    | cs => cs
  ((readDocument (cs.length + 1) {}).run cs).map (·.1)

end ScriptHost.Config.Toml
