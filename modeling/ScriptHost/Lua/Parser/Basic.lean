import ScriptHost.Lua.Compiler.Basic
import ScriptHost.Lua.Lexer
import ScriptHost.Lua.Parser.Scope
/-! Reading of tokens, the messages for texts that are not a script, and declarations. -/
namespace ScriptHost.Lua.Parser
open Text (Bytes)

inductive Fault where
  /-- Something is wrong at a line. -/
  | malformed (line : Nat) (message : Bytes)
  /-- Constructs are nested too deeply. -/
  | nestedTooDeeply

/-- What has been read. The first token is the current one. -/
structure State where
  source : Bytes
  tokens : List Lexeme
  /-- The line of the token before the current one. -/
  lastLine : Nat
  /-- The functions around the current token, the innermost first. -/
  scopes : List FunctionScope

abbrev Parse (α : Type) := StateT State (Except Fault) α

def Lexeme.none (line : Nat) : Lexeme := ⟨.endOfText, line, ByteArray.empty⟩

def current : Parse Lexeme := do
  let s ← get
  return s.tokens.head?.getD (Lexeme.none s.lastLine)

def token : Parse Token := return (← current).token

def line : Parse Nat := return (← current).line

def lastLine : Parse Nat := return (← get).lastLine

/-- A number that bounds every loop over tokens. -/
def remaining : Parse Nat := return (← get).tokens.length + 1

def failPlain {α : Type} (message : Bytes) : Parse α := do
  throw (.malformed (← line) message)

def failNear {α : Type} (message : Bytes) : Parse α := do
  let lexeme ← current
  throw (.malformed lexeme.line (message ++ " near ".toUTF8 ++ lexeme.near))

def checkReadable (lexeme? : Option Lexeme) : Parse Unit := do
  match lexeme? with
  | some ⟨.invalid message, line, _⟩ => throw (.malformed line message)
  | _ => return ()

def advance : Parse Unit := do
  let lexeme ← current
  modify fun s => { s with tokens := s.tokens.tail, lastLine := lexeme.line }
  checkReadable (← get).tokens.head?

def Token.isChar (c : Char) : Token → Bool
  | .char b => b.toNat == c.toNat
  | _ => false

def Token.isKeyword (k : Keyword) : Token → Bool
  | .keyword k' => k == k'
  | _ => false

def atChar (c : Char) : Parse Bool := return Token.isChar c (← token)

def atKeyword (k : Keyword) : Parse Bool := return Token.isKeyword k (← token)

def isBeforeEquals : Parse Bool := do
  let next := (← get).tokens.tail.head?
  checkReadable next
  return (next.map fun lexeme => Token.isChar '=' lexeme.token).getD false

def skipChar (c : Char) : Parse Bool := do
  if ← atChar c then
    advance
    return true
  else return false

def skipKeyword (k : Keyword) : Parse Bool := do
  if ← atKeyword k then
    advance
    return true
  else return false

def spellChar (c : Char) : Bytes := ("'" ++ c.toString ++ "'").toUTF8

def spellKeyword (k : Keyword) : Bytes := ("'" ++ k.spelling ++ "'").toUTF8

def failExpected {α : Type} (expected : Bytes) : Parse α := failNear (expected ++ " expected".toUTF8)

def expectChar (c : Char) : Parse Unit := do
  if !(← skipChar c) then failExpected (spellChar c)

def expectKeyword (k : Keyword) : Parse Unit := do
  if !(← skipKeyword k) then failExpected (spellKeyword k)

def failUnclosed {α : Type} (expected opened : Bytes) (opening : Nat) : Parse α := do
  if opening == (← line) then failExpected expected
  else
    failNear (expected ++ " expected (to close ".toUTF8 ++ opened ++
      (" at line " ++ toString opening ++ ")").toUTF8)

def expectClosing (close : Char) (opened : Char) (opening : Nat) : Parse Unit := do
  if !(← skipChar close) then failUnclosed (spellChar close) (spellChar opened) opening

def expectEnd (close opened : Keyword) (opening : Nat) : Parse Unit := do
  if !(← skipKeyword close) then failUnclosed (spellKeyword close) (spellKeyword opened) opening

def expectName : Parse Bytes := do
  match ← token with
  | .name s =>
    advance
    return s
  | _ => failExpected "<name>".toUTF8

def atBlockEnd (withUntil : Bool) : Parse Bool := do
  match ← token with
  | .endOfText => return true
  | .keyword .else | .keyword .elseif | .keyword .end => return true
  | .keyword .until => return withUntil
  | _ => return false

def scope : Parse FunctionScope := do
  match (← get).scopes with
  | s :: _ => return s
  | [] => return { lineDefined := 0, isVararg := true }

def setScope (s : FunctionScope) : Parse Unit :=
  modify fun state => { state with scopes := s :: state.scopes.tail }

def modifyScope (change : FunctionScope → FunctionScope) : Parse Unit := do
  setScope (change (← scope))

def failLimit {α : Type} (what : String) (limit lineDefined : Nat) : Parse α :=
  let place :=
    if lineDefined == 0 then "main function" else "function at line " ++ toString lineDefined
  failNear ("too many " ++ what ++ " (limit is " ++ toString limit ++ ") in " ++ place).toUTF8

def failRegisters {α : Type} : Parse α :=
  failNear "function or expression needs too many registers".toUTF8

def occupy : Parse Unit := do
  let s ← scope
  if Compiler.registerLimit ≤ s.registers + 1 then failRegisters
  else setScope { s with waiting := s.waiting + 1 }

/-- Reads a part of a script whose values do not wait any more afterwards. -/
def releasing {α : Type} (part : Parse α) : Parse α := do
  let before := (← scope).waiting
  let a ← part
  modifyScope fun s => { s with waiting := before }
  return a

def localLimit : Nat := 200

/-- Notes that variables are declared that are not yet in scope. -/
def awaitVariable : Parse Unit := do
  let s ← scope
  if localLimit < s.level + s.awaiting + 1 then failLimit "local variables" localLimit s.lineDefined
  else setScope { s with awaiting := s.awaiting + 1 }

def enterVariable (name : Bytes) (kind : VariableKind) : Parse Nat := do
  let s ← scope
  let decl := s.declNames.size
  setScope { s with
    declared := ⟨name, kind, decl⟩ :: s.declared
    awaiting := s.awaiting - 1
    declNames := s.declNames.push name }
  return decl

def enterVariables (list : List (Bytes × VariableKind)) : Parse (List Nat) :=
  list.mapM fun (name, kind) => enterVariable name kind

/-- Declares the variables that a loop keeps for itself. -/
def awaitHidden (count : Nat) : Parse Unit := do
  for _ in [0:count] do awaitVariable

def enterHidden (count : Nat) : Parse Unit := do
  for _ in [0:count] do
    let _ ← enterVariable "(for state)".toUTF8 .hidden

def enterBlock (isLoop : Bool) : Parse Unit := modifyScope (·.enterBlock isLoop)

/-- Adds a label at the current place and returns its number. -/
def addLabel (name : Bytes) (labelLine level : Nat) : Parse Nat := do
  let s ← scope
  match s.addLabel name labelLine level with
  | .ok (number, s) =>
    setScope s
    return number
  | .error jump =>
    failPlain ("<goto ".toUTF8 ++ untilNul jump.name ++
      (s!"> at line {jump.line} jumps into the scope of local '").toUTF8 ++
      s.nameAt jump.level ++ "'".toUTF8)

/-- The name that jumps out of loops look for. -/
def breakName : Bytes := "break".toUTF8

/-- Ends a block. A loop gets a label for the jumps out of it; the number is zero otherwise. -/
def leaveBlock : Parse Nat := do
  modifyScope (·.dropVariables)
  let s ← scope
  let isLoop := (s.blocks.head?.map (·.isLoop)).getD false
  let number ← if isLoop then addLabel breakName 0 s.level else pure 0
  match (← scope).closeBlock with
  | .ok s =>
    setScope s
    return number
  | .error jump =>
    if jump.name == breakName then
      failPlain s!"break outside loop at line {jump.line}".toUTF8
    else
      failPlain ("no visible label '".toUTF8 ++ jump.name ++
        s!"' for <goto> at line {jump.line}".toUTF8)

def openFunction (lineDefined : Nat) (isVararg : Bool) : Parse Unit := do
  let s : FunctionScope := { lineDefined, isVararg }
  modify fun state => { state with scopes := s.enterBlock false :: state.scopes }

def meaningOf (name : Bytes) : Parse Meaning := do
  match resolve name true (← get).scopes with
  | .ok (meaning, scopes) =>
    modify fun state => { state with scopes }
    return meaning
  | .error lineDefined => failLimit "upvalues" upvalueLimit lineDefined

end ScriptHost.Lua.Parser
