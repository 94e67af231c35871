import ScriptHost.Lua.Parser.Expression
/-! Reading of statements, and of whole scripts. -/
namespace ScriptHost.Lua.Parser
open Text (Bytes)

def checkTarget (e : Expr) (known : Option Bytes) : Parse Unit := do
  let s ← scope
  let readOnly? : Option Bytes ← match known, e with
    | some name, _ => pure (some name)
    | none, .local decl =>
      pure ((s.declared.find? fun v => v.decl == decl && v.kind.isReadOnly).map (·.name))
    | none, .upvalue place =>
      pure (s.upvalues[place]?.bind fun u => if u.readOnly then some u.name else none)
    | none, .index _ _ _ => pure none
    | none, _ => failNear "syntax error".toUTF8
  match readOnly? with
  | some name =>
    failPlain ("attempt to assign to const variable '".toUTF8 ++ name ++ "'".toUTF8)
  | none => return ()

/-- An assignment after the target that was read last. The targets before it come in reverse, and so do those
of the result. -/
def assignmentWith (g : Grammar) (before : List Expr) (target : Expr × Option Bytes) :
    Parse (List Expr × List Expr) := do
  checkTarget target.1 target.2
  if ← skipChar ',' then
    let next ← suffixed g
    g.assignment (target.1 :: before) next
  else
    expectChar '='
    let values ← settledExpressions g (some (before.length + 1))
    return (target.1 :: before, values)

def expressionStatement (g : Grammar) : Parse (List Stat) := do
  let (e, known) ← suffixed g
  if (← atChar '=') || (← atChar ',') then
    let (targets, values) ← assignmentWith g [] (e, known)
    return [.assign targets.reverse values (← lastLine)]
  else
    match e with
    | .call _ _ _ | .method _ _ _ _ _ => return [.call e]
    | _ => failNear "syntax error".toUTF8

def blockOf (g : Grammar) : Parse (List Stat × Nat) := do
  enterBlock false
  let body ← statements g
  let last ← lastLine
  let _ ← leaveBlock
  return (body, last)

def clauses (g : Grammar) : Nat → Parse (List (Expr × List Stat × Nat))
  | 0 => return []
  | fuel + 1 => do
    advance
    let cond ← g.subexpr 0
    expectKeyword .then
    let cond ← settleHere cond
    let (body, last) ← blockOf g
    let clause := (cond, body, last)
    if ← atKeyword .elseif then
      let rest ← clauses g fuel
      return clause :: rest
    else if ← skipKeyword .else then
      let (body, last) ← blockOf g
      return [clause, (.const (.bool true), body, last)]
    else return [clause]

def conditional (g : Grammar) (start : Nat) : Parse Stat := do
  let list ← clauses g (← remaining)
  expectEnd .end .if start
  return .cond list

def whileLoop (g : Grammar) (start : Nat) : Parse Stat := do
  advance
  let cond ← settleHere (← g.subexpr 0)
  enterBlock true
  expectKeyword .do
  let (body, _) ← blockOf g
  let last ← lastLine
  expectEnd .end .while start
  let breakLabel ← leaveBlock
  return .while cond body last breakLabel

/-- A loop with its condition at the end, where the variables of its body are still in scope. -/
def repeatLoop (g : Grammar) (start : Nat) : Parse Stat := do
  enterBlock true
  enterBlock false
  advance
  let body ← statements g
  expectEnd .until .repeat start
  let cond ← settleHere (← g.subexpr 0)
  let last ← lastLine
  let _ ← leaveBlock
  let breakLabel ← leaveBlock
  return .repeat body cond last breakLabel

/-- The body of a counting loop or of a loop over values, after the expressions. Returns the declarations, the
body, the line where it ends and the line before it. -/
def loopBody (g : Grammar) (names : List Bytes) : Parse (List Nat × List Stat × Nat × Nat) := do
  expectKeyword .do
  let doLine ← lastLine
  enterBlock false
  let decls ← enterVariables (names.map fun name => (name, VariableKind.regular))
  let (body, last) ← blockOf g
  let _ ← leaveBlock
  return (decls, body, last, doLine)

def oneValue (g : Grammar) : Parse Expr := do settleHere (← g.subexpr 0)

def numericLoop (g : Grammar) (name : Bytes) (start : Nat) : Parse (Nat → Stat) := do
  awaitHidden 3
  awaitVariable
  expectChar '='
  let first ← oneValue g
  expectChar ','
  let limit ← oneValue g
  let step ← if ← skipChar ',' then pure (some (← oneValue g)) else pure none
  enterHidden 3
  let (decls, body, last, doLine) ← loopBody g [name]
  return .numeric (decls.headD 0) first limit step body last doLine start

def moreNames : Nat → Parse (List Bytes)
  | 0 => return []
  | fuel + 1 => do
    if ← skipChar ',' then
      let name ← expectName
      awaitVariable
      let rest ← moreNames fuel
      return name :: rest
    else return []

def genericLoop (g : Grammar) (name : Bytes) : Parse (Nat → Stat) := do
  awaitHidden 4
  awaitVariable
  let names ← moreNames (← remaining)
  expectKeyword .in
  let start ← line
  let values ← settledExpressions g none
  enterHidden 4
  modifyScope (·.modifyBlock fun b => { b with closes := true })
  let (decls, body, last, doLine) ← loopBody g (name :: names)
  return .generic decls values body last doLine start

def forLoop (g : Grammar) (start : Nat) : Parse Stat := do
  enterBlock true
  advance
  let name ← expectName
  let loop ← match ← token with
    | .char 61 => numericLoop g name start
    | .char 44 | .keyword .in => genericLoop g name
    | _ => failNear "'=' or 'in' expected".toUTF8
  expectEnd .end .for start
  let breakLabel ← leaveBlock
  return loop breakLabel

def functionName : Nat → Expr → Parse (Expr × Bool)
  | 0, e => return (e, false)
  | fuel + 1, e => do
    let isMethod ← atChar ':'
    if isMethod || (← atChar '.') then
      let object ← settleHere e
      advance
      let name ← expectName
      let e := Expr.index object (.const (.string name)) unsettled
      if isMethod then return (e, true) else functionName fuel e
    else return (e, false)

def functionStatement (g : Grammar) (start : Nat) : Parse Stat := do
  advance
  let (e, known) ← variableNamed (← expectName)
  let hasFields := (← atChar '.') || (← atChar ':')
  let (target, isMethod) ← functionName (← remaining) e
  let place ← functionBody g isMethod start
  checkTarget target (if hasFields then none else known)
  return .assign [target] [.function place] start

def localFunction (g : Grammar) : Parse Stat := do
  let name ← expectName
  awaitVariable
  let decl ← enterVariable name .regular
  let place ← functionBody g false (← line)
  return .localFunction decl place (← lastLine)

def variableKind : Parse VariableKind := do
  if ← skipChar '<' then
    let name ← expectName
    expectChar '>'
    if name == "const".toUTF8 then return .readOnly
    else if name == "close".toUTF8 then return .toClose
    else failPlain ("unknown attribute '".toUTF8 ++ name ++ "'".toUTF8)
  else return .regular

/-- The names of new local variables with their kinds, of which at most one is to be closed. -/
def localNames : Nat → Bool → Parse (List (Bytes × VariableKind))
  | 0, _ => return []
  | fuel + 1, hasToClose => do
    let name ← expectName
    awaitVariable
    let kind ← variableKind
    let closes := kind matches .toClose
    if closes && hasToClose then
      failPlain "multiple to-be-closed variables in local list".toUTF8
    if ← skipChar ',' then
      let rest ← localNames fuel (hasToClose || closes)
      return (name, kind) :: rest
    else return [(name, kind)]

/-- The value of a last local variable that is read-only and known, if there are as many values as
variables. -/
def knownValue? (names : List (Bytes × VariableKind)) (values : List Expr) : Option Constant :=
  if names.length == values.length then
    match names.getLast?, values.getLast? with
    | some (_, .readOnly), some (.const c) => some c
    | _, _ => none
  else none

def localStatement (g : Grammar) : Parse Stat := do
  let names ← localNames (← remaining) false
  let values ← if ← skipChar '=' then settledExpressions g none else pure []
  match knownValue? names values with
  | some value =>
    let decls ← enterVariables names.dropLast
    let _ ← enterVariable ((names.getLast?.map (·.1)).getD ByteArray.empty) (.known value)
    return .local decls values.dropLast none (← lastLine)
  | none =>
    let decls ← enterVariables names
    let toClose := ((names.zip decls).find? fun (n, _) => n.2 matches .toClose).map (·.2)
    if toClose.isSome then modifyScope (·.modifyBlock fun b => { b with closes := true })
    return .local decls values toClose (← lastLine)

def emptyStatements (g : Grammar) : Nat → Parse (List Stat)
  | 0 => return []
  | fuel + 1 => do
    let more := match ← token with
      | .doubleColon => true
      | .char b => b == 59
      | _ => false
    if more then
      let s ← g.statement
      let rest ← emptyStatements g fuel
      return s ++ rest
    else return []

/-- A label after its first colons. At the end of a block the variables of the block count as out of scope. -/
def labelStatement (g : Grammar) (start : Nat) : Parse (List Stat) := do
  let name ← expectName
  match ← token with
  | .doubleColon => advance
  | _ => failExpected "'::'".toUTF8
  let others ← emptyStatements g (← remaining)
  let s ← scope
  match s.findLabel? name with
  | some label =>
    failPlain ("label '".toUTF8 ++ name ++ s!"' already defined on line {label.line}".toUTF8)
  | none => pure ()
  let isLast ← atBlockEnd false
  let level := if isLast then (s.blocks.head?.map (·.level)).getD 0 else s.level
  let number ← addLabel name start level
  return others ++ [.label number]

def gotoStatement : Parse Stat := do
  let start ← line
  let name ← expectName
  let s ← scope
  let (jump, s) := match s.findLabel? name with
    | some label => s.addJump label.number
    | none => s.addPending name start
  setScope s
  return .goto jump (← lastLine)

def breakStatement (start : Nat) : Parse Stat := do
  advance
  let (jump, s) := (← scope).addPending breakName start
  setScope s
  return .goto jump (← lastLine)

/-- The end of a function with its results. A call in this place replaces the function, unless variables have
to be closed. -/
def returnStatement (g : Grammar) : Parse Stat := do
  advance
  let values ← if (← atBlockEnd true) || (← atChar ';') then pure []
    else settledExpressions g (some 1)
  let last ← lastLine
  let _ ← skipChar ';'
  return .return values (!(← scope).closes) last

def statementWith (g : Grammar) : Parse (List Stat) := do
  let start ← line
  match ← token with
  | .char 59 => advance; return []
  | .keyword .if => return [← conditional g start]
  | .keyword .while => return [← whileLoop g start]
  | .keyword .do =>
    advance
    let (body, last) ← blockOf g
    expectEnd .end .do start
    return [.block body last]
  | .keyword .for => return [← forLoop g start]
  | .keyword .repeat => return [← repeatLoop g start]
  | .keyword .function => return [← functionStatement g start]
  | .keyword .local =>
    advance
    if ← skipKeyword .function then return [← localFunction g] else return [← localStatement g]
  | .doubleColon =>
    advance
    labelStatement g start
  | .keyword .return => return [← returnStatement g]
  | .keyword .break => return [← breakStatement start]
  | .keyword .goto =>
    advance
    return [← gotoStatement]
  | _ => expressionStatement g

def grammar : Nat → Grammar
  | 0 =>
    { subexpr := fun _ => throw .nestedTooDeeply
      statement := throw .nestedTooDeeply
      assignment := fun _ _ => throw .nestedTooDeeply }
  | levels + 1 =>
    let g := grammar levels
    { subexpr := subexprWith g
      statement := statementWith g
      assignment := assignmentWith g }

def script (levels : Nat) : Parse Proto := do
  checkReadable (← get).tokens.head?
  let body ← statements (grammar levels)
  match ← token with
  | .endOfText =>
    let endLine ← lastLine
    let (proto, _) ← closeFunction body endLine
    return proto
  | _ => failExpected "<eof>".toUTF8

def scriptScope : FunctionScope :=
  { lineDefined := 0, isVararg := true, upvalues := #[⟨environmentName, .upvalue 0, false⟩],
    blocks := [{ isLoop := false, level := 0, closes := false }] }

end Parser

def Proto.ofText (source text : Text.Bytes) (levels : Nat) : Except Parser.Fault Proto :=
  ((Parser.script levels).run
    { source, tokens := (Lexer.tokens text).toList, lastLine := 1,
      scopes := [Parser.scriptScope] }).map (·.1)

end ScriptHost.Lua
