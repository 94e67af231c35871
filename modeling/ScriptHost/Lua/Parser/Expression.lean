import ScriptHost.Lua.Arithmetic
import ScriptHost.Lua.Compiler.Statement
import ScriptHost.Lua.Parser.Basic
/-! Reading of expressions. An index operation gets its line when its value is needed, which is known only from
the tokens that follow it. -/
namespace ScriptHost.Lua.Parser
open Text (Bytes)

/-- The constructs that go one level deeper: expressions whose operators bind tighter than a limit, statements,
and the rest of an assignment after one more target, given those before it in reverse. Beside a target is its
name if it stands for a known value. -/
structure Grammar where
  subexpr : Nat → Parse Expr
  statement : Parse (List Stat)
  assignment : List Expr → Expr × Option Bytes → Parse (List Expr × List Expr)

/-- The line of an index operation that has none yet. -/
def unsettled : Nat := 0

def settle (line : Nat) : Expr → Expr
  | .index object key 0 => .index object key line
  | e => e

def settleHere (e : Expr) : Parse Expr := return settle (← lastLine) e

/-- One value of an expression, which cannot be assigned to any more. -/
def onlyValue : Expr → Expr
  | .const c => .const c
  | e => .single e

inductive Operator where
  | binary (op : BinaryOp)
  | and
  | or

/-- The operator that a token is, with its priorities to the left and to the right. -/
def operator? : Token → Option (Operator × Nat × Nat)
  | .keyword .or => some (.or, 1, 1)
  | .keyword .and => some (.and, 2, 2)
  | .equal => some (.binary (.compare .equal false false), 3, 3)
  | .notEqual => some (.binary (.compare .equal false true), 3, 3)
  | .lessEqual => some (.binary (.compare .lessEqual false false), 3, 3)
  | .greaterEqual => some (.binary (.compare .lessEqual true false), 3, 3)
  | .concat => some (.binary .concat, 9, 8)
  | .shiftLeft => some (.binary (.arith .shiftLeft), 7, 7)
  | .shiftRight => some (.binary (.arith .shiftRight), 7, 7)
  | .floorDivide => some (.binary (.arith .floorDiv), 11, 11)
  | .char b =>
    match b with
    | 60 => some (.binary (.compare .less false false), 3, 3)
    | 62 => some (.binary (.compare .less true false), 3, 3)
    | 124 => some (.binary (.arith .bitOr), 4, 4)
    | 126 => some (.binary (.arith .bitXor), 5, 5)
    | 38 => some (.binary (.arith .bitAnd), 6, 6)
    | 43 => some (.binary (.arith .add), 10, 10)
    | 45 => some (.binary (.arith .sub), 10, 10)
    | 42 => some (.binary (.arith .mul), 11, 11)
    | 47 => some (.binary (.arith .div), 11, 11)
    | 37 => some (.binary (.arith .mod), 11, 11)
    | 94 => some (.binary (.arith .pow), 14, 13)
    | _ => none
  | _ => none

def unaryPriority : Nat := 12

def unaryOperator? : Token → Option UnaryOp
  | .keyword .not => some .not
  | .char b =>
    match b with
    | 45 => some .negate
    | 126 => some .complement
    | 35 => some .length
    | _ => none
  | _ => none

/-- An operation on two operands. Numbers are combined at once where that is safe. -/
def combine (op : Operator) (left right : Expr) (line : Nat) : Expr :=
  match op, left, right with
  | .binary (.arith op), .const (.number a), .const (.number b) =>
    match Number.fold? op a b with
    | some n => .const (.number n)
    | none => .binary (.arith op) left right line
  | .binary op, _, _ => .binary op left right line
  | .and, .const c, _ => if c.isTrue then onlyValue right else .and left right
  | .and, _, _ => .and left right
  | .or, .const c, _ => if c.isTrue then .or left right else onlyValue right
  | .or, _, _ => .or left right

def combineUnary (op : UnaryOp) (operand : Expr) (line : Nat) : Expr :=
  match op, operand with
  | .not, .const c => .const (.bool !c.isTrue)
  | _, .const (.number a) =>
    match Number.foldUnary? op a with
    | some n => .const (.number n)
    | none => .unary op operand line
  | _, _ => .unary op operand line

/-- Lets the last of some values wait in a register, unless it may be several. -/
def occupyLast (values : List Expr) : Parse Unit := do
  match values.getLast? with
  | some e => if !Compiler.isOpen e then occupy
  | none => return ()

/-- Expressions between commas. All but the last have their lines and wait in registers. -/
def expressionsFrom (g : Grammar) : Nat → Parse (List Expr)
  | 0 => return []
  | fuel + 1 => do
    let e ← g.subexpr 0
    if ← skipChar ',' then
      let e ← settleHere e
      occupy
      let rest ← expressionsFrom g fuel
      return e :: rest
    else return [e]

def expressions (g : Grammar) : Parse (List Expr) := do expressionsFrom g (← remaining)

/-- Expressions between commas, all with their lines, for so many variables. -/
def settledExpressions (g : Grammar) (variableCount : Option Nat) : Parse (List Expr) :=
  releasing do
    let es ← expressions g
    if some es.length != variableCount then occupyLast es
    es.mapM settleHere

/-- One field of a table, with its line still to come for a list item. -/
def field (g : Grammar) : Parse (Option Expr × Expr) := do
  let isNamed ← match ← token with
    | .name _ => isBeforeEquals
    | _ => pure false
  if isNamed then
    let name ← expectName
    expectChar '='
    let value ← settleHere (← g.subexpr 0)
    return (some (.const (.string name)), value)
  else if ← skipChar '[' then
    let key ← settleHere (← g.subexpr 0)
    expectChar ']'
    expectChar '='
    let value ← settleHere (← g.subexpr 0)
    return (some key, value)
  else return (none, ← g.subexpr 0)

def itemsAtOnce : Nat := 50

/-- Lets a list item wait in a register, until there are enough of them to go into the table. -/
def occupyItem (waiting : Nat) : Parse Nat := do
  occupy
  if waiting + 1 == itemsAtOnce then
    modifyScope fun s => { s with waiting := s.waiting - itemsAtOnce }
    return 0
  else return waiting + 1

def tableFields (g : Grammar) (opening waiting : Nat) : Nat → Parse (List (Option Expr × Expr × Nat))
  | 0 => return []
  | fuel + 1 => do
    if ← atChar '\x7d' then
      advance
      return []
    else
      let (key, value) ← field g
      let keyLine ← lastLine
      let isSeparated ← if ← skipChar ',' then pure true else skipChar ';'
      if isSeparated then
        let line ← if key.isSome then pure keyLine else lastLine
        let waiting ← if key.isSome then pure waiting else occupyItem waiting
        let rest ← tableFields g opening waiting fuel
        return (key, settle line value, line) :: rest
      else
        expectClosing '\x7d' '\x7b' opening
        let line ← if key.isSome then pure keyLine else lastLine
        return [(key, settle line value, line)]

def table (g : Grammar) : Parse Expr := do
  let opening ← line
  releasing do
    occupy
    expectChar '\x7b'
    let fields ← tableFields g opening 0 (← remaining)
    return .table fields opening

def arguments (g : Grammar) : Parse (List Expr) := do
  let opening ← line
  match ← token with
  | .string s =>
    advance
    occupy
    return [.const (.string s)]
  | .char b =>
    if b == 40 then
      advance
      if ← skipChar ')' then return []
      else
        let es ← expressions g
        expectClosing ')' '(' opening
        occupyLast es
        es.mapM settleHere
    else if b == 123 then
      let t ← table g
      occupy
      return [t]
    else failNear "function arguments expected".toUTF8
  | _ => failNear "function arguments expected".toUTF8

/-- What a name stands for, as an expression. A global variable is a field of the environment. The second part
names a variable whose value is known. -/
def variableNamed (name : Bytes) : Parse (Expr × Option Bytes) := do
  match ← meaningOf name with
  | .local decl _ => return (.local decl, none)
  | .upvalue place _ => return (.upvalue place, none)
  | .known value => return (.const value, some name)
  | .global =>
    let environment ← match ← meaningOf environmentName with
      | .local decl _ => pure (Expr.local decl)
      | .upvalue place _ => pure (Expr.upvalue place)
      | .known value => pure (Expr.const value)
      | .global => pure (Expr.const .nil)
    return (.index environment (.const (.string name)) unsettled, none)

def primary (g : Grammar) : Parse (Expr × Option Bytes) := do
  match ← token with
  | .name s =>
    advance
    variableNamed s
  | .char b =>
    if b == 40 then
      let opening ← line
      advance
      let e ← g.subexpr 0
      expectClosing ')' '(' opening
      return (onlyValue (← settleHere e), none)
    else failNear "unexpected symbol".toUTF8
  | _ => failNear "unexpected symbol".toUTF8

def waits : Expr → Bool
  | .local _ | .const (.number _) => false
  | _ => true

def after {α : Type} (operand : Expr) (part : Parse α) : Parse α :=
  releasing do
    if waits operand then occupy
    part

def argumentsAfter (g : Grammar) (waiting : Nat) : Parse (List Expr) :=
  releasing do
    for _ in [0:waiting] do occupy
    arguments g

def suffixes (g : Grammar) : Nat → Expr × Option Bytes → Parse (Expr × Option Bytes)
  | 0, e => return e
  | fuel + 1, (e, known) => do
    match ← token with
    | .string _ =>
      let fn ← settleHere e
      let callLine ← line
      let args ← argumentsAfter g 1
      suffixes g fuel (.call fn args callLine, none)
    | .char b =>
      if b == 46 then
        let object ← settleHere e
        advance
        let name ← expectName
        suffixes g fuel (.index object (.const (.string name)) unsettled, none)
      else if b == 91 then
        let object ← settleHere e
        advance
        let key ← settleHere (← after object (g.subexpr 0))
        expectChar ']'
        suffixes g fuel (.index object key unsettled, none)
      else if b == 58 then
        advance
        let name ← expectName
        let object ← settleHere e
        let lookupLine ← lastLine
        let callLine ← line
        let args ← argumentsAfter g 2
        suffixes g fuel (.method object name lookupLine args callLine, none)
      else if b == 40 || b == 123 then
        let fn ← settleHere e
        let callLine ← line
        let args ← argumentsAfter g 1
        suffixes g fuel (.call fn args callLine, none)
      else return (e, known)
    | _ => return (e, known)

def suffixed (g : Grammar) : Parse (Expr × Option Bytes) := do
  let e ← primary g
  suffixes g (← remaining) e

def statementsFrom (g : Grammar) : Nat → Parse (List Stat)
  | 0 => return []
  | fuel + 1 => do
    if ← atBlockEnd true then return []
    else if ← atKeyword .return then g.statement
    else
      let s ← g.statement
      let rest ← statementsFrom g fuel
      return s ++ rest

def statements (g : Grammar) : Parse (List Stat) := do statementsFrom g (← remaining)

def parameterNames : Nat → Parse (List Bytes)
  | 0 => return []
  | fuel + 1 => do
    match ← token with
    | .name s =>
      advance
      awaitVariable
      if ← skipChar ',' then
        let rest ← parameterNames fuel
        return s :: rest
      else return [s]
    | .dots =>
      advance
      modifyScope fun s => { s with isVararg := true }
      return []
    | _ => failNear "<name> or '...' expected".toUTF8

def closeFunction (body : List Stat) (endLine : Nat) : Parse (Proto × Array Capture) := do
  let _ ← leaveBlock
  let s ← scope
  let input : Compiler.Input := {
    source := (← get).source
    lineDefined := s.lineDefined
    lastLine := endLine
    isMain := s.lineDefined == 0
    params := s.params
    isVararg := s.isVararg
    body := body
    declNames := s.declNames
    captured := s.captured
    upvalueNames := s.upvalues.map (·.name)
    jumps := s.jumps
    children := s.children }
  match Proto.compile? input with
  | some proto =>
    modify fun state => { state with scopes := state.scopes.tail }
    return (proto, s.upvalues.map (·.capture))
  | none => failRegisters

def functionBody (g : Grammar) (isMethod : Bool) (start : Nat) : Parse Nat := do
  openFunction start false
  expectChar '('
  let self ← if isMethod then do
      awaitVariable
      pure [← enterVariable "self".toUTF8 .regular]
    else pure []
  let names ← if ← atChar ')' then pure [] else parameterNames (← remaining)
  let params ← enterVariables (names.map fun name => (name, VariableKind.regular))
  modifyScope fun s => { s with params := self ++ params }
  expectChar ')'
  let body ← statements g
  let endLine ← line
  expectEnd .end .function start
  let child ← closeFunction body endLine
  let s ← scope
  setScope { s with children := s.children.push child }
  return s.children.size

def simple (g : Grammar) : Parse Expr := do
  match ← token with
  | .number n => advance; return .const (.number n)
  | .string s => advance; return .const (.string s)
  | .keyword .nil => advance; return .const .nil
  | .keyword .true => advance; return .const (.bool true)
  | .keyword .false => advance; return .const (.bool false)
  | .dots =>
    if !(← scope).isVararg then failNear "cannot use '...' outside a vararg function".toUTF8
    advance
    return .vararg
  | .keyword .function =>
    advance
    return .function (← functionBody g false (← line))
  | .char 123 => table g
  | _ =>
    let (e, _) ← suffixed g
    return e

def operations (g : Grammar) (limit : Nat) : Nat → Expr → Parse Expr
  | 0, left => return left
  | fuel + 1, left => do
    match operator? (← token) with
    | some (op, leftPriority, rightPriority) =>
      if limit < leftPriority then
        let opLine ← line
        advance
        let left ← settleHere left
        let right ← settleHere (← match op with
          | .binary _ => after left (g.subexpr rightPriority)
          | _ => g.subexpr rightPriority)
        operations g limit fuel (combine op left right opLine)
      else return left
    | none => return left

/-- An expression whose operators have priorities above a limit. -/
def subexprWith (g : Grammar) (limit : Nat) : Parse Expr := do
  let left ← match unaryOperator? (← token) with
    | some op => do
      let opLine ← line
      advance
      let operand ← settleHere (← g.subexpr unaryPriority)
      pure (combineUnary op operand opLine)
    | none => simple g
  operations g limit (← remaining) left

end ScriptHost.Lua.Parser
