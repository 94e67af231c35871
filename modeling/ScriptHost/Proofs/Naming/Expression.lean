import ScriptHost.Proofs.Naming.Reading
/-! The name of a chunk and the reading of its expressions and functions. -/
namespace ScriptHost.Lua.Parser
open Text (Bytes)

/-- The constructs one level deeper are read in the same way whatever the name of the chunk is. -/
structure Grammar.Nameless (g : Grammar) (source : Bytes) : Prop where
  subexpr : ∀ limit, Parser.Nameless source (g.subexpr limit)
  statement : Parser.Nameless source g.statement
  assignment : ∀ before target, Parser.Nameless source (g.assignment before target)

variable {source : Bytes} {g : Grammar}

theorem nameless_settleHere (e : Expr) : Nameless source (settleHere e) :=
  .bind nameless_lastLine fun _ => .pure _

theorem nameless_occupyLast (values : List Expr) : Nameless source (occupyLast values) := by
  unfold occupyLast
  split
  · exact .ite nameless_occupy (.pure ())
  · exact .pure ()

theorem nameless_occupyItem (waiting : Nat) : Nameless source (occupyItem waiting) :=
  .bind nameless_occupy fun _ => .ite (.bind (.modifyScope fun _ => rfl) fun _ => .pure _) (.pure _)

theorem nameless_variableNamed (name : Bytes) : Nameless source (variableNamed name) := by
  refine .bind (nameless_meaningOf name) fun meaning => ?_
  cases meaning with
  | global =>
    refine .bind (nameless_meaningOf environmentName) fun meaning => ?_
    cases meaning <;> exact .bind (.pure _) fun _ => .pure _
  | _ => exact .pure _

theorem nameless_after {α : Type} (operand : Expr) {part : Parse α} (h : Nameless source part) :
    Nameless source (after operand part) :=
  .releasing (.ite (.bind nameless_occupy fun _ => h) h)

section Operands
variable (hg : g.Nameless source)
include hg

theorem nameless_settled (limit : Nat) {α : Type} {next : Expr → Parse α} (hnext : ∀ e, Nameless source (next e)) :
    Nameless source (g.subexpr limit >>= fun e => settleHere e >>= next) :=
  .bind (hg.subexpr limit) fun e => .bind (nameless_settleHere e) hnext

theorem nameless_expressionsFrom (fuel : Nat) : Nameless source (expressionsFrom g fuel) := by
  induction fuel with
  | zero => exact .pure []
  | succ fuel ih =>
    exact .bind (hg.subexpr 0) fun _ => .bind (nameless_skipChar _) fun _ =>
      .ite (.bind (nameless_settleHere _) fun _ => .bind nameless_occupy fun _ => .bind ih fun _ => .pure _)
        (.pure _)

theorem nameless_expressions : Nameless source (expressions g) :=
  .bind nameless_remaining fun _ => nameless_expressionsFrom hg _

theorem nameless_settledExpressions (variableCount : Option Nat) :
    Nameless source (settledExpressions g variableCount) :=
  .releasing (.bind (nameless_expressions hg) fun _ =>
    .ite (.bind (nameless_occupyLast _) fun _ => .mapM nameless_settleHere _) (.mapM nameless_settleHere _))

theorem nameless_field : Nameless source (field g) := by
  refine .bind nameless_token fun t => ?_
  -- The field is read by one continuation, whether or not a name is seen to be followed by an equals sign.
  extract_lets rest
  have hrest (isNamed : Bool) : Nameless source (rest isNamed) :=
    .ite
      (.bind nameless_expectName fun _ => .bind (nameless_expectChar _) fun _ =>
        nameless_settled hg 0 fun _ => .pure _)
      (.bind (nameless_skipChar _) fun _ =>
        .ite
          (nameless_settled hg 0 fun _ => .bind (nameless_expectChar _) fun _ =>
            .bind (nameless_expectChar _) fun _ => nameless_settled hg 0 fun _ => .pure _)
          (.bind (hg.subexpr 0) fun _ => .pure _))
  split
  · exact .bind nameless_isBeforeEquals hrest
  · exact .bind (.pure _) hrest

theorem nameless_tableFields (opening waiting fuel : Nat) :
    Nameless source (tableFields g opening waiting fuel) := by
  induction fuel generalizing waiting with
  | zero => exact .pure []
  | succ fuel ih =>
    refine .bind (nameless_atChar _) fun _ => .ite (.bind nameless_advance fun _ => .pure _)
      (.bind (nameless_field hg) fun _ => .bind nameless_lastLine fun _ => .bind (nameless_skipChar _) fun _ => ?_)
    -- Shared are what follows the line of a field, with more fields to come or none, and the separator.
    extract_lets more last rest
    have hmore (line : Nat) : Nameless source (more line) :=
      .ite (.bind (.pure _) fun _ => .bind (ih _) fun _ => .pure _)
        (.bind (nameless_occupyItem _) fun _ => .bind (ih _) fun _ => .pure _)
    have hlast (line : Nat) : Nameless source (last line) := .pure _
    have hrest (isSeparated : Bool) : Nameless source (rest isSeparated) :=
      .ite (.ite (.bind (.pure _) hmore) (.bind nameless_lastLine hmore))
        (.bind (nameless_expectClosing _ _ _) fun _ =>
          .ite (.bind (.pure _) hlast) (.bind nameless_lastLine hlast))
    exact .ite (.bind (.pure _) hrest) (.bind (nameless_skipChar _) hrest)

theorem nameless_table : Nameless source (table g) :=
  .bind nameless_line fun _ => .releasing <| .bind nameless_occupy fun _ => .bind (nameless_expectChar _) fun _ =>
    .bind nameless_remaining fun _ => .bind (nameless_tableFields hg _ _ _) fun _ => .pure _

theorem nameless_arguments : Nameless source (arguments g) := by
  refine .bind nameless_line fun _ => .bind nameless_token fun _ => ?_
  split
  · exact .bind nameless_advance fun _ => .bind nameless_occupy fun _ => .pure _
  · exact .ite
      (.bind nameless_advance fun _ => .bind (nameless_skipChar _) fun _ => .ite (.pure _)
        (.bind (nameless_expressions hg) fun _ => .bind (nameless_expectClosing _ _ _) fun _ =>
          .bind (nameless_occupyLast _) fun _ => .mapM nameless_settleHere _))
      (.ite (.bind (nameless_table hg) fun _ => .bind nameless_occupy fun _ => .pure _) (nameless_failNear _))
  · exact nameless_failNear _

theorem nameless_primary : Nameless source (primary g) := by
  refine .bind nameless_token fun _ => ?_
  split
  · exact .bind nameless_advance fun _ => nameless_variableNamed _
  · exact .ite
      (.bind nameless_line fun _ => .bind nameless_advance fun _ => .bind (hg.subexpr 0) fun _ =>
        .bind (nameless_expectClosing _ _ _) fun _ => .bind (nameless_settleHere _) fun _ => .pure _)
      (nameless_failNear _)
  · exact nameless_failNear _

theorem nameless_argumentsAfter (waiting : Nat) : Nameless source (argumentsAfter g waiting) := by
  unfold argumentsAfter
  simp only [Std.Legacy.Range.forIn_eq_forIn_range']
  exact .releasing (.bind (.forIn _ fun _ _ => .bind nameless_occupy fun _ => .pure _) fun _ =>
    nameless_arguments hg)

theorem nameless_suffixes (fuel : Nat) (e : Expr × Option Bytes) : Nameless source (suffixes g fuel e) := by
  induction fuel generalizing e with
  | zero => exact .pure e
  | succ fuel ih =>
    have hcall {fn : Expr} : Nameless source (do
        let fn ← settleHere fn
        let callLine ← line
        let args ← argumentsAfter g 1
        suffixes g fuel (.call fn args callLine, none)) :=
      .bind (nameless_settleHere _) fun _ => .bind nameless_line fun _ =>
        .bind (nameless_argumentsAfter hg _) fun _ => ih _
    refine .bind nameless_token fun _ => ?_
    split
    · exact hcall
    · exact .ite
        (.bind (nameless_settleHere _) fun _ => .bind nameless_advance fun _ =>
          .bind nameless_expectName fun _ => ih _)
        (.ite
          (.bind (nameless_settleHere _) fun _ => .bind nameless_advance fun _ =>
            .bind (nameless_after _ (hg.subexpr 0)) fun _ => .bind (nameless_settleHere _) fun _ =>
              .bind (nameless_expectChar _) fun _ => ih _)
          (.ite
            (.bind nameless_advance fun _ => .bind nameless_expectName fun _ =>
              .bind (nameless_settleHere _) fun _ => .bind nameless_lastLine fun _ => .bind nameless_line fun _ =>
                .bind (nameless_argumentsAfter hg _) fun _ => ih _)
            (.ite hcall (.pure _))))
    · exact .pure _

theorem nameless_suffixed : Nameless source (suffixed g) :=
  .bind (nameless_primary hg) fun _ => .bind nameless_remaining fun _ => nameless_suffixes hg _ _

end Operands

section Functions

theorem nameless_parameterNames (fuel : Nat) : Nameless source (parameterNames fuel) := by
  induction fuel with
  | zero => exact .pure []
  | succ fuel ih =>
    refine .bind nameless_token fun _ => ?_
    split
    · exact .bind nameless_advance fun _ => .bind nameless_awaitVariable fun _ =>
        .bind (nameless_skipChar _) fun _ => .ite (.bind ih fun _ => .pure _) (.pure _)
    · exact .bind nameless_advance fun _ => .bind (.modifyScope fun _ => rfl) fun _ => .pure _
    · exact nameless_failNear _

/-- What is returned has the name of the chunk in it. -/
theorem mirrors_closeFunction (body : List Stat) (endLine : Nat) :
    Mirrors source ((fun child => (child.1.named source, child.2)) <$> closeFunction body endLine)
      (closeFunction body endLine) := by
  simp only [closeFunction, map_bind]
  refine .bind nameless_leaveBlock fun _ => .scope fun f => .get fun s => ?_
  let input (s : State) (f : FunctionScope) : Compiler.Input := {
    source := s.source, lineDefined := f.lineDefined, lastLine := endLine, isMain := f.lineDefined == 0
    params := f.params, isVararg := f.isVararg, body, declNames := f.declNames, captured := f.captured
    upvalueNames := f.upvalues.map (·.name), jumps := f.jumps, children := f.children }
  have hnamed : Proto.compile? (input (s.named source) (f.named source)) =
      (Proto.compile? (input s f)).map (·.named source) := Proto.compile?_named source (input s f)
  dsimp only [input] at hnamed
  rw [hnamed]
  cases Proto.compile? (input s f) with
  | none => exact fun _ => rfl
  | some proto =>
    simp only [Option.map_some, map_bind, map_pure]
    exact .bind (.modify fun s => by simp [State.named]) fun _ => .pure _

theorem nameless_addChild (body : List Stat) (endLine : Nat) :
    let adding : Parse Nat := do
      let child ← closeFunction body endLine
      let s ← scope
      setScope { s with children := s.children.push child }
      return s.children.size
    Nameless source adding := by
  refine .bind_map (mirrors_closeFunction body endLine) fun child => .scope fun f => ?_
  have hscope : { f.named source with children := (f.named source).children.push (child.1.named source, child.2) } =
      FunctionScope.named source { f with children := f.children.push child } := by
    simp [FunctionScope.named]
  have hsize : (f.named source).children.size = f.children.size := by simp [FunctionScope.named]
  rw [hscope, hsize]
  exact .bind (.setScope _) fun _ => .pure _

variable (hg : g.Nameless source)
include hg

theorem nameless_statementsFrom (fuel : Nat) : Nameless source (statementsFrom g fuel) := by
  induction fuel with
  | zero => exact .pure []
  | succ fuel ih =>
    exact .bind (nameless_atBlockEnd _) fun _ => .ite (.pure _)
      (.bind (nameless_atKeyword _) fun _ => .ite hg.statement
        (.bind hg.statement fun _ => .bind ih fun _ => .pure _))

theorem nameless_statements : Nameless source (statements g) :=
  .bind nameless_remaining fun _ => nameless_statementsFrom hg _

theorem nameless_functionBody (isMethod : Bool) (start : Nat) :
    Nameless source (functionBody g isMethod start) := by
  refine .bind (nameless_openFunction _ _) fun _ => .bind (nameless_expectChar _) fun _ => ?_
  -- Only a method has a variable before its parameters, and what comes after it is shared.
  extract_lets parameters
  have hparameters (self : List Nat) : Nameless source (parameters self) := by
    refine .bind (nameless_atChar _) fun _ => ?_
    extract_lets inside
    have hinside (names : List Bytes) : Nameless source (inside names) :=
      .bind (nameless_enterVariables _) fun _ => .bind (.modifyScope fun _ => rfl) fun _ =>
        .bind (nameless_expectChar _) fun _ => .bind (nameless_statements hg) fun body =>
            .bind nameless_line fun endLine => .bind (nameless_expectEnd _ _ _) fun _ =>
              nameless_addChild body endLine
    exact .ite (.bind (.pure _) hinside)
      (.bind nameless_remaining fun _ => .bind (nameless_parameterNames _) hinside)
  exact .ite
    (.bind nameless_awaitVariable fun _ => .bind (nameless_enterVariable _ _) fun _ => .bind (.pure _) hparameters)
    (.bind (.pure _) hparameters)

theorem nameless_simple : Nameless source (simple g) := by
  refine .bind nameless_token fun _ => ?_
  split
  · exact .bind nameless_advance fun _ => .pure _
  · exact .bind nameless_advance fun _ => .pure _
  · exact .bind nameless_advance fun _ => .pure _
  · exact .bind nameless_advance fun _ => .pure _
  · exact .bind nameless_advance fun _ => .pure _
  · exact .scope fun _ =>
      .ite (.bind (nameless_failNear _) fun _ => .bind nameless_advance fun _ => .pure _)
        (.bind nameless_advance fun _ => .pure _)
  · exact .bind nameless_advance fun _ => .bind nameless_line fun _ => .bind (nameless_functionBody hg _ _) fun _ =>
      .pure _
  · exact nameless_table hg
  · exact .bind (nameless_suffixed hg) fun _ => .pure _

theorem nameless_operations (limit fuel : Nat) (left : Expr) :
    Nameless source (operations g limit fuel left) := by
  induction fuel generalizing left with
  | zero => exact .pure left
  | succ fuel ih =>
    refine .bind nameless_token fun _ => ?_
    split
    · refine .ite (.bind nameless_line fun _ => .bind nameless_advance fun _ =>
        .bind (nameless_settleHere _) fun _ => ?_) (.pure _)
      extract_lets rest
      have hrest (right : Expr) : Nameless source (rest right) :=
        .bind (nameless_settleHere _) fun _ => ih _
      split
      · exact .bind (nameless_after _ (hg.subexpr _)) hrest
      · exact .bind (hg.subexpr _) hrest
    · exact .pure _

theorem nameless_subexprWith (limit : Nat) : Nameless source (subexprWith g limit) := by
  refine .bind nameless_token fun _ => ?_
  extract_lets rest
  have hrest (left : Expr) : Nameless source (rest left) :=
    .bind nameless_remaining fun _ => nameless_operations hg _ _ _
  split
  · exact .bind nameless_line fun _ => .bind nameless_advance fun _ => nameless_settled hg _ fun _ =>
      .bind (.pure _) hrest
  · exact .bind (nameless_simple hg) hrest

end Functions

end ScriptHost.Lua.Parser
