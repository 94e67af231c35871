import ScriptHost.Proofs.Parsing.Basic
/-! What expressions and functions read. -/
namespace ScriptHost.Lua.Parser
open Text (Bytes)

/-- The constructs one level deeper never get past a place where no token could be read. -/
structure Grammar.Reads (g : Grammar) : Prop where
  subexpr : ∀ limit, Parser.Reads (g.subexpr limit)
  statement : Parser.Reads g.statement
  assignment : ∀ before target, Parser.Reads (g.assignment before target)

variable {g : Grammar}

theorem reads_settleHere (e : Expr) : Reads (settleHere e) := .bind reads_lastLine fun _ => .pure _

theorem reads_occupyLast (values : List Expr) : Reads (occupyLast values) := by
  unfold occupyLast
  split
  · exact .ite reads_occupy (.pure ())
  · exact .pure ()

theorem reads_occupyItem (waiting : Nat) : Reads (occupyItem waiting) :=
  .bind reads_occupy fun _ => .ite (.bind (.modifyScope _) fun _ => .pure _) (.pure _)

theorem reads_variableNamed (name : Bytes) : Reads (variableNamed name) := by
  refine .bind (reads_meaningOf name) fun meaning => ?_
  cases meaning with
  | global =>
    refine .bind (reads_meaningOf environmentName) fun meaning => ?_
    cases meaning <;> exact .bind (.pure _) fun _ => .pure _
  | _ => exact .pure _

theorem reads_after {α : Type} (operand : Expr) {part : Parse α} (h : Reads part) : Reads (after operand part) :=
  .releasing (.ite (.bind reads_occupy fun _ => h) h)

section Operands
variable (hg : g.Reads)
include hg

theorem reads_settled (limit : Nat) {α : Type} {next : Expr → Parse α} (hnext : ∀ e, Reads (next e)) :
    Reads (g.subexpr limit >>= fun e => settleHere e >>= next) :=
  .bind (hg.subexpr limit) fun e => .bind (reads_settleHere e) hnext

theorem reads_expressionsFrom (fuel : Nat) : Reads (expressionsFrom g fuel) := by
  induction fuel with
  | zero => exact .pure []
  | succ fuel ih =>
    exact .bind (hg.subexpr 0) fun _ => .bind (reads_skipChar _) fun _ =>
      .ite (.bind (reads_settleHere _) fun _ => .bind reads_occupy fun _ => .bind ih fun _ => .pure _)
        (.pure _)

theorem reads_expressions : Reads (expressions g) := .bind reads_remaining fun _ => reads_expressionsFrom hg _

theorem reads_settledExpressions (variableCount : Option Nat) : Reads (settledExpressions g variableCount) :=
  .releasing (.bind (reads_expressions hg) fun _ =>
    .ite (.bind (reads_occupyLast _) fun _ => .mapM reads_settleHere _) (.mapM reads_settleHere _))

theorem reads_field : Reads (field g) := by
  refine .bind reads_token fun t => ?_
  -- The field is read by one continuation, whether or not a name is seen to be followed by an equals sign.
  extract_lets rest
  have hrest (isNamed : Bool) : Reads (rest isNamed) :=
    .ite
      (.bind reads_expectName fun _ => .bind (reads_expectChar _) fun _ =>
        reads_settled hg 0 fun _ => .pure _)
      (.bind (reads_skipChar _) fun _ =>
        .ite
          (reads_settled hg 0 fun _ => .bind (reads_expectChar _) fun _ =>
            .bind (reads_expectChar _) fun _ => reads_settled hg 0 fun _ => .pure _)
          (.bind (hg.subexpr 0) fun _ => .pure _))
  split
  · exact .bind reads_isBeforeEquals hrest
  · exact .bind (.pure _) hrest

theorem reads_tableFields (opening waiting fuel : Nat) : Reads (tableFields g opening waiting fuel) := by
  induction fuel generalizing waiting with
  | zero => exact .pure []
  | succ fuel ih =>
    refine .bind (reads_atChar _) fun _ => .ite (.bind reads_advance fun _ => .pure _)
      (.bind (reads_field hg) fun _ => .bind reads_lastLine fun _ => .bind (reads_skipChar _) fun _ => ?_)
    -- Shared are what follows the line of a field, with more fields to come or none, and the separator.
    extract_lets more last rest
    have hmore (line : Nat) : Reads (more line) :=
      .ite (.bind (.pure _) fun _ => .bind (ih _) fun _ => .pure _)
        (.bind (reads_occupyItem _) fun _ => .bind (ih _) fun _ => .pure _)
    have hlast (line : Nat) : Reads (last line) := .pure _
    have hrest (isSeparated : Bool) : Reads (rest isSeparated) :=
      .ite (.ite (.bind (.pure _) hmore) (.bind reads_lastLine hmore))
        (.bind (reads_expectClosing _ _ _) fun _ =>
          .ite (.bind (.pure _) hlast) (.bind reads_lastLine hlast))
    exact .ite (.bind (.pure _) hrest) (.bind (reads_skipChar _) hrest)

theorem reads_table : Reads (table g) :=
  .bind reads_line fun _ => .releasing <| .bind reads_occupy fun _ => .bind (reads_expectChar _) fun _ =>
    .bind reads_remaining fun _ => .bind (reads_tableFields hg _ _ _) fun _ => .pure _

theorem reads_arguments : Reads (arguments g) := by
  refine .bind reads_line fun _ => .bind reads_token fun _ => ?_
  split
  · exact .bind reads_advance fun _ => .bind reads_occupy fun _ => .pure _
  · exact .ite
      (.bind reads_advance fun _ => .bind (reads_skipChar _) fun _ => .ite (.pure _)
        (.bind (reads_expressions hg) fun _ => .bind (reads_expectClosing _ _ _) fun _ =>
          .bind (reads_occupyLast _) fun _ => .mapM reads_settleHere _))
      (.ite (.bind (reads_table hg) fun _ => .bind reads_occupy fun _ => .pure _) (reads_failNear _))
  · exact reads_failNear _

theorem reads_primary : Reads (primary g) := by
  refine .bind reads_token fun _ => ?_
  split
  · exact .bind reads_advance fun _ => reads_variableNamed _
  · exact .ite
      (.bind reads_line fun _ => .bind reads_advance fun _ => .bind (hg.subexpr 0) fun _ =>
        .bind (reads_expectClosing _ _ _) fun _ => .bind (reads_settleHere _) fun _ => .pure _)
      (reads_failNear _)
  · exact reads_failNear _

theorem reads_argumentsAfter (waiting : Nat) : Reads (argumentsAfter g waiting) := by
  unfold argumentsAfter
  simp only [Std.Legacy.Range.forIn_eq_forIn_range']
  exact .releasing (.bind (.forIn _ fun _ _ => .bind reads_occupy fun _ => .pure _) fun _ =>
    reads_arguments hg)

theorem reads_suffixes (fuel : Nat) (e : Expr × Option Bytes) : Reads (suffixes g fuel e) := by
  induction fuel generalizing e with
  | zero => exact .pure e
  | succ fuel ih =>
    have hcall {fn : Expr} : Reads (do
        let fn ← settleHere fn
        let callLine ← line
        let args ← argumentsAfter g 1
        suffixes g fuel (.call fn args callLine, none)) :=
      .bind (reads_settleHere _) fun _ => .bind reads_line fun _ =>
        .bind (reads_argumentsAfter hg _) fun _ => ih _
    refine .bind reads_token fun _ => ?_
    split
    · exact hcall
    · exact .ite
        (.bind (reads_settleHere _) fun _ => .bind reads_advance fun _ =>
          .bind reads_expectName fun _ => ih _)
        (.ite
          (.bind (reads_settleHere _) fun _ => .bind reads_advance fun _ =>
            .bind (reads_after _ (hg.subexpr 0)) fun _ => .bind (reads_settleHere _) fun _ =>
              .bind (reads_expectChar _) fun _ => ih _)
          (.ite
            (.bind reads_advance fun _ => .bind reads_expectName fun _ =>
              .bind (reads_settleHere _) fun _ => .bind reads_lastLine fun _ => .bind reads_line fun _ =>
                .bind (reads_argumentsAfter hg _) fun _ => ih _)
            (.ite hcall (.pure _))))
    · exact .pure _

theorem reads_suffixed : Reads (suffixed g) :=
  .bind (reads_primary hg) fun _ => .bind reads_remaining fun _ => reads_suffixes hg _ _

end Operands

section Functions

theorem reads_parameterNames (fuel : Nat) : Reads (parameterNames fuel) := by
  induction fuel with
  | zero => exact .pure []
  | succ fuel ih =>
    refine .bind reads_token fun _ => ?_
    split
    · exact .bind reads_advance fun _ => .bind reads_awaitVariable fun _ =>
        .bind (reads_skipChar _) fun _ => .ite (.bind ih fun _ => .pure _) (.pure _)
    · exact .bind reads_advance fun _ => .bind (.modifyScope _) fun _ => .pure _
    · exact reads_failNear _

theorem reads_closeFunction (body : List Stat) (endLine : Nat) : Reads (closeFunction body endLine) := by
  refine .bind reads_leaveBlock fun _ => .scope fun f => .get fun s => ?_
  dsimp only
  split
  · exact .bind (.modify fun _ => rfl) fun _ => .pure _
  · exact reads_failRegisters

variable (hg : g.Reads)
include hg

theorem reads_statementsFrom (fuel : Nat) : Reads (statementsFrom g fuel) := by
  induction fuel with
  | zero => exact .pure []
  | succ fuel ih =>
    exact .bind (reads_atBlockEnd _) fun _ => .ite (.pure _)
      (.bind (reads_atKeyword _) fun _ => .ite hg.statement
        (.bind hg.statement fun _ => .bind ih fun _ => .pure _))

theorem reads_statements : Reads (statements g) := .bind reads_remaining fun _ => reads_statementsFrom hg _

theorem reads_functionBody (isMethod : Bool) (start : Nat) : Reads (functionBody g isMethod start) := by
  refine .bind (reads_openFunction _ _) fun _ => .bind (reads_expectChar _) fun _ => ?_
  -- Only a method has a variable before its parameters, and what comes after it is shared.
  extract_lets parameters
  have hparameters (self : List Nat) : Reads (parameters self) := by
    refine .bind (reads_atChar _) fun _ => ?_
    extract_lets inside
    have hinside (names : List Bytes) : Reads (inside names) :=
      .bind (reads_enterVariables _) fun _ => .bind (.modifyScope _) fun _ =>
        .bind (reads_expectChar _) fun _ => .bind (reads_statements hg) fun body =>
            .bind reads_line fun endLine => .bind (reads_expectEnd _ _ _) fun _ =>
              .bind (reads_closeFunction body endLine) fun _ =>
                .scope fun _ => .bind (.setScope _) fun _ => .pure _
    exact .ite (.bind (.pure _) hinside)
      (.bind reads_remaining fun _ => .bind (reads_parameterNames _) hinside)
  exact .ite
    (.bind reads_awaitVariable fun _ => .bind (reads_enterVariable _ _) fun _ => .bind (.pure _) hparameters)
    (.bind (.pure _) hparameters)

theorem reads_simple : Reads (simple g) := by
  refine .bind reads_token fun _ => ?_
  split
  · exact .bind reads_advance fun _ => .pure _
  · exact .bind reads_advance fun _ => .pure _
  · exact .bind reads_advance fun _ => .pure _
  · exact .bind reads_advance fun _ => .pure _
  · exact .bind reads_advance fun _ => .pure _
  · exact .scope fun _ =>
      .ite (.bind (reads_failNear _) fun _ => .bind reads_advance fun _ => .pure _)
        (.bind reads_advance fun _ => .pure _)
  · exact .bind reads_advance fun _ => .bind reads_line fun _ => .bind (reads_functionBody hg _ _) fun _ =>
      .pure _
  · exact reads_table hg
  · exact .bind (reads_suffixed hg) fun _ => .pure _

theorem reads_operations (limit fuel : Nat) (left : Expr) : Reads (operations g limit fuel left) := by
  induction fuel generalizing left with
  | zero => exact .pure left
  | succ fuel ih =>
    refine .bind reads_token fun _ => ?_
    split
    · refine .ite (.bind reads_line fun _ => .bind reads_advance fun _ =>
        .bind (reads_settleHere _) fun _ => ?_) (.pure _)
      extract_lets rest
      have hrest (right : Expr) : Reads (rest right) :=
        .bind (reads_settleHere _) fun _ => ih _
      split
      · exact .bind (reads_after _ (hg.subexpr _)) hrest
      · exact .bind (hg.subexpr _) hrest
    · exact .pure _

theorem reads_subexprWith (limit : Nat) : Reads (subexprWith g limit) := by
  refine .bind reads_token fun _ => ?_
  extract_lets rest
  have hrest (left : Expr) : Reads (rest left) :=
    .bind reads_remaining fun _ => reads_operations hg _ _ _
  split
  · exact .bind reads_line fun _ => .bind reads_advance fun _ => reads_settled hg _ fun _ =>
      .bind (.pure _) hrest
  · exact .bind (reads_simple hg) hrest

end Functions

end ScriptHost.Lua.Parser
