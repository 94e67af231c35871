import ScriptHost.Proofs.Naming.Expression
/-! The name of a chunk and the reading of its statements. Whatever the name is, a text gives the same functions
with that name in them, or the same fault. -/
namespace ScriptHost.Lua.Parser
open Text (Bytes)
variable {source : Bytes} {g : Grammar}

theorem nameless_checkTarget (e : Expr) (known : Option Bytes) : Nameless source (checkTarget e known) := by
  refine .scope fun f => ?_
  extract_lets rest
  have hrest (readOnly? : Option Bytes) : Nameless source (rest readOnly?) := by
    cases readOnly? with
    | some name => exact nameless_failPlain _
    | none => exact .pure ()
  split
  · exact .bind (.pure _) hrest
  · exact .bind (.pure _) hrest
  · exact .bind (.pure _) hrest
  · exact .bind (.pure _) hrest
  · exact .bind (nameless_failNear _) hrest

section Statements
variable (hg : g.Nameless source)
include hg

theorem nameless_assignmentWith (before : List Expr) (target : Expr × Option Bytes) :
    Nameless source (assignmentWith g before target) :=
  .bind (nameless_checkTarget _ _) fun _ => .bind (nameless_skipChar _) fun _ =>
    .ite (.bind (nameless_suffixed hg) fun _ => hg.assignment _ _)
      (.bind (nameless_expectChar _) fun _ => .bind (nameless_settledExpressions hg _) fun _ => .pure _)

theorem nameless_expressionStatement : Nameless source (expressionStatement g) := by
  refine .bind (nameless_suffixed hg) fun _ => .bind (nameless_atChar _) fun _ => .bind (nameless_atChar _) fun _ =>
    .ite (.bind (nameless_assignmentWith hg _ _) fun _ => .bind nameless_lastLine fun _ => .pure _) ?_
  split
  · exact .pure _
  · exact .pure _
  · exact nameless_failNear _

theorem nameless_blockOf : Nameless source (blockOf g) :=
  .bind (nameless_enterBlock _) fun _ => .bind (nameless_statements hg) fun _ => .bind nameless_lastLine fun _ =>
    .bind nameless_leaveBlock fun _ => .pure _

theorem nameless_clauses (fuel : Nat) : Nameless source (clauses g fuel) := by
  induction fuel with
  | zero => exact .pure []
  | succ fuel ih =>
    exact .bind nameless_advance fun _ => .bind (hg.subexpr 0) fun _ => .bind (nameless_expectKeyword _) fun _ =>
      .bind (nameless_settleHere _) fun _ => .bind (nameless_blockOf hg) fun _ =>
        .bind (nameless_atKeyword _) fun _ => .ite (.bind ih fun _ => .pure _)
          (.bind (nameless_skipKeyword _) fun _ => .ite (.bind (nameless_blockOf hg) fun _ => .pure _) (.pure _))

theorem nameless_conditional (start : Nat) : Nameless source (conditional g start) :=
  .bind nameless_remaining fun _ => .bind (nameless_clauses hg _) fun _ => .bind (nameless_expectEnd _ _ _) fun _ =>
    .pure _

theorem nameless_whileLoop (start : Nat) : Nameless source (whileLoop g start) :=
  .bind nameless_advance fun _ => nameless_settled hg 0 fun _ => .bind (nameless_enterBlock _) fun _ =>
    .bind (nameless_expectKeyword _) fun _ => .bind (nameless_blockOf hg) fun _ => .bind nameless_lastLine fun _ =>
      .bind (nameless_expectEnd _ _ _) fun _ => .bind nameless_leaveBlock fun _ => .pure _

theorem nameless_repeatLoop (start : Nat) : Nameless source (repeatLoop g start) :=
  .bind (nameless_enterBlock _) fun _ => .bind (nameless_enterBlock _) fun _ => .bind nameless_advance fun _ =>
    .bind (nameless_statements hg) fun _ => .bind (nameless_expectEnd _ _ _) fun _ => nameless_settled hg 0 fun _ =>
      .bind nameless_lastLine fun _ => .bind nameless_leaveBlock fun _ => .bind nameless_leaveBlock fun _ => .pure _

theorem nameless_loopBody (names : List Bytes) : Nameless source (loopBody g names) :=
  .bind (nameless_expectKeyword _) fun _ => .bind nameless_lastLine fun _ => .bind (nameless_enterBlock _) fun _ =>
    .bind (nameless_enterVariables _) fun _ => .bind (nameless_blockOf hg) fun _ =>
      .bind nameless_leaveBlock fun _ => .pure _

theorem nameless_oneValue : Nameless source (oneValue g) :=
  .bind (hg.subexpr 0) fun _ => nameless_settleHere _

theorem nameless_numericLoop (name : Bytes) (start : Nat) : Nameless source (numericLoop g name start) := by
  refine .bind (nameless_awaitHidden _) fun _ => .bind nameless_awaitVariable fun _ =>
    .bind (nameless_expectChar _) fun _ => .bind (nameless_oneValue hg) fun first =>
      .bind (nameless_expectChar _) fun _ => .bind (nameless_oneValue hg) fun limit =>
        .bind (nameless_skipChar _) fun _ => ?_
  extract_lets rest
  have hrest (step : Option Expr) : Nameless source (rest step) :=
    .bind (nameless_enterHidden _) fun _ => .bind (nameless_loopBody hg _) fun _ => .pure _
  exact .ite (.bind (nameless_oneValue hg) fun _ => .bind (.pure _) hrest) (.bind (.pure _) hrest)

omit hg in
theorem nameless_moreNames (fuel : Nat) : Nameless source (moreNames fuel) := by
  induction fuel with
  | zero => exact .pure []
  | succ fuel ih =>
    exact .bind (nameless_skipChar _) fun _ =>
      .ite (.bind nameless_expectName fun _ => .bind nameless_awaitVariable fun _ => .bind ih fun _ => .pure _)
        (.pure _)

theorem nameless_genericLoop (name : Bytes) : Nameless source (genericLoop g name) :=
  .bind (nameless_awaitHidden _) fun _ => .bind nameless_awaitVariable fun _ => .bind nameless_remaining fun _ =>
    .bind (nameless_moreNames _) fun _ => .bind (nameless_expectKeyword _) fun _ => .bind nameless_line fun _ =>
      .bind (nameless_settledExpressions hg _) fun _ => .bind (nameless_enterHidden _) fun _ =>
        .bind (.modifyScope fun _ => FunctionScope.modifyBlock_named _ _) fun _ =>
          .bind (nameless_loopBody hg _) fun _ => .pure _

theorem nameless_forLoop (start : Nat) : Nameless source (forLoop g start) := by
  refine .bind (nameless_enterBlock _) fun _ => .bind nameless_advance fun _ => .bind nameless_expectName fun _ =>
    .bind nameless_token fun _ => ?_
  extract_lets rest
  have hrest (loop : Nat → Stat) : Nameless source (rest loop) :=
    .bind (nameless_expectEnd _ _ _) fun _ => .bind nameless_leaveBlock fun _ => .pure _
  split
  · exact .bind (nameless_numericLoop hg _ _) hrest
  · exact .bind (nameless_genericLoop hg _) hrest
  · exact .bind (nameless_genericLoop hg _) hrest
  · exact .bind (nameless_failNear _) hrest

omit hg in
theorem nameless_functionName (fuel : Nat) (e : Expr) : Nameless source (functionName fuel e) := by
  induction fuel generalizing e with
  | zero => exact .pure _
  | succ fuel ih =>
    exact .bind (nameless_atChar _) fun _ => .bind (nameless_atChar _) fun _ =>
      .ite
        (.bind (nameless_settleHere _) fun _ => .bind nameless_advance fun _ =>
          .bind nameless_expectName fun _ => .ite (.pure _) (ih _))
        (.pure _)

theorem nameless_functionStatement (start : Nat) : Nameless source (functionStatement g start) :=
  .bind nameless_advance fun _ => .bind nameless_expectName fun _ => .bind (nameless_variableNamed _) fun _ =>
    .bind (nameless_atChar _) fun _ => .bind (nameless_atChar _) fun _ => .bind nameless_remaining fun _ =>
      .bind (nameless_functionName _ _) fun _ => .bind (nameless_functionBody hg _ _) fun _ =>
        .bind (nameless_checkTarget _ _) fun _ => .pure _

theorem nameless_localFunction : Nameless source (localFunction g) :=
  .bind nameless_expectName fun _ => .bind nameless_awaitVariable fun _ =>
    .bind (nameless_enterVariable _ _) fun _ => .bind nameless_line fun _ =>
      .bind (nameless_functionBody hg _ _) fun _ => .bind nameless_lastLine fun _ => .pure _

omit hg in
theorem nameless_variableKind : Nameless source variableKind :=
  .bind (nameless_skipChar _) fun _ =>
    .ite
      (.bind nameless_expectName fun _ => .bind (nameless_expectChar _) fun _ =>
        .ite (.pure _) (.ite (.pure _) (nameless_failPlain _)))
      (.pure _)

omit hg in
theorem nameless_localNames (fuel : Nat) (hasToClose : Bool) :
    Nameless source (localNames fuel hasToClose) := by
  induction fuel generalizing hasToClose with
  | zero => exact .pure []
  | succ fuel ih =>
    refine .bind nameless_expectName fun _ => .bind nameless_awaitVariable fun _ =>
      .bind nameless_variableKind fun _ => ?_
    extract_lets closes rest
    have hrest (u : Unit) : Nameless source (rest u) :=
      .bind (nameless_skipChar _) fun _ => .ite (.bind (ih _) fun _ => .pure _) (.pure _)
    exact .ite (.bind (nameless_failPlain _) hrest) (hrest ())

theorem nameless_localStatement : Nameless source (localStatement g) := by
  refine .bind nameless_remaining fun _ => .bind (nameless_localNames _ _) fun _ =>
    .bind (nameless_skipChar _) fun _ => ?_
  extract_lets rest
  have hrest (values : List Expr) : Nameless source (rest values) := by
    dsimp only [rest]
    split
    · exact .bind (nameless_enterVariables _) fun _ => .bind (nameless_enterVariable _ _) fun _ =>
        .bind nameless_lastLine fun _ => .pure _
    · exact .bind (nameless_enterVariables _) fun _ =>
        .ite
          (.bind (.modifyScope fun _ => FunctionScope.modifyBlock_named _ _) fun _ =>
            .bind nameless_lastLine fun _ => .pure _)
          (.bind nameless_lastLine fun _ => .pure _)
  exact .ite (.bind (nameless_settledExpressions hg _) hrest) (.bind (.pure _) hrest)

theorem nameless_emptyStatements (fuel : Nat) : Nameless source (emptyStatements g fuel) := by
  induction fuel with
  | zero => exact .pure []
  | succ fuel ih =>
    exact .bind nameless_token fun _ => .ite (.bind hg.statement fun _ => .bind ih fun _ => .pure _) (.pure _)

theorem nameless_labelStatement (start : Nat) : Nameless source (labelStatement g start) := by
  refine .bind nameless_expectName fun name => .bind nameless_token fun _ => ?_
  extract_lets rest
  have hrest (u : Unit) : Nameless source (rest u) := by
    refine .bind nameless_remaining fun _ => .bind (nameless_emptyStatements hg _) fun _ => .scope fun f => ?_
    have hfind : (f.named source).findLabel? name = f.findLabel? name := rfl
    rw [hfind]
    split
    · exact .bind (nameless_failPlain _) fun _ => .bind (nameless_atBlockEnd _) fun _ =>
        .bind (nameless_addLabel _ _ _) fun _ => .pure _
    · exact .bind (nameless_atBlockEnd _) fun _ => .bind (nameless_addLabel _ _ _) fun _ => .pure _
  split
  · exact .bind nameless_advance hrest
  · exact .bind (nameless_failExpected _) hrest

omit hg in
theorem nameless_gotoStatement : Nameless source gotoStatement := by
  refine .bind nameless_line fun start => .bind nameless_expectName fun name => .scope fun f => ?_
  have hfind : (f.named source).findLabel? name = f.findLabel? name := rfl
  rw [hfind, FunctionScope.addPending_named]
  cases f.findLabel? name <;> exact .bind (.setScope _) fun _ => .bind nameless_lastLine fun _ => .pure _

omit hg in
theorem nameless_breakStatement (start : Nat) : Nameless source (breakStatement start) := by
  refine .bind nameless_advance fun _ => .scope fun f => ?_
  rw [FunctionScope.addPending_named]
  exact .bind (.setScope _) fun _ => .bind nameless_lastLine fun _ => .pure _

theorem nameless_returnStatement : Nameless source (returnStatement g) := by
  refine .bind nameless_advance fun _ => .bind (nameless_atBlockEnd _) fun _ =>
    .bind (nameless_atChar _) fun _ => ?_
  extract_lets rest
  have hrest (values : List Expr) : Nameless source (rest values) :=
    .bind nameless_lastLine fun _ => .bind (nameless_skipChar _) fun _ => .scope fun _ => .pure _
  exact .ite (.bind (.pure _) hrest) (.bind (nameless_settledExpressions hg _) hrest)

theorem nameless_statementWith : Nameless source (statementWith g) := by
  refine .bind nameless_line fun _ => .bind nameless_token fun _ => ?_
  split
  · exact .bind nameless_advance fun _ => .pure _
  · exact .bind (nameless_conditional hg _) fun _ => .pure _
  · exact .bind (nameless_whileLoop hg _) fun _ => .pure _
  · exact .bind nameless_advance fun _ => .bind (nameless_blockOf hg) fun _ =>
      .bind (nameless_expectEnd _ _ _) fun _ => .pure _
  · exact .bind (nameless_forLoop hg _) fun _ => .pure _
  · exact .bind (nameless_repeatLoop hg _) fun _ => .pure _
  · exact .bind (nameless_functionStatement hg _) fun _ => .pure _
  · exact .bind nameless_advance fun _ => .bind (nameless_skipKeyword _) fun _ =>
      .ite (.bind (nameless_localFunction hg) fun _ => .pure _)
        (.bind (nameless_localStatement hg) fun _ => .pure _)
  · exact .bind nameless_advance fun _ => nameless_labelStatement hg _
  · exact .bind (nameless_returnStatement hg) fun _ => .pure _
  · exact .bind (nameless_breakStatement _) fun _ => .pure _
  · exact .bind nameless_advance fun _ => .bind nameless_gotoStatement fun _ => .pure _
  · exact nameless_expressionStatement hg

end Statements

/-- However deep constructs are nested, the name makes no difference. -/
theorem nameless_grammar (levels : Nat) : (grammar levels).Nameless source := by
  induction levels with
  | zero => exact ⟨fun _ => .throw _, .throw _, fun _ _ => .throw _⟩
  | succ levels ih => exact ⟨nameless_subexprWith ih, nameless_statementWith ih, nameless_assignmentWith ih⟩

theorem mirrors_script (levels : Nat) :
    Mirrors source (Proto.named source <$> script levels) (script levels) := by
  simp only [script, map_bind]
  refine .get fun _ => .bind (nameless_checkReadable _) fun _ =>
    .bind (nameless_statements (nameless_grammar levels)) fun body => .bind nameless_token fun _ => ?_
  split
  · simp only [map_bind, map_pure]
    exact .bind nameless_lastLine fun endLine => .bind_map (mirrors_closeFunction body endLine) fun _ => .pure _
  · exact fun _ => rfl

end Parser

/-- A text under another name is the same function with that name in it, or has the same fault. -/
theorem Proto.ofText_named (source source' text : Text.Bytes) (levels : Nat) :
    Proto.ofText source' text levels = (Proto.ofText source text levels).map (·.named source') := by
  let start : Parser.State :=
    { source, tokens := (Lexer.tokens text).toList, lastLine := 1, scopes := [Parser.scriptScope] }
  have hstart : start.named source' = { start with source := source' } := by
    simp [start, Parser.State.named, Parser.FunctionScope.named, Parser.scriptScope]
  have hmirrors : Parser.Mirrors source' _ _ := Parser.mirrors_script levels
  have hscript := hmirrors start
  rw [Parser.map_eq, hstart] at hscript
  change (Parser.script levels { start with source := source' }).map (·.1) =
    ((Parser.script levels start).map (·.1)).map _
  rw [hscript]
  cases Parser.script levels start <;> rfl

end ScriptHost.Lua
