import ScriptHost.Proofs.Loading
import ScriptHost.Proofs.Parsing.Expression
/-! What statements read, and that a script is read to its end. -/
namespace ScriptHost.Lua.Parser
open Text (Bytes)
variable {g : Grammar}

theorem reads_checkTarget (e : Expr) (known : Option Bytes) : Reads (checkTarget e known) := by
  refine .scope fun f => ?_
  extract_lets rest
  have hrest (readOnly? : Option Bytes) : Reads (rest readOnly?) := by
    cases readOnly? with
    | some name => exact reads_failPlain _
    | none => exact .pure ()
  split
  · exact .bind (.pure _) hrest
  · exact .bind (.pure _) hrest
  · exact .bind (.pure _) hrest
  · exact .bind (.pure _) hrest
  · exact .bind (reads_failNear _) hrest

section Statements
variable (hg : g.Reads)
include hg

theorem reads_assignmentWith (before : List Expr) (target : Expr × Option Bytes) :
    Reads (assignmentWith g before target) :=
  .bind (reads_checkTarget _ _) fun _ => .bind (reads_skipChar _) fun _ =>
    .ite (.bind (reads_suffixed hg) fun _ => hg.assignment _ _)
      (.bind (reads_expectChar _) fun _ => .bind (reads_settledExpressions hg _) fun _ => .pure _)

theorem reads_expressionStatement : Reads (expressionStatement g) := by
  refine .bind (reads_suffixed hg) fun _ => .bind (reads_atChar _) fun _ => .bind (reads_atChar _) fun _ =>
    .ite (.bind (reads_assignmentWith hg _ _) fun _ => .bind reads_lastLine fun _ => .pure _) ?_
  split
  · exact .pure _
  · exact .pure _
  · exact reads_failNear _

theorem reads_blockOf : Reads (blockOf g) :=
  .bind (reads_enterBlock _) fun _ => .bind (reads_statements hg) fun _ => .bind reads_lastLine fun _ =>
    .bind reads_leaveBlock fun _ => .pure _

theorem reads_clauses (fuel : Nat) : Reads (clauses g fuel) := by
  induction fuel with
  | zero => exact .pure []
  | succ fuel ih =>
    exact .bind reads_advance fun _ => .bind (hg.subexpr 0) fun _ => .bind (reads_expectKeyword _) fun _ =>
      .bind (reads_settleHere _) fun _ => .bind (reads_blockOf hg) fun _ =>
        .bind (reads_atKeyword _) fun _ => .ite (.bind ih fun _ => .pure _)
          (.bind (reads_skipKeyword _) fun _ => .ite (.bind (reads_blockOf hg) fun _ => .pure _) (.pure _))

theorem reads_conditional (start : Nat) : Reads (conditional g start) :=
  .bind reads_remaining fun _ => .bind (reads_clauses hg _) fun _ => .bind (reads_expectEnd _ _ _) fun _ =>
    .pure _

theorem reads_whileLoop (start : Nat) : Reads (whileLoop g start) :=
  .bind reads_advance fun _ => reads_settled hg 0 fun _ => .bind (reads_enterBlock _) fun _ =>
    .bind (reads_expectKeyword _) fun _ => .bind (reads_blockOf hg) fun _ => .bind reads_lastLine fun _ =>
      .bind (reads_expectEnd _ _ _) fun _ => .bind reads_leaveBlock fun _ => .pure _

theorem reads_repeatLoop (start : Nat) : Reads (repeatLoop g start) :=
  .bind (reads_enterBlock _) fun _ => .bind (reads_enterBlock _) fun _ => .bind reads_advance fun _ =>
    .bind (reads_statements hg) fun _ => .bind (reads_expectEnd _ _ _) fun _ => reads_settled hg 0 fun _ =>
      .bind reads_lastLine fun _ => .bind reads_leaveBlock fun _ => .bind reads_leaveBlock fun _ => .pure _

theorem reads_loopBody (names : List Bytes) : Reads (loopBody g names) :=
  .bind (reads_expectKeyword _) fun _ => .bind reads_lastLine fun _ => .bind (reads_enterBlock _) fun _ =>
    .bind (reads_enterVariables _) fun _ => .bind (reads_blockOf hg) fun _ =>
      .bind reads_leaveBlock fun _ => .pure _

theorem reads_oneValue : Reads (oneValue g) := .bind (hg.subexpr 0) fun _ => reads_settleHere _

theorem reads_numericLoop (name : Bytes) (start : Nat) : Reads (numericLoop g name start) := by
  refine .bind (reads_awaitHidden _) fun _ => .bind reads_awaitVariable fun _ =>
    .bind (reads_expectChar _) fun _ => .bind (reads_oneValue hg) fun first =>
      .bind (reads_expectChar _) fun _ => .bind (reads_oneValue hg) fun limit =>
        .bind (reads_skipChar _) fun _ => ?_
  extract_lets rest
  have hrest (step : Option Expr) : Reads (rest step) :=
    .bind (reads_enterHidden _) fun _ => .bind (reads_loopBody hg _) fun _ => .pure _
  exact .ite (.bind (reads_oneValue hg) fun _ => .bind (.pure _) hrest) (.bind (.pure _) hrest)

omit hg in
theorem reads_moreNames (fuel : Nat) : Reads (moreNames fuel) := by
  induction fuel with
  | zero => exact .pure []
  | succ fuel ih =>
    exact .bind (reads_skipChar _) fun _ =>
      .ite (.bind reads_expectName fun _ => .bind reads_awaitVariable fun _ => .bind ih fun _ => .pure _)
        (.pure _)

theorem reads_genericLoop (name : Bytes) : Reads (genericLoop g name) :=
  .bind (reads_awaitHidden _) fun _ => .bind reads_awaitVariable fun _ => .bind reads_remaining fun _ =>
    .bind (reads_moreNames _) fun _ => .bind (reads_expectKeyword _) fun _ => .bind reads_line fun _ =>
      .bind (reads_settledExpressions hg _) fun _ => .bind (reads_enterHidden _) fun _ =>
        .bind (.modifyScope _) fun _ =>
          .bind (reads_loopBody hg _) fun _ => .pure _

theorem reads_forLoop (start : Nat) : Reads (forLoop g start) := by
  refine .bind (reads_enterBlock _) fun _ => .bind reads_advance fun _ => .bind reads_expectName fun _ =>
    .bind reads_token fun _ => ?_
  extract_lets rest
  have hrest (loop : Nat → Stat) : Reads (rest loop) :=
    .bind (reads_expectEnd _ _ _) fun _ => .bind reads_leaveBlock fun _ => .pure _
  split
  · exact .bind (reads_numericLoop hg _ _) hrest
  · exact .bind (reads_genericLoop hg _) hrest
  · exact .bind (reads_genericLoop hg _) hrest
  · exact .bind (reads_failNear _) hrest

omit hg in
theorem reads_functionName (fuel : Nat) (e : Expr) : Reads (functionName fuel e) := by
  induction fuel generalizing e with
  | zero => exact .pure _
  | succ fuel ih =>
    exact .bind (reads_atChar _) fun _ => .bind (reads_atChar _) fun _ =>
      .ite
        (.bind (reads_settleHere _) fun _ => .bind reads_advance fun _ =>
          .bind reads_expectName fun _ => .ite (.pure _) (ih _))
        (.pure _)

theorem reads_functionStatement (start : Nat) : Reads (functionStatement g start) :=
  .bind reads_advance fun _ => .bind reads_expectName fun _ => .bind (reads_variableNamed _) fun _ =>
    .bind (reads_atChar _) fun _ => .bind (reads_atChar _) fun _ => .bind reads_remaining fun _ =>
      .bind (reads_functionName _ _) fun _ => .bind (reads_functionBody hg _ _) fun _ =>
        .bind (reads_checkTarget _ _) fun _ => .pure _

theorem reads_localFunction : Reads (localFunction g) :=
  .bind reads_expectName fun _ => .bind reads_awaitVariable fun _ =>
    .bind (reads_enterVariable _ _) fun _ => .bind reads_line fun _ =>
      .bind (reads_functionBody hg _ _) fun _ => .bind reads_lastLine fun _ => .pure _

omit hg in
theorem reads_variableKind : Reads variableKind :=
  .bind (reads_skipChar _) fun _ =>
    .ite
      (.bind reads_expectName fun _ => .bind (reads_expectChar _) fun _ =>
        .ite (.pure _) (.ite (.pure _) (reads_failPlain _)))
      (.pure _)

omit hg in
theorem reads_localNames (fuel : Nat) (hasToClose : Bool) : Reads (localNames fuel hasToClose) := by
  induction fuel generalizing hasToClose with
  | zero => exact .pure []
  | succ fuel ih =>
    refine .bind reads_expectName fun _ => .bind reads_awaitVariable fun _ =>
      .bind reads_variableKind fun _ => ?_
    extract_lets closes rest
    have hrest (u : Unit) : Reads (rest u) :=
      .bind (reads_skipChar _) fun _ => .ite (.bind (ih _) fun _ => .pure _) (.pure _)
    exact .ite (.bind (reads_failPlain _) hrest) (hrest ())

theorem reads_localStatement : Reads (localStatement g) := by
  refine .bind reads_remaining fun _ => .bind (reads_localNames _ _) fun _ =>
    .bind (reads_skipChar _) fun _ => ?_
  extract_lets rest
  have hrest (values : List Expr) : Reads (rest values) := by
    dsimp only [rest]
    split
    · exact .bind (reads_enterVariables _) fun _ => .bind (reads_enterVariable _ _) fun _ =>
        .bind reads_lastLine fun _ => .pure _
    · exact .bind (reads_enterVariables _) fun _ =>
        .ite
          (.bind (.modifyScope _) fun _ =>
            .bind reads_lastLine fun _ => .pure _)
          (.bind reads_lastLine fun _ => .pure _)
  exact .ite (.bind (reads_settledExpressions hg _) hrest) (.bind (.pure _) hrest)

theorem reads_emptyStatements (fuel : Nat) : Reads (emptyStatements g fuel) := by
  induction fuel with
  | zero => exact .pure []
  | succ fuel ih =>
    exact .bind reads_token fun _ => .ite (.bind hg.statement fun _ => .bind ih fun _ => .pure _) (.pure _)

theorem reads_labelStatement (start : Nat) : Reads (labelStatement g start) := by
  refine .bind reads_expectName fun name => .bind reads_token fun _ => ?_
  extract_lets rest
  have hrest (u : Unit) : Reads (rest u) := by
    refine .bind reads_remaining fun _ => .bind (reads_emptyStatements hg _) fun _ => .scope fun f => ?_
    split
    · exact .bind (reads_failPlain _) fun _ => .bind (reads_atBlockEnd _) fun _ =>
        .bind (reads_addLabel _ _ _) fun _ => .pure _
    · exact .bind (reads_atBlockEnd _) fun _ => .bind (reads_addLabel _ _ _) fun _ => .pure _
  split
  · exact .bind reads_advance hrest
  · exact .bind (reads_failExpected _) hrest

omit hg in
theorem reads_gotoStatement : Reads gotoStatement := by
  refine .bind reads_line fun start => .bind reads_expectName fun name => .scope fun f => ?_
  cases f.findLabel? name <;> exact .bind (.setScope _) fun _ => .bind reads_lastLine fun _ => .pure _

omit hg in
theorem reads_breakStatement (start : Nat) : Reads (breakStatement start) := by
  refine .bind reads_advance fun _ => .scope fun f => ?_
  exact .bind (.setScope _) fun _ => .bind reads_lastLine fun _ => .pure _

theorem reads_returnStatement : Reads (returnStatement g) := by
  refine .bind reads_advance fun _ => .bind (reads_atBlockEnd _) fun _ =>
    .bind (reads_atChar _) fun _ => ?_
  extract_lets rest
  have hrest (values : List Expr) : Reads (rest values) :=
    .bind reads_lastLine fun _ => .bind (reads_skipChar _) fun _ => .scope fun _ => .pure _
  exact .ite (.bind (.pure _) hrest) (.bind (reads_settledExpressions hg _) hrest)

theorem reads_statementWith : Reads (statementWith g) := by
  refine .bind reads_line fun _ => .bind reads_token fun _ => ?_
  split
  · exact .bind reads_advance fun _ => .pure _
  · exact .bind (reads_conditional hg _) fun _ => .pure _
  · exact .bind (reads_whileLoop hg _) fun _ => .pure _
  · exact .bind reads_advance fun _ => .bind (reads_blockOf hg) fun _ =>
      .bind (reads_expectEnd _ _ _) fun _ => .pure _
  · exact .bind (reads_forLoop hg _) fun _ => .pure _
  · exact .bind (reads_repeatLoop hg _) fun _ => .pure _
  · exact .bind (reads_functionStatement hg _) fun _ => .pure _
  · exact .bind reads_advance fun _ => .bind (reads_skipKeyword _) fun _ =>
      .ite (.bind (reads_localFunction hg) fun _ => .pure _)
        (.bind (reads_localStatement hg) fun _ => .pure _)
  · exact .bind reads_advance fun _ => reads_labelStatement hg _
  · exact .bind (reads_returnStatement hg) fun _ => .pure _
  · exact .bind (reads_breakStatement _) fun _ => .pure _
  · exact .bind reads_advance fun _ => .bind reads_gotoStatement fun _ => .pure _
  · exact reads_expressionStatement hg

end Statements

/-- However deep constructs are nested, what cannot be read is not passed. -/
theorem reads_grammar (levels : Nat) : (grammar levels).Reads := by
  induction levels with
  | zero => exact ⟨fun _ => .throw _, .throw _, fun _ _ => .throw _⟩
  | succ levels ih => exact ⟨reads_subexprWith ih, reads_statementWith ih, reads_assignmentWith ih⟩

/-- A script is read up to its end, and all that is in front of it could be read. -/
theorem script_ok {levels : Nat} {s s' : State} {proto : Proto} (h : script levels s = .ok (proto, s')) :
    ∃ read rest, s.tokens = read ++ rest ∧ (∀ lexeme ∈ read, lexeme.IsReadable) ∧
      ∀ lexeme ∈ rest.head?, lexeme.token = .endOfText := by
  obtain ⟨_, _, hget, hchecked⟩ := exists_of_bind h
  cases hget
  obtain ⟨_, start, hreadable, hstatements⟩ := exists_of_bind hchecked
  obtain ⟨body, behind, hbody, hend⟩ := exists_of_bind hstatements
  obtain ⟨rfl, hclear⟩ := checkReadable_ok hreadable
  obtain ⟨-, read, htokens, hread⟩ := reads_statements (reads_grammar levels) _ _ _ hclear hbody
  refine ⟨read, behind.tokens, htokens, hread, fun lexeme hlexeme => ?_⟩
  have htoken : token behind = .ok (lexeme.token, behind) := by
    change Except.ok ((behind.tokens.head?.getD _).token, behind) = _
    rw [Option.mem_def.mp hlexeme]
    rfl
  rw [bind_eq htoken] at hend
  cases h : lexeme.token with
  | endOfText => rfl
  | _ =>
    rw [h] at hend
    cases hend

end Parser

/-- The tokens of a script are read up to its end. -/
theorem IsScript.exists_read {text : Text.Bytes} (h : IsScript text) :
    ∃ read rest, (Lexer.tokens text).toList = read ++ rest ∧ (∀ lexeme ∈ read, lexeme.IsReadable) ∧
      ∀ lexeme ∈ rest.head?, lexeme.token = .endOfText := by
  obtain ⟨source, proto, hproto⟩ := h
  let start : Parser.State := ⟨source, (Lexer.tokens text).toList, 1, [Parser.scriptScope]⟩
  change (Parser.script Interpreter.chunkLevels start).map Prod.fst = _ at hproto
  cases hscript : Parser.script Interpreter.chunkLevels start with
  | error fault =>
    rw [hscript] at hproto
    cases hproto
  | ok result => exact Parser.script_ok hscript

/-- No token of a script is missing because it could not be read. -/
theorem IsScript.isReadable {text : Text.Bytes} (h : IsScript text) : Lexer.IsReadable (Lexer.tokens text) := by
  obtain ⟨lexemes, last, after, line, hlexes, -, htokens⟩ | ⟨lexemes, fault, hproper, htokens⟩ :=
    Lexer.tokens_cases text
  · rw [htokens]
    intro lexeme hmem message htoken
    obtain hmem | rfl := Array.mem_push.mp hmem
    · have hproper := Lexer.isProper_of_lexes hlexes lexeme (by simpa using hmem)
      rw [htoken] at hproper
      cases hproper
    · cases htoken
  -- The place where no token could be read is the last, so that the end of the script would be in front of it.
  · exfalso
    obtain ⟨read, rest, hread, hreadable, hend⟩ := h.exists_read
    have hmem (lexeme : Lexeme) : lexeme ∈ read ++ rest ↔ lexeme ∈ lexemes ∨ lexeme = fault.lexeme := by
      rw [← hread, htokens]
      simp
    cases rest with
    | nil => exact hreadable fault.lexeme (by simpa using (hmem _).mpr (.inr rfl)) fault.message rfl
    | cons lexeme rest =>
      have htoken := hend lexeme rfl
      obtain hlexeme | rfl := (hmem lexeme).mp (by simp)
      · have := hproper lexeme hlexeme
        rw [htoken] at this
        cases this
      · cases htoken

end ScriptHost.Lua
