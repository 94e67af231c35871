import ScriptHost.Lua.Parser.Statement
import ScriptHost.Proofs.Lexing.Sequence
/-! What the parts of a script read. They go on from token to token, and never past a place where no token could be
read. -/
namespace ScriptHost.Lua.Parser
open Text (Bytes)

/-- The current token could be read. -/
def IsClear (tokens : List Lexeme) : Prop := ∀ lexeme ∈ tokens.head?, lexeme.IsReadable

/-- A part of a script reads the tokens in front of the one that it leaves as the current one. -/
def Reads {α : Type} (part : Parse α) : Prop :=
  ∀ s a s', IsClear s.tokens → part s = .ok (a, s') →
    IsClear s'.tokens ∧ ∃ read, s.tokens = read ++ s'.tokens ∧ ∀ lexeme ∈ read, lexeme.IsReadable

section Rules
variable {α β : Type} {part : Parse α}

theorem reads_of_tokens_eq (h : ∀ s a s', part s = .ok (a, s') → s'.tokens = s.tokens) : Reads part := by
  intro s a s' hs hpart
  rw [h s a s' hpart]
  exact ⟨hs, [], rfl, by simp⟩

theorem Reads.pure (a : α) : Reads (Pure.pure a : Parse α) := reads_of_tokens_eq fun s b s' h => by cases h; rfl

theorem Reads.throw (fault : Fault) : Reads (throw fault : Parse α) := reads_of_tokens_eq fun s a s' h => by cases h

theorem exists_of_bind {next : α → Parse β} {s s'' : State} {b : β} (h : (part >>= next) s = .ok (b, s'')) :
    ∃ a s', part s = .ok (a, s') ∧ next a s' = .ok (b, s'') := by
  change (part s >>= fun r => next r.1 r.2) = _ at h
  cases hpart : part s with
  | error fault =>
    rw [hpart] at h
    cases h
  | ok r =>
    rw [hpart] at h
    exact ⟨r.1, r.2, rfl, h⟩

theorem Reads.bind {next : α → Parse β} (h : Reads part) (hnext : ∀ a, Reads (next a)) : Reads (part >>= next) := by
  intro s b s'' hs hrun
  obtain ⟨a, s', hpart, hrun⟩ := exists_of_bind hrun
  obtain ⟨hclear, read, htokens, hread⟩ := h s a s' hs hpart
  obtain ⟨hclear', read', htokens', hread'⟩ := hnext a s' b s'' hclear hrun
  refine ⟨hclear', read ++ read', by rw [htokens, htokens', List.append_assoc], fun lexeme hmem => ?_⟩
  exact (List.mem_append.mp hmem).elim (hread lexeme) (hread' lexeme)

theorem Reads.ite {c : Prop} [Decidable c] {other : Parse α} (h : Reads part) (hother : Reads other) :
    Reads (if c then part else other) := by
  split <;> assumption

theorem Reads.mapM {f : α → Parse β} (h : ∀ a, Reads (f a)) (list : List α) : Reads (list.mapM f) := by
  induction list with
  | nil => exact .pure []
  | cons a list ih =>
    rw [List.mapM_cons]
    exact .bind (h a) fun _ => .bind ih fun _ => .pure _

/-- What a loop does again and again. -/
theorem Reads.forIn (list : List α) {f : α → PUnit → Parse (ForInStep PUnit)} (h : ∀ a u, Reads (f a u)) :
    Reads (ForIn.forIn list ⟨⟩ f) := by
  induction list with
  | nil => exact .pure _
  | cons a list ih =>
    rw [List.forIn_cons]
    refine .bind (h a _) fun step => ?_
    cases step with
    | done => exact .pure _
    | yield => exact ih

theorem Reads.get {next : State → Parse β} (h : ∀ s, Reads (next s)) : Reads (get >>= next) :=
  fun s => h s s

theorem Reads.modify {change : State → State} (h : ∀ s, (change s).tokens = s.tokens) :
    Reads (modify change : Parse Unit) :=
  reads_of_tokens_eq fun s a s' hrun => by cases hrun; exact h s

theorem Reads.scope {next : FunctionScope → Parse β} (h : ∀ f, Reads (next f)) : Reads (scope >>= next) := by
  refine .bind (.get fun s => ?_) h
  split <;> exact .pure _

theorem Reads.setScope (f : FunctionScope) : Reads (setScope f) := .modify fun _ => rfl

theorem Reads.modifyScope (change : FunctionScope → FunctionScope) : Reads (modifyScope change) :=
  .scope fun _ => .setScope _

theorem Reads.releasing (h : Reads part) : Reads (releasing part) :=
  .scope fun _ => .bind h fun _ => .bind (.modifyScope _) fun _ => .pure _

end Rules

section Tokens
variable {α : Type}

theorem reads_current : Reads current := .get fun _ => .pure _

theorem reads_token : Reads token := .bind reads_current fun _ => .pure _

theorem reads_line : Reads line := .bind reads_current fun _ => .pure _

theorem reads_lastLine : Reads lastLine := .get fun _ => .pure _

theorem reads_remaining : Reads remaining := .get fun _ => .pure _

theorem reads_failPlain (message : Bytes) : Reads (failPlain message : Parse α) := .bind reads_line fun _ => .throw _

theorem reads_failNear (message : Bytes) : Reads (failNear message : Parse α) := .bind reads_current fun _ => .throw _

/-- What has been looked at could be read. -/
theorem checkReadable_ok {lexeme? : Option Lexeme} {s s' : State} {u : Unit}
    (h : checkReadable lexeme? s = .ok (u, s')) : s' = s ∧ ∀ lexeme ∈ lexeme?, lexeme.IsReadable := by
  unfold checkReadable at h
  split at h
  · cases h
  · next hreadable =>
    cases h
    refine ⟨rfl, fun lexeme hlexeme message htoken => ?_⟩
    obtain ⟨token, line, spelling⟩ := lexeme
    cases htoken
    exact hreadable message line spelling hlexeme

theorem reads_checkReadable (lexeme? : Option Lexeme) : Reads (checkReadable lexeme?) :=
  reads_of_tokens_eq fun s a s' h => by rw [(checkReadable_ok h).1]

/-- The next token becomes the current one only if it could be read. -/
theorem reads_advance : Reads advance := by
  intro s a s' hs h
  obtain ⟨rfl, hclear⟩ := checkReadable_ok (s := { s with
    tokens := s.tokens.tail, lastLine := (s.tokens.head?.getD (Lexeme.none s.lastLine)).line }) h
  refine ⟨hclear, s.tokens.head?.toList, ?_, fun lexeme hmem => hs lexeme (Option.mem_toList.mp hmem)⟩
  cases s.tokens <;> rfl

theorem reads_atChar (c : Char) : Reads (atChar c) := .bind reads_token fun _ => .pure _

theorem reads_atKeyword (k : Keyword) : Reads (atKeyword k) := .bind reads_token fun _ => .pure _

theorem reads_isBeforeEquals : Reads isBeforeEquals := .get fun _ => .bind (reads_checkReadable _) fun _ => .pure _

theorem reads_skipChar (c : Char) : Reads (skipChar c) :=
  .bind (reads_atChar c) fun _ => .ite (.bind reads_advance fun _ => .pure true) (.pure false)

theorem reads_skipKeyword (k : Keyword) : Reads (skipKeyword k) :=
  .bind (reads_atKeyword k) fun _ => .ite (.bind reads_advance fun _ => .pure true) (.pure false)

theorem reads_failExpected (expected : Bytes) : Reads (failExpected expected : Parse α) := reads_failNear _

theorem reads_expectChar (c : Char) : Reads (expectChar c) :=
  .bind (reads_skipChar c) fun _ => .ite (reads_failExpected _) (.pure ())

theorem reads_expectKeyword (k : Keyword) : Reads (expectKeyword k) :=
  .bind (reads_skipKeyword k) fun _ => .ite (reads_failExpected _) (.pure ())

theorem reads_failUnclosed (expected opened : Bytes) (opening : Nat) :
    Reads (failUnclosed expected opened opening : Parse α) :=
  .bind reads_line fun _ => .ite (reads_failExpected _) (reads_failNear _)

theorem reads_expectClosing (close opened : Char) (opening : Nat) : Reads (expectClosing close opened opening) :=
  .bind (reads_skipChar close) fun _ => .ite (reads_failUnclosed _ _ _) (.pure ())

theorem reads_expectEnd (close opened : Keyword) (opening : Nat) : Reads (expectEnd close opened opening) :=
  .bind (reads_skipKeyword close) fun _ => .ite (reads_failUnclosed _ _ _) (.pure ())

theorem reads_expectName : Reads expectName := by
  refine .bind reads_token fun _ => ?_
  split
  · exact .bind reads_advance fun _ => .pure _
  · exact reads_failExpected _

theorem reads_atBlockEnd (withUntil : Bool) : Reads (atBlockEnd withUntil) := by
  refine .bind reads_token fun _ => ?_
  split <;> exact .pure _

theorem reads_failLimit (what : String) (limit lineDefined : Nat) :
    Reads (failLimit what limit lineDefined : Parse α) :=
  reads_failNear _

theorem reads_failRegisters : Reads (failRegisters : Parse α) := reads_failNear _

end Tokens

section Scopes
variable {α : Type}

theorem reads_occupy : Reads occupy :=
  .scope fun f => .ite reads_failRegisters (.setScope { f with waiting := f.waiting + 1 })

theorem reads_awaitVariable : Reads awaitVariable :=
  .scope fun f => .ite (reads_failLimit _ _ _) (.setScope { f with awaiting := f.awaiting + 1 })

theorem reads_enterVariable (name : Bytes) (kind : VariableKind) : Reads (enterVariable name kind) :=
  .scope fun f => .bind (.setScope { f with
    declared := ⟨name, kind, f.declNames.size⟩ :: f.declared
    awaiting := f.awaiting - 1
    declNames := f.declNames.push name }) fun _ => .pure _

theorem reads_enterVariables (list : List (Bytes × VariableKind)) : Reads (enterVariables list) :=
  .mapM (fun _ => reads_enterVariable _ _) list

theorem reads_awaitHidden (count : Nat) : Reads (awaitHidden count) := by
  unfold awaitHidden
  simp only [Std.Legacy.Range.forIn_eq_forIn_range']
  exact .bind (.forIn _ fun _ _ => .bind reads_awaitVariable fun _ => .pure _) fun _ => .pure ()

theorem reads_enterHidden (count : Nat) : Reads (enterHidden count) := by
  unfold enterHidden
  simp only [Std.Legacy.Range.forIn_eq_forIn_range']
  exact .bind (.forIn _ fun _ _ => .bind (reads_enterVariable _ _) fun _ => .pure _) fun _ => .pure ()

theorem reads_enterBlock (isLoop : Bool) : Reads (enterBlock isLoop) := .modifyScope _

theorem reads_addLabel (name : Bytes) (labelLine level : Nat) : Reads (addLabel name labelLine level) := by
  refine .scope fun f => ?_
  cases f.addLabel name labelLine level with
  | error jump => exact reads_failPlain _
  | ok r => exact .bind (.setScope r.2) fun _ => .pure r.1

private theorem reads_closeBlock (number : Nat) :
    let closing : Parse Nat := do
      match (← scope).closeBlock with
      | .ok s =>
        setScope s
        return number
      | .error jump =>
        if jump.name == breakName then failPlain s!"break outside loop at line {jump.line}".toUTF8
        else
          failPlain ("no visible label '".toUTF8 ++ jump.name ++ s!"' for <goto> at line {jump.line}".toUTF8)
    Reads closing := by
  refine .scope fun f => ?_
  cases f.closeBlock with
  | error jump => exact .ite (reads_failPlain _) (reads_failPlain _)
  | ok f' => exact .bind (.setScope f') fun _ => .pure number

theorem reads_leaveBlock : Reads leaveBlock :=
  .bind (.modifyScope _) fun _ => .scope fun _ =>
    .ite (.bind (reads_addLabel _ _ _) reads_closeBlock) (.bind (.pure 0) reads_closeBlock)

theorem reads_openFunction (lineDefined : Nat) (isVararg : Bool) : Reads (openFunction lineDefined isVararg) :=
  .modify fun _ => rfl

theorem reads_meaningOf (name : Bytes) : Reads (meaningOf name) := by
  refine .get fun s => ?_
  cases resolve name true s.scopes with
  | error lineDefined => exact reads_failLimit _ _ _
  | ok r => exact .bind (.modify fun _ => rfl) fun _ => .pure r.1

end Scopes

end ScriptHost.Lua.Parser
