import ScriptHost.Lua.Parser.Statement
import ScriptHost.Proofs.Naming.Compiling
/-! The name of a chunk and the reading of its text. The text is read in the same way whatever the name is. -/
namespace ScriptHost.Lua.Parser
open Text (Bytes)

/-- A function that has not ended, as it would be in a chunk of another name. -/
def FunctionScope.named (source : Bytes) (f : FunctionScope) : FunctionScope :=
  { f with children := f.children.map fun c => (c.1.named source, c.2) }

/-- What has been read, as it would be in a chunk of another name. -/
def State.named (source : Bytes) (s : State) : State :=
  { s with source, scopes := s.scopes.map (·.named source) }

/-- One part does in a chunk of another name what the other does. -/
def Mirrors {α : Type} (source : Bytes) (part part' : Parse α) : Prop :=
  ∀ s, part' (s.named source) = (part s).map fun r => (r.1, r.2.named source)

/-- A part does the same in a chunk of another name, and returns the same. -/
abbrev Nameless {α : Type} (source : Bytes) (part : Parse α) : Prop := Mirrors source part part

section Rules
variable {source : Bytes} {α β : Type} {part part' : Parse α}

theorem Mirrors.pure (a : α) : Nameless source (Pure.pure a) := fun _ => rfl

theorem Mirrors.throw (fault : Fault) : Nameless source (throw fault : Parse α) := fun _ => rfl

theorem map_eq (f : α → β) (part : Parse α) (s : State) :
    (f <$> part) s = (part s).map fun r => (f r.1, r.2) := by
  change (part s >>= fun r => Except.ok (f r.1, r.2)) = _
  cases part s <;> rfl

/-- What the parts return need not be the same, if what follows makes up for it. -/
theorem Mirrors.bind_map {rename : α → α} {next next' : α → Parse β} (h : Mirrors source (rename <$> part) part')
    (hnext : ∀ a, Mirrors source (next a) (next' (rename a))) :
    Mirrors source (part >>= next) (part' >>= next') := by
  intro s
  have h := h s
  rw [map_eq] at h
  change part' (s.named source) >>= (fun r => next' r.1 r.2) = (part s >>= fun r => next r.1 r.2).map _
  rw [h]
  cases part s with
  | error fault => rfl
  | ok r => exact hnext r.1 r.2

theorem Mirrors.bind {next next' : α → Parse β} (h : Mirrors source part part')
    (hnext : ∀ a, Mirrors source (next a) (next' a)) : Mirrors source (part >>= next) (part' >>= next') :=
  have h : Mirrors source (id <$> part) part' := by rwa [id_map]
  h.bind_map hnext

theorem Mirrors.ite {c : Prop} [Decidable c] {other other' : Parse α} (h : Mirrors source part part')
    (hother : Mirrors source other other') :
    Mirrors source (if c then part else other) (if c then part' else other') := by
  split <;> assumption

theorem Mirrors.mapM {f : α → Parse β} (h : ∀ a, Nameless source (f a)) (list : List α) :
    Nameless source (list.mapM f) := by
  induction list with
  | nil => exact .pure []
  | cons a list ih =>
    rw [List.mapM_cons]
    exact .bind (h a) fun _ => .bind ih fun _ => .pure _

theorem Mirrors.get {next next' : State → Parse β} (h : ∀ s, Mirrors source (next s) (next' (s.named source))) :
    Mirrors source (get >>= next) (get >>= next') :=
  .bind_map (fun _ => rfl) h

theorem Mirrors.modify {change change' : State → State}
    (h : ∀ s, change' (s.named source) = (change s).named source) :
    Mirrors source (modify change : Parse Unit) (modify change') :=
  fun s => congrArg (fun s => Except.ok ((), s)) (h s)

private theorem scope_eq (s : State) :
    scope s = .ok (s.scopes.head?.getD { lineDefined := 0, isVararg := true }, s) := by
  obtain ⟨source, tokens, lastLine, scopes⟩ := s
  cases scopes <;> rfl

theorem Mirrors.scope {next next' : FunctionScope → Parse β}
    (h : ∀ f, Mirrors source (next f) (next' (f.named source))) :
    Mirrors source (scope >>= next) (scope >>= next') := by
  refine .bind_map (fun s => ?_) h
  rw [map_eq, scope_eq, scope_eq]
  cases hs : s.scopes <;> simp [State.named, FunctionScope.named, hs, Except.map]

theorem Mirrors.setScope (f : FunctionScope) : Mirrors source (setScope f) (setScope (f.named source)) :=
  .modify fun s => by simp [State.named]

theorem Mirrors.modifyScope {change : FunctionScope → FunctionScope}
    (h : ∀ f, change (f.named source) = (change f).named source) :
    Nameless source (modifyScope change) :=
  .scope fun f => by rw [h]; exact .setScope _

end Rules

section Tokens
variable {source : Bytes} {α : Type}

theorem nameless_current : Nameless source current := .get fun _ => .pure _

theorem nameless_token : Nameless source token := .bind nameless_current fun _ => .pure _

theorem nameless_line : Nameless source line := .bind nameless_current fun _ => .pure _

theorem nameless_lastLine : Nameless source lastLine := .get fun _ => .pure _

theorem nameless_remaining : Nameless source remaining := .get fun _ => .pure _

theorem nameless_failPlain (message : Bytes) : Nameless source (failPlain message : Parse α) :=
  .bind nameless_line fun _ => .throw _

theorem nameless_failNear (message : Bytes) : Nameless source (failNear message : Parse α) :=
  .bind nameless_current fun _ => .throw _

theorem nameless_checkReadable (lexeme? : Option Lexeme) : Nameless source (checkReadable lexeme?) := by
  unfold checkReadable
  split
  · exact .throw _
  · exact .pure ()

theorem nameless_advance : Nameless source advance :=
  .bind nameless_current fun _ => .bind (.modify fun _ => rfl) fun _ => .get fun _ => nameless_checkReadable _

theorem nameless_atChar (c : Char) : Nameless source (atChar c) := .bind nameless_token fun _ => .pure _

theorem nameless_atKeyword (k : Keyword) : Nameless source (atKeyword k) :=
  .bind nameless_token fun _ => .pure _

theorem nameless_isBeforeEquals : Nameless source isBeforeEquals :=
  .get fun _ => .bind (nameless_checkReadable _) fun _ => .pure _

theorem nameless_skipChar (c : Char) : Nameless source (skipChar c) :=
  .bind (nameless_atChar c) fun _ => .ite (.bind nameless_advance fun _ => .pure true) (.pure false)

theorem nameless_skipKeyword (k : Keyword) : Nameless source (skipKeyword k) :=
  .bind (nameless_atKeyword k) fun _ => .ite (.bind nameless_advance fun _ => .pure true) (.pure false)

theorem nameless_failExpected (expected : Bytes) : Nameless source (failExpected expected : Parse α) :=
  nameless_failNear _

theorem nameless_expectChar (c : Char) : Nameless source (expectChar c) :=
  .bind (nameless_skipChar c) fun _ => .ite (nameless_failExpected _) (.pure ())

theorem nameless_expectKeyword (k : Keyword) : Nameless source (expectKeyword k) :=
  .bind (nameless_skipKeyword k) fun _ => .ite (nameless_failExpected _) (.pure ())

theorem nameless_failUnclosed (expected opened : Bytes) (opening : Nat) :
    Nameless source (failUnclosed expected opened opening : Parse α) :=
  .bind nameless_line fun _ => .ite (nameless_failExpected _) (nameless_failNear _)

theorem nameless_expectClosing (close opened : Char) (opening : Nat) :
    Nameless source (expectClosing close opened opening) :=
  .bind (nameless_skipChar close) fun _ => .ite (nameless_failUnclosed _ _ _) (.pure ())

theorem nameless_expectEnd (close opened : Keyword) (opening : Nat) :
    Nameless source (expectEnd close opened opening) :=
  .bind (nameless_skipKeyword close) fun _ => .ite (nameless_failUnclosed _ _ _) (.pure ())

theorem nameless_expectName : Nameless source expectName := by
  refine .bind nameless_token fun _ => ?_
  split
  · exact .bind nameless_advance fun _ => .pure _
  · exact nameless_failExpected _

theorem nameless_atBlockEnd (withUntil : Bool) : Nameless source (atBlockEnd withUntil) := by
  refine .bind nameless_token fun _ => ?_
  split <;> exact .pure _

theorem nameless_failLimit (what : String) (limit lineDefined : Nat) :
    Nameless source (failLimit what limit lineDefined : Parse α) :=
  nameless_failNear _

theorem nameless_failRegisters : Nameless source (failRegisters : Parse α) := nameless_failNear _

end Tokens

section Scopes
variable {source : Bytes} {α : Type}

theorem nameless_occupy : Nameless source occupy :=
  .scope fun f => .ite nameless_failRegisters (.setScope { f with waiting := f.waiting + 1 })

theorem Mirrors.releasing {part : Parse α} (h : Nameless source part) : Nameless source (releasing part) :=
  .scope fun _ => .bind h fun _ => .bind (.modifyScope fun _ => rfl) fun _ => .pure _

theorem nameless_awaitVariable : Nameless source awaitVariable :=
  .scope fun f => .ite (nameless_failLimit _ _ _) (.setScope { f with awaiting := f.awaiting + 1 })

theorem nameless_enterVariable (name : Bytes) (kind : VariableKind) :
    Nameless source (enterVariable name kind) :=
  .scope fun f => .bind (.setScope { f with
    declared := ⟨name, kind, f.declNames.size⟩ :: f.declared
    awaiting := f.awaiting - 1
    declNames := f.declNames.push name }) fun _ => .pure _

theorem nameless_enterVariables (list : List (Bytes × VariableKind)) : Nameless source (enterVariables list) :=
  .mapM (fun _ => nameless_enterVariable _ _) list

/-- What a loop does again and again. -/
theorem Mirrors.forIn (list : List α) {f : α → PUnit → Parse (ForInStep PUnit)}
    (h : ∀ a u, Nameless source (f a u)) : Nameless source (ForIn.forIn list ⟨⟩ f) := by
  induction list with
  | nil => exact .pure _
  | cons a list ih =>
    rw [List.forIn_cons]
    refine .bind (h a _) fun step => ?_
    cases step with
    | done => exact .pure _
    | yield => exact ih

theorem nameless_awaitHidden (count : Nat) : Nameless source (awaitHidden count) := by
  unfold awaitHidden
  simp only [Std.Legacy.Range.forIn_eq_forIn_range']
  exact .bind (.forIn _ fun _ _ => .bind nameless_awaitVariable fun _ => .pure _) fun _ => .pure ()

theorem nameless_enterHidden (count : Nat) : Nameless source (enterHidden count) := by
  unfold enterHidden
  simp only [Std.Legacy.Range.forIn_eq_forIn_range']
  exact .bind (.forIn _ fun _ _ => .bind (nameless_enterVariable _ _) fun _ => .pure _) fun _ => .pure ()

theorem nameless_enterBlock (isLoop : Bool) : Nameless source (enterBlock isLoop) :=
  .modifyScope fun _ => rfl

theorem FunctionScope.modifyBlock_named (f : FunctionScope) (change : Block → Block) :
    (f.named source).modifyBlock change = (f.modifyBlock change).named source := by
  simp only [modifyBlock, named]
  split <;> rfl

theorem FunctionScope.addLabel_named (f : FunctionScope) (name : Bytes) (labelLine level : Nat) :
    (f.named source).addLabel name labelLine level =
      (f.addLabel name labelLine level).map fun r => (r.1, r.2.named source) := by
  have hblocks : (f.named source).blocks = f.blocks := rfl
  simp only [addLabel, modifyBlock_named, hblocks]
  split <;> rfl

theorem FunctionScope.addPending_named (f : FunctionScope) (name : Bytes) (line : Nat) :
    (f.named source).addPending name line =
      ((f.addPending name line).1, (f.addPending name line).2.named source) := by
  simp only [addPending, modifyBlock_named]
  rfl

theorem nameless_addLabel (name : Bytes) (labelLine level : Nat) :
    Nameless source (addLabel name labelLine level) := by
  refine .scope fun f => ?_
  rw [FunctionScope.addLabel_named]
  cases f.addLabel name labelLine level with
  | error jump => exact nameless_failPlain _
  | ok r => exact .bind (.setScope r.2) fun _ => .pure r.1

theorem FunctionScope.closeBlock_named (f : FunctionScope) :
    (f.named source).closeBlock = f.closeBlock.map (·.named source) := by
  simp only [closeBlock, named]
  split
  · rfl
  · split <;> rfl
  · rfl

theorem FunctionScope.dropVariables_named (f : FunctionScope) :
    (f.named source).dropVariables = f.dropVariables.named source := by
  simp only [dropVariables, named]
  split <;> rfl

private theorem nameless_closeBlock (number : Nat) :
    let closing : Parse Nat := do
      match (← scope).closeBlock with
      | .ok s =>
        setScope s
        return number
      | .error jump =>
        if jump.name == breakName then failPlain s!"break outside loop at line {jump.line}".toUTF8
        else
          failPlain ("no visible label '".toUTF8 ++ jump.name ++ s!"' for <goto> at line {jump.line}".toUTF8)
    Nameless source closing := by
  refine .scope fun f => ?_
  rw [FunctionScope.closeBlock_named]
  cases f.closeBlock with
  | error jump => exact .ite (nameless_failPlain _) (nameless_failPlain _)
  | ok f' => exact .bind (.setScope f') fun _ => .pure number

theorem nameless_leaveBlock : Nameless source leaveBlock :=
  .bind (.modifyScope FunctionScope.dropVariables_named) fun _ => .scope fun _ =>
    .ite (.bind (nameless_addLabel _ _ _) nameless_closeBlock) (.bind (.pure 0) nameless_closeBlock)

theorem nameless_openFunction (lineDefined : Nat) (isVararg : Bool) :
    Nameless source (openFunction lineDefined isVararg) :=
  .modify fun s => by simp [State.named, FunctionScope.named, FunctionScope.enterBlock]

theorem FunctionScope.markCaptured_named (f : FunctionScope) (decl : Nat) :
    (f.named source).markCaptured decl = (f.markCaptured decl).named source := by
  have hcaptured : (f.named source).captured = f.captured := rfl
  simp only [markCaptured, hcaptured]
  split <;> rfl

theorem resolve_named (name : Bytes) (isInnermost : Bool) (scopes : List FunctionScope) :
    resolve name isInnermost (scopes.map (·.named source)) =
      (resolve name isInnermost scopes).map fun r => (r.1, r.2.map (·.named source)) := by
  induction scopes generalizing isInnermost with
  | nil => rfl
  | cons f outer ih =>
    have hlocal : (f.named source).findLocal? name = f.findLocal? name := rfl
    have hupvalue : (f.named source).findUpvalue? name = f.findUpvalue? name := rfl
    rw [List.map_cons]
    simp only [resolve, hlocal, hupvalue, FunctionScope.markCaptured_named]
    split
    · cases isInnermost <;> rfl
    · rfl
    · split
      · rfl
      · rw [ih]
        cases resolve name false outer with
        | error lineDefined => rfl
        | ok r =>
          obtain ⟨meaning, outer⟩ := r
          have hsize : (f.named source).upvalues = f.upvalues := rfl
          by_cases hfull : upvalueLimit ≤ f.upvalues.size <;> cases meaning <;>
            simp only [Except.map, bind, Except.bind, hsize, hfull, if_true, if_false] <;> rfl

theorem nameless_meaningOf (name : Bytes) : Nameless source (meaningOf name) := by
  refine .get fun s => ?_
  rw [show (s.named source).scopes = s.scopes.map (·.named source) from rfl, resolve_named]
  cases resolve name true s.scopes with
  | error lineDefined => exact nameless_failLimit _ _ _
  | ok r => exact .bind (.modify fun _ => rfl) fun _ => .pure r.1

end Scopes

end ScriptHost.Lua.Parser
