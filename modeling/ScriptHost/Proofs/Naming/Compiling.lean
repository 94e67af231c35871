import ScriptHost.Lua.Compiler.Statement
/-! The name of a chunk and compiled functions. It is noted in each function that the chunk gives, and no
instruction depends on it. -/
namespace ScriptHost.Lua
open Text (Bytes)

/-- A function as it would be in a chunk of another name. -/
def Proto.named (source : Bytes) (p : Proto) : Proto :=
  { p with source, children := p.children.attach.map fun ⟨child, _⟩ => child.named source }
termination_by p
decreasing_by
  rename_i h
  have hchild := Array.sizeOf_lt_of_mem h
  have hchildren : sizeOf p.children < sizeOf p := by
    cases p
    simp only [mk.sizeOf_spec]
    omega
  exact Nat.lt_trans hchild hchildren

theorem Proto.named_eq (source : Bytes) (p : Proto) :
    p.named source = { p with source, children := p.children.map (·.named source) } := by
  rw [named]
  simp

namespace Compiler

/-- A function that is still to be compiled, as it would be in a chunk of another name. -/
def Input.named (source : Bytes) (input : Input) : Input :=
  { input with source, children := input.children.map fun c => (c.1.named source, c.2) }

/-- Compiling that does not depend on the name of the chunk. -/
def Nameless {α : Type} (part : Compile α) : Prop := ∀ source input, part (input.named source) = part input

section Rules
variable {α β : Type} {part : Compile α}

theorem Nameless.pure (a : α) : Nameless (Pure.pure a) := fun _ _ => rfl

theorem Nameless.bind {next : α → Compile β} (h : Nameless part) (hnext : ∀ a, Nameless (next a)) :
    Nameless (part >>= next) := by
  intro source input
  change (part (input.named source) >>= fun a => next a (input.named source)) =
    (part input >>= fun a => next a input)
  rw [h source input]
  exact congrArg _ (funext fun a => hnext a source input)

theorem Nameless.ite {c : Prop} [Decidable c] {other : Compile α} (h : Nameless part) (hother : Nameless other) :
    Nameless (if c then part else other) := by
  split <;> assumption

theorem Nameless.mapM {f : α → Compile β} (h : ∀ a, Nameless (f a)) (list : List α) : Nameless (list.mapM f) := by
  induction list with
  | nil => exact .pure []
  | cons a list ih =>
    rw [List.mapM_cons]
    exact .bind (h a) fun _ => .bind ih fun _ => .pure _

theorem Nameless.forIn (list : List α) {f : α → β → Compile (ForInStep β)} (h : ∀ a b, Nameless (f a b)) (b : β) :
    Nameless (ForIn.forIn list b f) := by
  induction list generalizing b with
  | nil => exact .pure b
  | cons a list ih =>
    rw [List.forIn_cons]
    refine .bind (h a b) fun step => ?_
    cases step with
    | done b => exact .pure b
    | yield b => exact ih b

theorem Nameless.mapM_array {f : α → Compile β} (h : ∀ a, Nameless (f a)) (array : Array α) :
    Nameless (array.mapM f) := by
  rw [Array.mapM_eq_mapM_toList]
  exact .bind (.mapM h _) fun _ => .pure _

/-- What is read of the function must not be what depends on the name. -/
theorem Nameless.read {next : Input → Compile α} (hsame : ∀ source input, next (input.named source) = next input)
    (hnext : ∀ input, Nameless (next input)) : Nameless (read >>= next) := by
  intro source input
  change next (input.named source) (input.named source) = next input input
  rw [hsame, hnext]

theorem nameless_get : Nameless (get : Compile Progress) := fun _ _ => rfl

theorem nameless_set (p : Progress) : Nameless (set p : Compile Unit) := fun _ _ => rfl

theorem nameless_modify (change : Progress → Progress) : Nameless (modify change : Compile Unit) := fun _ _ => rfl

theorem nameless_failure : Nameless (failure : Compile α) := fun _ _ => rfl

end Rules

section Instructions

theorem nameless_touch (r : Nat) : Nameless (touch r) := .ite nameless_failure (nameless_modify _)

theorem nameless_emit (instr : Instr) (line : Nat) (names : List (Option OperandName)) :
    Nameless (emit instr line names) :=
  .bind nameless_get fun _ => .bind (nameless_modify _) fun _ => .pure _

theorem nameless_emitOnly (instr : Instr) (line : Nat) (names : List (Option OperandName)) :
    Nameless (emitOnly instr line names) :=
  .bind (nameless_emit _ _ _) fun _ => .pure ()

theorem nameless_here : Nameless here := .bind nameless_get fun _ => .pure _

theorem nameless_patch (places : List Nat) (target : Nat) : Nameless (patch places target) := nameless_modify _

theorem nameless_patchHere (places : List Nat) : Nameless (patchHere places) :=
  .bind nameless_here fun _ => nameless_patch _ _

theorem nameless_isCaptured (decl : Nat) : Nameless (isCaptured decl) := fun _ _ => rfl

theorem nameless_activate (decl r : Nat) : Nameless (activate decl r) :=
  .bind (nameless_touch r) fun _ => .bind (nameless_modify _) fun _ =>
    .bind (nameless_isCaptured decl) fun _ => .ite (nameless_emitOnly _ _ _) (.pure ())

theorem nameless_activateAll (decls : List Nat) (r : Nat) : Nameless (activateAll decls r) := by
  induction decls generalizing r with
  | nil => exact .pure r
  | cons decl decls ih => exact .bind (nameless_activate decl r) fun _ => ih _

theorem nameless_registerOf (decl : Nat) : Nameless (registerOf decl) := .bind nameless_get fun _ => .pure _

theorem nameless_placeOf (decl : Nat) : Nameless (placeOf decl) :=
  .bind (nameless_registerOf decl) fun _ => .bind (nameless_isCaptured decl) fun _ => .pure _

theorem nameless_declName (decl : Nat) : Nameless (declName decl) := fun _ _ => rfl

theorem nameless_upvalueName (place : Nat) : Nameless (upvalueName place) := fun _ _ => rfl

theorem nameless_captureSource (capture : Capture) : Nameless (captureSource capture) := by
  cases capture with
  | upvalue place => exact .pure _
  | «local» decl => exact .bind (nameless_registerOf decl) fun _ => .pure _

theorem nameless_nameIfPlain (e : Expr) : Nameless (nameIfPlain e) := by
  cases e with
  | «local» decl => exact nameless_declName decl
  | upvalue place => exact nameless_upvalueName place
  | _ => exact .pure _

theorem nameless_nameOf (e : Expr) : Nameless (nameOf e) := by
  fun_induction nameOf e with
  | case1 decl => exact .bind (nameless_declName decl) fun _ => .pure _
  | case2 place => exact .bind (nameless_upvalueName place) fun _ => .pure _
  | case4 object => exact .bind (nameless_nameIfPlain object) fun _ => .ite (.pure _) (.pure _)
  | case5 e ih => exact ih
  | _ => exact .pure _

end Instructions

section Expressions

theorem nameless_store (dst free : Nat) (value : Computed) : Nameless (store dst free value) := by
  cases value with
  | known source => exact .bind (nameless_touch dst) fun _ => nameless_emitOnly _ _ _
  | fixed => exact .bind (nameless_touch dst) fun _ => .ite (nameless_emitOnly _ _ _) (.pure ())
  | movable instr line names => exact .bind (nameless_touch dst) fun _ => nameless_emitOnly _ _ _

theorem nameless_finish (want : Want) (free : Nat) (value : Computed) : Nameless (finish want free value) := by
  have hstored (dst : Nat) (placed : Placed) : Nameless (do store dst free value; return placed) :=
    .bind (nameless_store _ _ _) fun _ => .pure placed
  have hjump (instr : Instr) : Nameless (do return { free, jumps := [← emit instr 0] } : Compile Placed) :=
    .bind (nameless_emit _ _ _) fun _ => .pure _
  unfold finish
  split
  · exact hstored _ _
  · exact hstored _ _
  · exact .pure _
  · exact hstored _ _
  · exact .ite (hjump _) (.pure _)
  · exact hjump _
  · exact .bind (nameless_store _ _ _) fun _ => hjump _

theorem nameless_finishCall (want : Want) (free : Nat) (args : Option Nat) (line : Nat)
    (name : Option OperandName) : Nameless (finishCall want free args line name) := by
  unfold finishCall
  split
  · exact .bind (nameless_emitOnly _ _ _) fun _ => .pure _
  · exact .bind (nameless_emitOnly _ _ _) fun _ => nameless_finish _ _ _

theorem nameless_takeConcat : Nameless takeConcat :=
  .bind nameless_get fun _ => .bind (nameless_modify _) fun _ => .pure _

/-- Of the functions inside a function only what they capture counts. -/
theorem captures_named (source : Bytes) (input : Input) (place : Nat) :
    ((input.named source).children[place]?.map (·.2)) = (input.children[place]?.map (·.2)) := by
  simp [Input.named, Function.comp_def]

mutual

theorem nameless_expr : ∀ (e : Expr) (want : Want) (free : Nat), Nameless (expr want free e)
  | .const _, _, _ => nameless_finish _ _ _
  | .local decl, _, _ => .bind (nameless_placeOf decl) fun _ => nameless_finish _ _ _
  | .upvalue _, _, _ => nameless_finish _ _ _
  | .vararg, want, _ => by
    cases want <;> simp only [expr]
    case values => exact .bind (nameless_touch _) fun _ => .bind (nameless_emitOnly _ _ _) fun _ => .pure _
    all_goals exact nameless_finish _ _ _
  | .function place, _, _ => by
    rw [expr]
    refine .read (fun source input => by rw [captures_named]) fun input => ?_
    exact .bind (.mapM_array nameless_captureSource _) fun _ => nameless_finish _ _ _
  | .index object key line, want, free => by
    -- The same follows whether the object is a variable that is used where it is or comes from an expression.
    have hindex (name : Option OperandName) (o : Placed) : Nameless (do
        let k ← expr .anywhere o.free key
        finish want free (.movable (.index · o.source k.source) line [name])) :=
      .bind (nameless_expr key _ _) fun _ => nameless_finish _ _ _
    rw [expr]
    refine .bind (nameless_nameOf object) fun name => ?_
    dsimp only
    split
    · exact .bind (.pure _) fun o => hindex name o
    · exact .bind (nameless_expr object _ _) fun o => hindex name o
  | .call fn args _, _, _ =>
    .bind (nameless_nameOf fn) fun _ => .bind (nameless_expr fn _ _) fun _ => .bind (nameless_exprs args _) fun _ =>
      nameless_finishCall _ _ _ _ _
  | .method object _ _ args _, _, _ =>
    .bind (nameless_nameOf object) fun _ => .bind (nameless_expr object _ _) fun _ =>
      .bind (nameless_touch _) fun _ => .bind (nameless_emitOnly _ _ _) fun _ =>
        .bind (nameless_exprs args _) fun _ => nameless_finishCall _ _ _ _ _
  | .table list _, _, _ =>
    .bind (nameless_touch _) fun _ => .bind (nameless_emit _ _ _) fun _ =>
      .bind (nameless_fields list _ _ _ _ _) fun _ => .bind (nameless_modify _) fun _ => nameless_finish _ _ _
  | .unary op e _, want, free => by
    unfold expr
    split
    · exact nameless_expr e _ _
    · exact .bind (nameless_nameOf e) fun _ => .bind (nameless_expr e _ _) fun _ => nameless_finish _ _ _
  | .binary (.arith _) left right _, _, _ =>
    .bind (nameless_nameOf left) fun _ => .bind (nameless_nameOf right) fun _ =>
      .bind (nameless_expr left _ _) fun _ => .bind (nameless_expr right _ _) fun _ => nameless_finish _ _ _
  | .binary .concat left right _, _, _ =>
    .bind (nameless_nameOf left) fun _ => .bind (nameless_nameOf right) fun _ =>
      .bind (nameless_expr left _ _) fun _ => .bind (nameless_expr right _ _) fun _ =>
        .ite (.bind nameless_takeConcat fun _ => nameless_finish _ _ _) (nameless_finish _ _ _)
  | .binary (.compare _ _ _) left right _, _, _ => by
    rw [expr]
    refine .bind (nameless_expr left _ _) fun l => .bind (nameless_expr right _ _) fun r => ?_
    dsimp only
    split
    · exact .bind (nameless_emit _ _ _) fun _ => .pure _
    · exact nameless_finish _ _ _
  | .and left right, want, free => by
    unfold expr
    split
    · exact .bind (nameless_expr left _ _) fun _ => .bind (nameless_expr right _ _) fun _ =>
        .ite (.bind (nameless_patchHere _) fun _ => .pure _) (.pure _)
    · exact .bind (nameless_expr left _ _) fun _ => .bind (nameless_touch _) fun _ =>
        .bind (nameless_emit _ _ _) fun _ => .bind (nameless_expr right _ _) fun _ =>
          .bind (nameless_patchHere _) fun _ => .ite (.pure _) (.pure _)
  | .or left right, want, free => by
    unfold expr
    split
    · exact .bind (nameless_expr left _ _) fun _ => .bind (nameless_expr right _ _) fun _ =>
        .ite (.pure _) (.bind (nameless_patchHere _) fun _ => .pure _)
    · exact .bind (nameless_expr left _ _) fun _ => .bind (nameless_touch _) fun _ =>
        .bind (nameless_emit _ _ _) fun _ => .bind (nameless_expr right _ _) fun _ =>
          .bind (nameless_patchHere _) fun _ => .ite (.pure _) (.pure _)
  | .single e, want, free => by
    cases want <;> exact nameless_expr e _ _
termination_by structural e => e

theorem nameless_exprs : ∀ (es : List Expr) (free : Nat), Nameless (exprs free es)
  | [], _ => .pure _
  | [e], _ =>
    .ite (.bind (nameless_expr e _ _) fun _ => .pure _) (.bind (nameless_expr e _ _) fun _ => .pure _)
  | e :: next :: rest, _ =>
    .bind (nameless_expr e _ _) fun _ => .bind (nameless_exprs (next :: rest) _) fun _ => .pure _
termination_by structural es => es

theorem nameless_fields : ∀ (list : List (Option Expr × Expr × Nat)) (table line waiting stored keys : Nat),
    Nameless (fields table line waiting stored keys list)
  | [], _, _, _, _, _ => .ite (.bind (nameless_emitOnly _ _ _) fun _ => .pure _) (.pure _)
  | (some key, value, _) :: rest, _, _, _, _, _ =>
    .bind (nameless_expr key _ _) fun _ => .bind (nameless_expr value _ _) fun _ =>
      .bind (nameless_emitOnly _ _ _) fun _ => nameless_fields rest _ _ _ _ _
  | [(none, value, _)], _, _, _, _, _ =>
    .ite (.bind (nameless_expr value _ _) fun _ => .bind (nameless_emitOnly _ _ _) fun _ => .pure _)
      (.bind (nameless_expr value _ _) fun _ => .bind (nameless_emitOnly _ _ _) fun _ => .pure _)
  | (none, value, _) :: next :: rest, _, _, _, _, _ =>
    .bind (nameless_expr value _ _) fun _ =>
      .ite (.bind (nameless_emitOnly _ _ _) fun _ => nameless_fields (next :: rest) _ _ _ _ _)
        (nameless_fields (next :: rest) _ _ _ _ _)
termination_by structural list => list

end

end Expressions

section Statements

theorem nameless_assignTo (target : Target) (value : Source) (line : Nat) :
    Nameless (assignTo target value line) := by
  cases target <;> exact nameless_emitOnly _ _ _

theorem nameless_addVariable (target : Target) (before : List Target) (free : Nat) :
    Nameless (addVariable target before free) :=
  .ite (.bind (nameless_touch _) fun _ => .bind (nameless_emitOnly _ _ _) fun _ => .pure _) (.pure _)

theorem nameless_targets : ∀ (list : List Expr) (before : List Target) (free : Nat),
    Nameless (targets before free list)
  | [], _, _ => .pure _
  | .local decl :: rest, _, _ =>
    .bind (nameless_registerOf decl) fun _ => .bind (nameless_isCaptured decl) fun _ =>
      .bind (nameless_addVariable _ _ _) fun _ => nameless_targets rest _ _
  | .upvalue _ :: rest, _, _ => .bind (nameless_addVariable _ _ _) fun _ => nameless_targets rest _ _
  | .index object key line :: rest, before, free => by
    have helement (name : Option OperandName) (o : Placed) : Nameless (do
        let k ← expr .anywhere o.free key
        targets (.element o.source k.source name :: before) k.free rest) :=
      .bind (nameless_expr key _ _) fun _ => nameless_targets rest _ _
    rw [targets]
    refine .bind (nameless_nameOf object) fun name => ?_
    dsimp only
    split
    · exact .bind (.pure _) fun o => helement name o
    · exact .bind (nameless_expr object _ _) fun o => helement name o
  | .const _ :: rest, _, _ | .vararg :: rest, _, _ | .function _ :: rest, _, _ | .call _ _ _ :: rest, _, _
  | .method _ _ _ _ _ :: rest, _, _ | .table _ _ :: rest, _, _ | .unary _ _ _ :: rest, _, _
  | .binary _ _ _ _ :: rest, _, _ | .and _ _ :: rest, _, _ | .or _ _ :: rest, _, _ | .single _ :: rest, _, _ =>
    nameless_targets rest _ _

theorem nameless_storeAll (line : Nat) (list : List Target) (top : Nat) : Nameless (storeAll line list top) := by
  induction list generalizing top with
  | nil => exact .pure ()
  | cons target list ih => exact .bind (nameless_assignTo _ _ _) fun _ => ih _

theorem nameless_adjusted : ∀ (es : List Expr) (count free : Nat), Nameless (adjusted count free es)
  | [], _, _ => .ite (.bind (nameless_touch _) fun _ => nameless_emitOnly _ _ _) (.pure _)
  | [e], _, _ =>
    .ite (.bind (nameless_expr e _ _) fun _ => .ite (nameless_touch _) (.pure _))
      (.bind (nameless_expr e _ _) fun _ =>
        .ite (.bind (nameless_touch _) fun _ => nameless_emitOnly _ _ _) (.pure _))
  | e :: next :: rest, _, _ => .bind (nameless_expr e _ _) fun _ => nameless_adjusted (next :: rest) _ _

theorem nameless_assign (level line : Nat) (assigned values : List Expr) :
    Nameless (assign level line assigned values) := by
  refine .bind (nameless_targets _ _ _) fun _ => .ite ?_ ?_
  · split
    · refine .bind (.forIn _ (fun _ _ => .bind (nameless_expr _ _ _) fun _ => .pure _) _) fun _ => ?_
      dsimp only
      split
      · exact .bind (nameless_expr _ _ _) fun _ => nameless_storeAll _ _ _
      · exact .bind (nameless_expr _ _ _) fun _ => .bind (nameless_assignTo _ _ _) fun _ => nameless_storeAll _ _ _
    · exact .pure ()
  · exact .bind (nameless_adjusted _ _ _) fun _ => nameless_storeAll _ _ _

theorem nameless_placeLabel (label level : Nat) : Nameless (placeLabel label level) :=
  .bind nameless_here fun _ => nameless_modify _

theorem nameless_declare (level : Nat) (decls : List Nat) (values : List Expr) (toClose : Option Nat) (line : Nat) :
    Nameless (declare level decls values toClose line) := by
  refine .bind (nameless_adjusted _ _ _) fun _ => ?_
  cases toClose with
  | some decl =>
    exact .bind (nameless_declName decl) fun _ => .bind (nameless_emitOnly _ _ _) fun _ => nameless_activateAll _ _
  | none => exact .bind (.pure _) fun _ => nameless_activateAll _ _

theorem nameless_returnValues (level : Nat) (values : List Expr) (mayReplace : Bool) (line : Nat) :
    Nameless (returnValues level values mayReplace line) := by
  unfold returnValues
  split
  · refine .ite (.bind (nameless_expr _ _ _) fun _ => .bind nameless_get fun _ => ?_)
      (.bind (nameless_expr _ _ _) fun _ => ?_)
    · split
      · exact nameless_set _
      · exact nameless_emitOnly _ _ _
    · split
      · exact nameless_emitOnly _ _ _
      · exact .bind (nameless_touch _) fun _ => .bind (nameless_emitOnly _ _ _) fun _ => nameless_emitOnly _ _ _
  · exact .bind (nameless_exprs _ _) fun _ => nameless_emitOnly _ _ _

mutual

theorem nameless_stat : ∀ (s : Stat) (level : Nat), Nameless (stat level s)
  | .local _ _ _ _, _ => nameless_declare _ _ _ _ _
  | .localFunction decl place line, level => by
    rw [stat]
    refine .bind (nameless_activate _ _) fun _ => .bind (nameless_placeOf decl) fun _ => ?_
    dsimp only
    split
    · exact .bind (nameless_expr _ _ _) fun _ => .bind (nameless_emitOnly _ _ _) fun _ => .pure _
    · exact .bind (nameless_expr _ _ _) fun _ => .pure _
  | .assign _ _ _, _ => .bind (nameless_assign _ _ _ _) fun _ => .pure _
  | .call e, _ => .bind (nameless_expr e _ _) fun _ => .pure _
  | .block body _, _ => .bind (nameless_block body _ _) fun _ => .pure _
  | .while cond body _ _, _ =>
    .bind nameless_here fun _ => .bind (nameless_expr cond _ _) fun _ => .bind (nameless_block body _ _) fun _ =>
      .bind (nameless_emitOnly _ _ _) fun _ => .bind (nameless_patchHere _) fun _ =>
        .bind (nameless_placeLabel _ _) fun _ => .pure _
  | .repeat body cond _ _, _ =>
    .bind nameless_here fun _ => .bind (nameless_stats body _) fun _ => .bind (nameless_expr cond _ _) fun _ =>
      .ite
        (.bind (nameless_emitOnly _ _ _) fun _ => .bind (nameless_emit _ _ _) fun _ =>
          .bind (nameless_patchHere _) fun _ => .bind (nameless_emitOnly _ _ _) fun _ =>
            .bind (nameless_emitOnly _ _ _) fun _ => .bind (nameless_patchHere _) fun _ =>
              .bind (nameless_placeLabel _ _) fun _ => .pure _)
        (.bind (nameless_patch _ _) fun _ => .bind (nameless_placeLabel _ _) fun _ => .pure _)
  | .cond clauses, _ => .bind (nameless_clausesOf clauses _) fun _ => .bind (nameless_patchHere _) fun _ => .pure _
  | .numeric decl start limit step body last doLine line breakLabel, level => by
    -- The loop is the same once the step is in its register, given or not.
    have hloop : Nameless (do
        let entry ← emit (.prepareNumeric level 0) doLine
        let first ← here
        activate decl (level + 3)
        block (level + 4) last body
        emitOnly (.stepNumeric level first) line
        patchHere [entry]
        placeLabel breakLabel level
        return level) :=
      .bind (nameless_emit _ _ _) fun _ => .bind nameless_here fun _ => .bind (nameless_activate _ _) fun _ =>
        .bind (nameless_block body _ _) fun _ => .bind (nameless_emitOnly _ _ _) fun _ =>
          .bind (nameless_patchHere _) fun _ => .bind (nameless_placeLabel _ _) fun _ => .pure _
    refine .bind (nameless_expr start _ _) fun _ => .bind (nameless_expr limit _ _) fun _ => ?_
    cases step with
    | some e => exact .bind (nameless_expr e _ _) fun _ => hloop
    | none => exact .bind (nameless_touch _) fun _ => .bind (nameless_emitOnly _ _ _) fun _ => hloop
  | .generic _ _ body _ _ _ _, _ =>
    .bind (nameless_adjusted _ _ _) fun _ => .bind (nameless_touch _) fun _ => .bind (nameless_emit _ _ _) fun _ =>
      .bind nameless_here fun _ => .bind (nameless_activateAll _ _) fun _ =>
        .bind (nameless_block body _ _) fun _ => .bind (nameless_patchHere _) fun _ =>
          .bind (nameless_emitOnly _ _ _) fun _ => .bind (nameless_emitOnly _ _ _) fun _ =>
            .bind (nameless_placeLabel _ _) fun _ => .bind (nameless_emitOnly _ _ _) fun _ => .pure _
  | .goto _ _, _ => .bind (nameless_emit _ _ _) fun _ => .bind (nameless_modify _) fun _ => .pure _
  | .label _, _ => .bind (nameless_placeLabel _ _) fun _ => .pure _
  | .return _ _ _, _ => .bind (nameless_returnValues _ _ _ _) fun _ => .pure _
termination_by structural s => s

theorem nameless_stats : ∀ (ss : List Stat) (level : Nat), Nameless (stats level ss)
  | [], _ => .pure _
  | s :: rest, _ => .bind (nameless_stat s _) fun _ => nameless_stats rest _
termination_by structural ss => ss

theorem nameless_block : ∀ (ss : List Stat) (level last : Nat), Nameless (block level last ss)
  | [], _, _ => .pure _
  | s :: rest, _, _ =>
    .bind (nameless_stat s _) fun _ => .bind (nameless_stats rest _) fun _ =>
      .ite (nameless_emitOnly _ _ _) (.pure _)
termination_by structural ss => ss

theorem nameless_clausesOf : ∀ (cs : List (Expr × List Stat × Nat)) (level : Nat), Nameless (clausesOf level cs)
  | [], _ => .pure _
  | (cond, body, _) :: rest, _ =>
    .bind (nameless_expr cond _ _) fun _ => .bind (nameless_block body _ _) fun _ =>
      .ite (.bind (nameless_patchHere _) fun _ => .pure _)
        (.bind (nameless_emit _ _ _) fun _ => .bind (nameless_patchHere _) fun _ =>
          .bind (nameless_clausesOf rest _) fun _ => .pure _)
termination_by structural cs => cs

end

theorem nameless_function : Nameless function :=
  .read (fun _ _ => rfl) fun _ => .bind (nameless_activateAll _ _) fun _ => .bind (nameless_stats _ _) fun _ =>
    .bind (nameless_emitOnly _ _ _) fun _ => nameless_modify _

end Statements

end Compiler

/-- A function compiles to the same instructions in a chunk of another name. -/
theorem Proto.compile?_named (source : Bytes) (input : Compiler.Input) :
    Proto.compile? (input.named source) = (Proto.compile? input).map (·.named source) := by
  have hrun := Compiler.nameless_function source input
  change (Compiler.function (input.named source) {}).bind _ = ((Compiler.function input {}).bind _).map _
  rw [hrun]
  cases Compiler.function input {} with
  | none => rfl
  | some result =>
    refine congrArg some (Eq.trans ?_ (Proto.named_eq source _).symm)
    simp [Compiler.Input.named, Function.comp_def]

end ScriptHost.Lua
