import ScriptHost.Proofs.Stack
import ScriptHost.Proofs.Surfacing
/-! Fatal errors. Behind each of them is an error of the interpreter, and one that comes down to a spent panic is
always fatal. Any other error is not, but for that of an assignment to the globals and that of a string which cannot be
made for the stack. -/
namespace ScriptHost

/-- Whether a request makes every error of the interpreter a fatal one. -/
def Request.escalates : Request → Bool
  | .bindGlobal _ | .pushString _ => true
  | _ => false

namespace Host
variable (h : Host)

/-- The error with which the interpreter ends what it does for a request. -/
def scriptError? (request : Request) (refuses : Lua.Refusal := fun _ => none) : Option Lua.ScriptError :=
  match request with
  | .renew =>
    match h.registry.bindInto h.fresh with
    | (.error e, _) => some e
    | _ => none
  | .pushString text => if h.interpreter.isSome then refuses text.toUTF8 else none
  | .bindGlobal name =>
    match h.assignment? name refuses with
    | some (.error e) => some e
    | _ => none
  | .run r =>
    match h.verdict? r with
    | some (.error _ e) => some e
    | _ => none
  | _ => none

private theorem scriptError?_renew : h.scriptError? .renew = none := by
  simp only [scriptError?, h.bindInto_fresh.1]

section Refusing
variable (refuses : Lua.Refusal)

private theorem fatal_pushString_iff (pushed text : String) :
    (h.answer (.pushString pushed) refuses).1 = .error (.failed (.fatal text)) ↔
      ∃ e, h.scriptError? (.pushString pushed) refuses = some e ∧ e.message = text := by
  rw [answer_pushString_refusing]
  cases hi : h.interpreter with
  | none => simp [scriptError?, hi]
  | some i =>
    simp only [scriptError?, hi, Option.isSome_some, if_true]
    generalize refuses pushed.toUTF8 = refusal
    cases refusal <;> simp

private theorem fatal_bindGlobal_iff (name text : String) :
    (h.answer (.bindGlobal name) refuses).1 = .error (.failed (.fatal text)) ↔
      ∃ e, h.scriptError? (.bindGlobal name) refuses = some e ∧ e.message = text := by
  rcases hs : h.stack with _ | ⟨v, rest⟩
  · simp [answer_bindGlobal_nil h hs name refuses, scriptError?, assignment?, hs]
  · cases hi : h.interpreter with
    | none => simp [answer_bindGlobal_none h hi hs name refuses, scriptError?, assignment?, hi]
    | some i =>
      rw [answer_bindGlobal_refusing h hi hs]
      simp only [scriptError?, assignment?, hi, hs]
      rcases i.assign name v refuses with ⟨_ | e | payload, j⟩ <;> simp

/-- Where errors are escalated, each of them is fatal, whatever it comes down to. -/
theorem fatal_of_escalates_iff {request : Request} (he : request.escalates) (text : String) :
    (h.answer request refuses).1 = .error (.failed (.fatal text)) ↔
      ∃ e, h.scriptError? request refuses = some e ∧ e.message = text := by
  cases request with
  | pushString pushed => exact h.fatal_pushString_iff refuses pushed text
  | bindGlobal name => exact h.fatal_bindGlobal_iff refuses name text
  | _ => cases he

private theorem accept_ne_fatal (v : Lua.HostValue) (r : Run) (text : String) :
    (h.accept v r).1 ≠ .error (.failed (.fatal text)) := by
  by_cases hf : v.isFunction <;> cases r <;> simp [accept, unlessFunction, hf]

private theorem fatal_run_iff (r : Run) (text : String) :
    (h.answer (.run r) refuses).1 = .error (.failed (.fatal text)) ↔
      ∃ e, h.scriptError? (.run r) refuses = some e ∧ e.message = text ∧ e.rootCause = .spentPanic := by
  rw [(h.answer_run_refusing r refuses).1]
  cases hv : h.verdict? r with
  | none => obtain ha | ⟨event, -, ha⟩ := answer_run_none hv <;> simp [ha, scriptError?, hv]
  | some verdict =>
    cases verdict with
    | error phase e =>
      by_cases he : e.rootCause = .spentPanic
      · simp [(answer_run_fatal hv he).1, scriptError?, hv, he]
      · simp [(answer_run_error hv he).1, scriptError?, hv, he]
    | panic payload => simp [(answer_run_panic hv).1, scriptError?, hv]
    | results values => simp [answer_run hv, conclude, accept_ne_fatal, scriptError?, hv]

/-- Where errors are not escalated, a failure is fatal exactly because of an error that comes down to a spent panic. -/
theorem fatal_iff {request : Request} (he : ¬ request.escalates) (text : String) :
    (h.answer request refuses).1 = .error (.failed (.fatal text)) ↔
      ∃ e, h.scriptError? request refuses = some e ∧ e.message = text ∧ e.rootCause = .spentPanic := by
  cases request with
  | renew =>
    change (h.answer .renew).1 = _ ↔ ∃ e, h.scriptError? .renew = some e ∧ _
    simp [answer_renew, scriptError?_renew]
  | pushInteger _ | pushNumber _ | pushBoolean _ | pushPointer _ | peekInteger _ =>
    constructor
    · intro ha
      cases ha
    · rintro ⟨e, he, -⟩
      cases he
  | pushString _ | bindGlobal _ => exact absurd rfl he
  | popString =>
    rcases hs : h.stack with _ | ⟨v, rest⟩
    · simp [answer_popString_nil h hs refuses, scriptError?]
    · rw [answer_popString_cons h hs refuses]
      split
      · split <;> simp [scriptError?]
      · simp [scriptError?]
  | run r => exact h.fatal_run_iff refuses r text

end Refusing

/-- A request fails fatally only if the interpreter cannot be trusted any more: the error behind the failure comes
down to a spent panic. -/
def FatalOnlyIfSpent (request : Request) (refuses : Lua.Refusal := fun _ => none) : Prop :=
  ∀ text, (h.answer request refuses).1 = .error (.failed (.fatal text)) →
    ∃ e, h.scriptError? request refuses = some e ∧ e.message = text ∧ e.rootCause = .spentPanic

/-- Where errors are escalated all depends on which errors there are. -/
theorem fatalOnlyIfSpent_of_escalates_iff (refuses : Lua.Refusal) {request : Request} (he : request.escalates) :
    h.FatalOnlyIfSpent request refuses ↔
      ∀ e, h.scriptError? request refuses = some e → e.rootCause = .spentPanic := by
  constructor
  · intro only e hscript
    obtain ⟨e', hscript', -, hroot⟩ :=
      only e.message ((h.fatal_of_escalates_iff refuses he _).mpr ⟨e, hscript, rfl⟩)
    rwa [Option.some.inj (hscript.symm.trans hscript')]
  · intro all text ha
    obtain ⟨e, hscript, hm⟩ := (h.fatal_of_escalates_iff refuses he text).mp ha
    exact ⟨e, hscript, hm, all e hscript⟩

/-- After an error that comes down to a spent panic every request fails fatally. The converse holds of all of them
unless a value was to become a global or a string was to be made for the stack, and the interpreter answered with any
other error, which is as fatal then. -/
theorem fatal_only_if_spent_iff (request : Request) (refuses : Lua.Refusal) :
    (∀ e, h.scriptError? request refuses = some e → e.rootCause = .spentPanic →
        (h.answer request refuses).1 = .error (.failed (.fatal e.message))) ∧
      (h.FatalOnlyIfSpent request refuses ↔
        ¬ ∃ e, request.escalates ∧ h.scriptError? request refuses = some e ∧ e.rootCause ≠ .spentPanic) := by
  by_cases hesc : request.escalates
  · refine ⟨fun e he _ => (h.fatal_of_escalates_iff refuses hesc _).mpr ⟨e, he, rfl⟩, ?_⟩
    rw [h.fatalOnlyIfSpent_of_escalates_iff refuses hesc]
    constructor
    · rintro all ⟨e, -, he, hroot⟩
      exact hroot (all e he)
    · intro hnone e he
      exact Classical.byContradiction fun hroot => hnone ⟨e, hesc, he, hroot⟩
  · refine ⟨fun e he hroot => (h.fatal_iff refuses hesc _).mpr ⟨e, he, rfl, hroot⟩, ?_, ?_⟩
    · rintro - ⟨e, hesc', -⟩
      exact hesc hesc'
    · intro _ text ha
      exact (h.fatal_iff refuses hesc text).mp ha

/-- A panic that has surfaced is raised once more, which is a fatal error and rightly so. -/
theorem fatal_only_if_spent_iff_resumed :
    ∃ e, resumed.scriptError? (.run (.script "error(p)")) = some e ∧ e.rootCause = .spentPanic ∧
      (resumed.answer (.run (.script "error(p)"))).1 = .error (.failed (.fatal e.message)) ∧
      resumed.FatalOnlyIfSpent (.run (.script "error(p)")) := by
  have hspent : (resumed.scriptError? (.run (.script "error(p)"))).any (·.rootCause == .spentPanic) := by
    decide +kernel
  obtain ⟨e, he, hroot⟩ := (Option.any_eq_true _ _).mp hspent
  have hiff := resumed.fatal_only_if_spent_iff (.run (.script "error(p)")) fun _ => none
  refine ⟨e, he, eq_of_beq hroot, hiff.1 e he (eq_of_beq hroot), hiff.2.mpr ?_⟩
  rintro ⟨_, hescalates, -⟩
  cases hescalates

/-- The globals refuse a value with the error of a script, which is no panic, and the request fails fatally. -/
theorem bindGlobal_ordinary_error_fatal :
    Reachable refusing ∧ ((refusing.answer (.bindGlobal "x")).1 matches .error (.failed (.fatal _))) ∧
      ¬ refusing.FatalOnlyIfSpent (.bindGlobal "x") := by
  refine ⟨(Reachable.offering []).after _, by decide +kernel, ?_⟩
  rw [fatalOnlyIfSpent_of_escalates_iff refusing _ rfl]
  intro all
  have hordinary : (refusing.scriptError? (.bindGlobal "x")).any (·.rootCause != .spentPanic) := by
    decide +kernel
  obtain ⟨e, he, hroot⟩ := (Option.any_eq_true _ _).mp hordinary
  simp [all e he] at hroot

/-- There is no memory for a string, and the request fails fatally all the same. -/
theorem pushString_without_memory_fatal (text : String) :
    let refuses : Lua.Refusal := fun _ => some (.memory "not enough memory")
    ((offering []).answer (.pushString text) refuses).1 = .error (.failed (.fatal "memory error: not enough memory")) ∧
      ¬ (offering []).FatalOnlyIfSpent (.pushString text) refuses := by
  intro refuses
  obtain ⟨i, hi⟩ := Option.isSome_iff_exists.mp (Reachable.offering []).interpreter_isSome
  have hscript : (offering []).scriptError? (.pushString text) refuses = some (.memory "not enough memory") := by
    rw [scriptError?, hi]
    rfl
  refine ⟨((offering []).fatal_of_escalates_iff refuses rfl _).mpr ⟨_, hscript, by decide +kernel⟩, ?_⟩
  rw [fatalOnlyIfSpent_of_escalates_iff _ refuses rfl]
  intro all
  cases all _ hscript

end Host
end ScriptHost
