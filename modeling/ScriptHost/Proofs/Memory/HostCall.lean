import ScriptHost.Proofs.Memory.Base
import ScriptHost.Proofs.Memory.List
import ScriptHost.Proofs.Memory.Math
import ScriptHost.Proofs.Memory.Text
/-! Functions of the host are safe, and with them all that the interpreter provides. A panic that reaches the
host loses its payload in memory, and the payload is kept again if the panic is carried on there. -/
namespace ScriptHost.Lua
open Text (Bytes)
variable {w : World}

/-- Whether the place that a value of the host names is in use. Strings and errors are copies. -/
def HostValue.namedIn (v : HostValue) (w : World) : Prop :=
  match v with
  | .table place => w.Has (Value.table place)
  | .function place => w.Has (Value.function place)
  | _ => True

instance : Referring HostValue where
  namedIn := HostValue.namedIn
  extend {v _ _} hv he := by
    cases v with
    | table place => exact World.Has.extend (a := Value.table place) hv he
    | function place => exact World.Has.extend (a := Value.function place) hv he
    | _ => trivial

instance : Plain ScriptError := ⟨⟩

namespace World

/-- What arrives at the host, and what becomes of the memory: a value is in it, and a panic is spent. -/
inductive Arrives {α : Type} [Referring α] (w : World) : Arrival α × World → Prop where
  | value {a : α} {w' : World} (later : w.Later w') (has : w'.Has a) : Arrives w (.ok a, w')
  | panic {payload : PanicPayload} {w' : World} (spent : w.Becomes 1 w') : Arrives w (.error payload, w')

theorem Sound.receive (h : w.Sound) {v : Value} (hv : w.Has v) : w.Arrives (w.receive v) := by
  cases v with
  | failure place =>
    simp only [World.receive]
    split
    · exact .value h.later trivial
    · next payload hf => exact .panic (h.spend hf)
    · exact .value h.later trivial
  | table place => exact .value h.later hv
  | function place => exact .value h.later hv
  | _ => exact .value h.later trivial

/-- The panic that ends the arrival of several values is the only one that arrives with them. -/
theorem Sound.receiveAll (h : w.Sound) {values : List Value} (hv : w.Has values) :
    w.Arrives (w.receiveAll values) := by
  induction values generalizing w with
  | nil => exact .value h.later has_list_nil
  | cons v rest ih =>
    obtain ⟨hv, hrest⟩ := (has_list_cons _ _).mp hv
    have hfirst := h.receive hv
    unfold World.receiveAll
    generalize w.receive v = arrival at hfirst ⊢
    cases hfirst with
    | panic spent => exact .panic spent
    | value hu ha =>
      have hothers := ih hu.sound (hrest.later hu)
      dsimp only
      generalize World.receiveAll _ rest = arrival at hothers ⊢
      cases hothers with
      | panic spent => exact .panic (hu.becomes spent)
      | value hu' has => exact .value (hu.trans hu') ((has_list_cons _ _).mpr ⟨ha.later hu', has⟩)

/-- An uncaught error is no panic, or it is one that has not reached the host before. -/
theorem Sound.arrivedError (h : w.Sound) (raised : Raised) : w.Arrives (w.arrivedError raised) := by
  unfold World.arrivedError
  split
  · split
    · exact .value h.later trivial
    · next payload hf => exact .panic (h.spend hf)
    · exact .value h.later trivial
  · exact .value h.later trivial

theorem Sound.give (h : w.Sound) {v : HostValue} (hv : w.Has v) :
    w.Later (w.give v).2 ∧ (w.give v).2.Has (w.give v).1 := by
  cases v with
  | error e => exact h.addError e
  | table place => exact ⟨h.later, hv⟩
  | function place => exact ⟨h.later, hv⟩
  | _ => exact ⟨h.later, trivial⟩

theorem Sound.giveAll (h : w.Sound) {values : List HostValue} (hv : w.Has values) :
    w.Later (w.giveAll values).2 ∧ (w.giveAll values).2.Has (w.giveAll values).1 := by
  induction values generalizing w with
  | nil => exact ⟨h.later, has_list_nil⟩
  | cons v rest ih =>
    obtain ⟨hv, hrest⟩ := (has_list_cons _ _).mp hv
    obtain ⟨hu, hfirst⟩ := h.give hv
    obtain ⟨hu', hothers⟩ := ih hu.sound (hrest.later hu)
    exact ⟨Later.trans hu hu', (has_list_cons _ _).mpr ⟨hfirst.later hu', hothers⟩⟩

end World

namespace Task.Safe
variable {α β : Type} [Referring α] [Referring β]

/-- What arrives is used, or it is a panic and carried on. -/
theorem arrive {f : World → Arrival α × World} (arrives : ∀ v, w.Later v → v.Arrives (f v)) :
    (Task.create f >>= Task.arrive).Safe w := by
  intro v k hv hk
  have hf := arrives v hv
  show Step.Safe (match f v with | (a, u) => Task.arrive a k u) v
  generalize f v = arrival at hf ⊢
  cases hf with
  | panic spent =>
    obtain ⟨hu, hp⟩ := spent.addPanic _
    exact .fail hu hp
  | value hu ha => exact (hk _ _ hu ha).earlier hu

/-- Raising a panic for the first time counts it. -/
theorem raisePanic (payload : PanicPayload) : (Task.raisePanic payload : Task α).Safe w := by
  intro v k hv _
  obtain ⟨hu, hp⟩ := hv.sound.countPanic.addPanic payload
  exact .fail hu hp

theorem failAs (e : ScriptError) : (Task.failAs e : Task α).Safe w := by
  refine .seq .surroundings fun surroundings => ?_
  refine .create_bind (fun v hv => (hv.sound.addError _).1) fun v hv => .fail ?_
  exact (hv.sound.addError _).2

end Task.Safe

namespace HostFunction

theorem explainValue_has (h : w.Sound) : w.Has explainValue := h.has_builtin .explain

theorem callForFirst_safe {f : HostValue} (hf : w.Has f) : (callForFirst f).Safe w := by
  unfold callForFirst
  split
  · next place =>
    refine .at_start fun u hu => ?_
    have hh : u.Has (Handler.function explainValue) := explainValue_has hu.sound
    refine .bind (.callGuarded (hf.later hu) has_list_nil hh) fun outcome v hv ho => ?_
    split
    · have hfirst := World.Has.headD (show v.Has _ from ho) has_nil
      exact .arrive fun x hx => hx.sound.receive (hfirst.later hx)
    · next raised =>
      show ((Task.create (·.arrivedError raised) >>= Task.arrive) >>= Task.failAs).Safe v
      exact .seq (.arrive fun x hx => hx.sound.arrivedError raised) fun e => .failAs e
  · exact .failAs _

theorem answer_safe (f : HostFunction) {args : List HostValue} (ha : w.Has args) : (answer f args).Safe w := by
  have hfirst : w.Has (args.headD .nil) := ha.headD trivial
  cases f with
  | constant c =>
    refine .pure ?_
    cases c with
    | number n => cases n <;> trivial
    | _ => trivial
  | pointer address => exact .pure trivial
  | first => exact .pure hfirst
  | count => exact .pure trivial
  | kindOfFirst => exact .pure trivial
  | list =>
    refine .bind (.create fun v hv => hv.sound.giveAll (ha.later hv)) fun values u hu hvalues => ?_
    have added (v : World) (hv : u.Later v) :=
      hv.sound.addTable (Table.has_setList Table.has_empty 0 (hvalues.later hv))
    exact .create_bind (fun v hv => (added v hv).1) fun v hv => .pure (added v hv).2
  | callFirst => exact callForFirst_safe hfirst
  | raise e => exact .failAs e
  | raiseFirst =>
    unfold answer
    dsimp only
    split <;> exact .failAs _
  | panic payload => exact .raisePanic payload
  | panicCounting => exact .raisePanic _
  | clock part => exact .seq (.read fun _ _ => trivial) fun _ => .pure trivial
  | trace =>
    unfold answer
    dsimp only
    split
    · exact .seq (.change_untouched fun _ => ⟨rfl, rfl, rfl, rfl, rfl, rfl, rfl⟩) fun _ => .pure trivial
    · exact .failAs _

theorem run_safe (f : HostFunction) {args : List Value} (ha : w.Has args) : (run f args).Safe w := by
  have arrived : (Task.create (·.receiveAll args) >>= Task.arrive).Safe w :=
    .arrive fun v hv => hv.sound.receiveAll (ha.later hv)
  show ((Task.create (·.receiveAll args) >>= Task.arrive) >>= fun args => do
    let result ← f.answer args
    return [← Task.create (·.give result)]).Safe w
  refine .bind arrived fun args u hu has => .bind (answer_safe f has) fun result u' hu' hr => ?_
  refine .bind (.create fun v hv => hv.sound.give (hr.later hv)) fun v x _ hv => .pure ?_
  exact (has_list_cons _ _).mpr ⟨hv, has_list_nil⟩

end HostFunction

theorem Failure.describe_safe (args : List Value) : (Failure.describe args).Safe w := by
  unfold describe
  split
  · refine .read_bind fun v hv => ?_
    split
    · exact .pure (by simp)
    · exact .pure (by simp)
    · exact .failAs _
  · exact .pure (by simp)

theorem Raised.explain_safe {args : List Value} (ha : w.Has args) : (Raised.explain args).Safe w := by
  have hv := Argument.has_get ha 1
  unfold explain
  split
  · next place heq =>
    rw [heq] at hv
    exact .pure (by simpa using hv)
  · exact .seq (Task.describe_safe hv) fun _ => .seq .surroundings fun _ => .pure (by simp)

/-- What runs functions outside of scripts, if all of them are safe. -/
structure Provision.Safe (provision : Provision) : Prop where
  builtin {w : World} (f : Builtin) {args : List Value} : w.Has args → (provision.builtin f args).Safe w
  host {w : World} (f : HostFunction) {args : List Value} : w.Has args → (provision.host f args).Safe w
  matching {w : World} (place : Nat) (m : Matching) {args : List Value} :
    w.Has args → (provision.matching place m args).Safe w

theorem Builtin.run_safe (f : Builtin) {args : List Value} (ha : w.Has args) : (f.run args).Safe w := by
  cases f with
  | base f => exact f.run_safe ha
  | math f => exact f.run_safe ha
  | string f => exact f.run_safe ha
  | table f => exact f.run_safe ha
  | utf8 f => exact f.run_safe args
  | failureText => exact Failure.describe_safe args
  | explain => exact Raised.explain_safe ha

/-- Every function outside of scripts is safe. -/
theorem provision_safe (memory : World → MemoryReading) : (provision memory).Safe where
  builtin f _ ha := f.run_safe ha
  host f _ ha := f.run_safe ha
  matching place m _ _ := Search.runMatching_safe place m

end ScriptHost.Lua
