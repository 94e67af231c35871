import ScriptHost.Proofs.Memory.Sound
/-! Tasks that keep a memory sound. A task is safe if, whatever is made of its calls, it names only what the
memory has at that time, and adds no panics. One rule for each way to make a task. -/
namespace ScriptHost.Lua
open Text (Bytes)

instance : Referring Raised where
  namedIn raised w := w.Has raised.value
  extend := World.Has.extend (α := Value)

instance : Referring Fault where
  namedIn
    | .value v, w => w.Has v
    | .reraised raised, w => w.Has raised
    | _, _ => True
  extend {fault _ _} h he := by
    cases fault with
    | value v => exact World.Has.extend h he
    | reraised raised => exact World.Has.extend h he
    | _ => trivial

instance : Referring Handler where
  namedIn
    | .function f, w => w.Has f
    | _, _ => True
  extend {handler _ _} h he := by
    cases handler with
    | function f => exact World.Has.extend h he
    | _ => trivial

instance : Plain Surroundings := ⟨⟩

instance : Plain MemoryReading := ⟨⟩

/-- A step that can come after a memory. What it hands on is in the memory that it leaves, and so is all that it
will hand on later, whatever has become of the memory by then. -/
inductive Step.Safe : Step → World → Prop where
  | done {w w' : World} {results : List Value} (later : w.Later w') (has : w'.Has results) :
      Safe (.done w' results) w
  | fail {w w' : World} {fault : Fault} (later : w.Later w') (has : w'.Has fault) : Safe (.fail w' fault) w
  | call {w w' : World} {f : Value} {args : List Value} {next : List Value → World → Step}
      (later : w.Later w') (callee : w'.Has f) (has : w'.Has args)
      (goes : ∀ results w'', w'.Later w'' → w''.Has results → Safe (next results w'') w'') :
      Safe (.call w' f args next) w
  | guarded {w w' : World} {f : Value} {args : List Value} {handler : Handler}
      {next : Except Raised (List Value) → World → Step}
      (later : w.Later w') (callee : w'.Has f) (has : w'.Has args) (handles : w'.Has handler)
      (goes : ∀ outcome w'', w'.Later w'' → w''.Has outcome → Safe (next outcome w'') w'') :
      Safe (.guarded w' f args handler next) w
  | caught {w w' : World} {fault : Fault} {next : Raised → World → Step}
      (later : w.Later w') (has : w'.Has fault)
      (goes : ∀ raised w'', w'.Later w'' → w''.Has raised → Safe (next raised w'') w'') :
      Safe (.caught w' fault next) w
  | inspect {w w' : World} {next : Surroundings → World → Step} (later : w.Later w')
      (goes : ∀ surroundings w'', w'.Later w'' → Safe (next surroundings w'') w'') :
      Safe (.inspect w' next) w
  | measure {w w' : World} {next : MemoryReading → World → Step} (later : w.Later w')
      (goes : ∀ reading w'', w'.Later w'' → Safe (next reading w'') w'') : Safe (.measure w' next) w

namespace Step.Safe
variable {step : Step} {w w' : World}

theorem later (safe : step.Safe w) : w.Later step.world := by cases safe <;> assumption

/-- A step can come after all that its memory has come from. -/
theorem earlier (safe : step.Safe w') (hw : w.Later w') : step.Safe w := by
  cases safe with
  | done later has => exact .done (hw.trans later) has
  | fail later has => exact .fail (hw.trans later) has
  | call later callee has goes => exact .call (hw.trans later) callee has goes
  | guarded later callee has handles goes => exact .guarded (hw.trans later) callee has handles goes
  | caught later has goes => exact .caught (hw.trans later) has goes
  | inspect later goes => exact .inspect (hw.trans later) goes
  | measure later goes => exact .measure (hw.trans later) goes

theorem self (safe : step.Safe w) : step.Safe step.world := by
  have hw := safe.later.sound.later
  cases safe with
  | done later has => exact .done hw has
  | fail later has => exact .fail hw has
  | call later callee has goes => exact .call hw callee has goes
  | guarded later callee has handles goes => exact .guarded hw callee has handles goes
  | caught later has goes => exact .caught hw has goes
  | inspect later goes => exact .inspect hw goes
  | measure later goes => exact .measure hw goes

theorem ite {p : Prop} [Decidable p] {other : Step} (safe : step.Safe w) (safe' : other.Safe w) :
    (if p then step else other).Safe w := by
  split <;> assumption

end Step.Safe

/-- A task that is safe from a memory on. What it gives is in the memory at that time. -/
def Task.Safe {α : Type} [Referring α] (t : Task α) (w₀ : World) : Prop :=
  ∀ w k, w₀.Later w → (∀ a w', w.Later w' → w'.Has a → (k a w').Safe w') → (t k w).Safe w

namespace Task.Safe
variable {α β : Type} [Referring α] [Referring β] {w : World}

theorem later {t : Task α} (safe : t.Safe w) {w' : World} (hw : w.Later w') : t.Safe w' :=
  fun v k hv hk => safe v k (hw.trans hv) hk

/-- A task starts in a memory that is sound. -/
theorem at_start {t : Task α} (safe : ∀ v, w.Later v → t.Safe v) : t.Safe w :=
  fun v k hv hk => safe v hv v k hv.sound.later hk

theorem pure {a : α} (ha : w.Has a) : (Pure.pure a : Task α).Safe w :=
  fun v _ hv hk => hk a v hv.sound.later (ha.later hv)

theorem bind {t : Task α} {f : α → Task β} (safe : t.Safe w)
    (goes : ∀ a w', w.Later w' → w'.Has a → (f a).Safe w') : (t >>= f).Safe w := by
  intro v k hv hk
  refine safe v _ hv fun a v' hv' ha => ?_
  exact goes a v' (hv.trans hv') ha v' k hv'.sound.later fun b v'' hv'' hb => hk b v'' (hv'.trans hv'') hb

/-- What follows may be safe whatever the result. -/
theorem seq {t : Task α} {f : α → Task β} (safe : t.Safe w) (goes : ∀ a, (f a).Safe w) : (t >>= f).Safe w :=
  safe.bind fun a _ hw _ => (goes a).later hw

theorem read {f : World → α} (has : ∀ v, w.Later v → v.Has (f v)) : (Task.read f).Safe w :=
  fun v _ hv hk => hk _ v hv.sound.later (has v hv)

/-- What follows may depend on what was read. -/
theorem read_bind {γ : Type} {f : World → γ} {g : γ → Task β} (goes : ∀ v, w.Later v → (g (f v)).Safe v) :
    (Task.read f >>= g).Safe w :=
  fun v k hv hk => goes v hv v k hv.sound.later hk

theorem change {f : World → World} (changes : ∀ v, w.Later v → v.Later (f v)) : (Task.change f).Safe w :=
  fun v _ hv hk => (hk () (f v) (changes v hv) trivial).earlier (changes v hv)

theorem change_untouched {f : World → World} (same : ∀ v : World, v.Untouched (f v)) : (Task.change f).Safe w :=
  change fun v hv => hv.sound.untouched (same v)

theorem create {f : World → α × World} (creates : ∀ v, w.Later v → v.Later (f v).2 ∧ (f v).2.Has (f v).1) :
    (Task.create f).Safe w :=
  fun v _ hv hk => (hk (f v).1 (f v).2 (creates v hv).1 (creates v hv).2).earlier (creates v hv).1

/-- What follows may depend on what was created. -/
theorem create_bind {γ : Type} {f : World → γ × World} {g : γ → Task β}
    (creates : ∀ v, w.Later v → v.Later (f v).2) (goes : ∀ v, w.Later v → (g (f v).1).Safe (f v).2) :
    (Task.create f >>= g).Safe w := by
  intro v k hv hk
  have hf := creates v hv
  exact (goes v hv (f v).2 k hf.sound.later fun b v' hv' hb => hk b v' (hf.trans hv') hb).earlier hf

theorem fail {fault : Fault} (hf : w.Has fault) : (Task.fail fault : Task α).Safe w :=
  fun _ _ hv _ => .fail hv.sound.later (hf.later hv)

theorem failHere {message : String} : (Task.failHere message : Task α).Safe w := fail trivial

theorem failCaller {message : String} : (Task.failCaller message : Task α).Safe w := fail trivial

theorem call {f : Value} {args : List Value} (hf : w.Has f) (ha : w.Has args) : (Task.call f args).Safe w :=
  fun _ _ hv hk => .call hv.sound.later (hf.later hv) (ha.later hv) hk

theorem callFirst {f : Value} {args : List Value} (hf : w.Has f) (ha : w.Has args) :
    (Task.callFirst f args).Safe w :=
  (call hf ha).bind fun _ _ _ hr => pure (hr.headD has_nil)

theorem callGuarded {f : Value} {args : List Value} {handler : Handler} (hf : w.Has f) (ha : w.Has args)
    (hh : w.Has handler) : (Task.callGuarded f args handler).Safe w :=
  fun _ _ hv hk => .guarded hv.sound.later (hf.later hv) (ha.later hv) (hh.later hv) hk

theorem catchFault {fault : Fault} (hf : w.Has fault) : (Task.catchFault fault).Safe w :=
  fun _ _ hv hk => .caught hv.sound.later (hf.later hv) hk

theorem surroundings : Task.surroundings.Safe w :=
  fun _ _ hv hk => .inspect hv.sound.later fun s v' hv' => hk s v' hv' trivial

theorem measure : Task.measure.Safe w :=
  fun _ _ hv hk => .measure hv.sound.later fun r v' hv' => hk r v' hv' trivial

theorem ite {p : Prop} [Decidable p] {t u : Task α} (ht : t.Safe w) (hu : u.Safe w) :
    (if p then t else u).Safe w := by
  split <;> assumption

/-- The first step of a safe task. -/
theorem start {t : Task (List Value)} (safe : t.Safe w) (hw : w.Sound) : (t.start w).Safe w :=
  safe w _ hw.later fun _ _ hv has => .done hv.sound.later has

end Task.Safe
end ScriptHost.Lua
