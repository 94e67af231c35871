import ScriptHost.Proofs.Memory.HostCall
import ScriptHost.Proofs.Memory.Instruction
/-! The machine keeps a memory sound from the start of a run to its end. One lemma for each kind of step, and the
induction on the steps of a run. -/
namespace ScriptHost.Lua
open Text (Bytes)
variable {w₀ w : World}

/-- What a waiting task hands on is in the memory, and it goes on safely with whatever it is given later. -/
def Waiting.Safe (w : World) : Waiting → Prop
  | .results next => ∀ values w', w.Later w' → w'.Has values → (next values w').Safe w'
  | .outcome handler next =>
    w.Has handler ∧ ∀ outcome w', w.Later w' → w'.Has outcome → (next outcome w').Safe w'
  | .closing handler rest raised next =>
    w.Has handler ∧ w.Has rest ∧ w.Has raised ∧
      ∀ outcome w', w.Later w' → w'.Has outcome → (next outcome w').Safe w'
  | .handled => True

theorem Waiting.Safe.later {waiting : Waiting} (h : waiting.Safe w) {w' : World} (hw : w.Later w') :
    waiting.Safe w' := by
  cases waiting with
  | results next => exact fun values w'' hw' hv => h values w'' (hw.trans hw') hv
  | outcome handler next =>
    exact ⟨h.1.later hw, fun outcome w'' hw' ho => h.2 outcome w'' (hw.trans hw') ho⟩
  | closing handler rest raised next =>
    exact ⟨h.1.later hw, h.2.1.later hw, h.2.2.1.later hw,
      fun outcome w'' hw' ho => h.2.2.2 outcome w'' (hw.trans hw') ho⟩
  | handled => trivial

/-- A function or a task that waits for a call and holds only what the memory has. -/
def Frame.Safe (w : World) : Frame → Prop
  | .script f => w.Has f
  | .task t => t.waiting.Safe w

theorem Frame.Safe.later {frame : Frame} (h : frame.Safe w) {w' : World} (hw : w.Later w') :
    frame.Safe w' := by
  cases frame with
  | script f => exact World.Has.later (a := f) h hw
  | task t => exact Waiting.Safe.later h hw

/-- Frames of which all are safe. -/
def World.HasFrames (w : World) (frames : List Frame) : Prop := ∀ frame ∈ frames, frame.Safe w

theorem World.HasFrames.later {frames : List Frame} (h : w.HasFrames frames) {w' : World} (hw : w.Later w') :
    w'.HasFrames frames := fun frame hf => (h frame hf).later hw

theorem World.HasFrames.script {f : ScriptFrame} {frames : List Frame} (hf : w.Has f) (h : w.HasFrames frames) :
    w.HasFrames (.script f :: frames) := List.forall_mem_cons.mpr ⟨hf, h⟩

theorem World.HasFrames.wait {waiting : Waiting} {frames : List Frame} (hs : waiting.Safe w)
    (h : w.HasFrames frames) (worker : Worker) : w.HasFrames (worker.wait waiting :: frames) :=
  List.forall_mem_cons.mpr ⟨hs, h⟩

/-- What happens at the innermost place names only what is in the memory there. -/
def Control.Safe : Control → Prop
  | .script w f => w.Has f
  | .work _ step => step.Safe step.world
  | .deliver w values => w.Has values
  | .raise w _ raised | .unwind w raised => w.Has raised

/-- What a run can come to. -/
def Outcome.Safe (w₀ : World) : Outcome → Prop
  | .finished w values => w₀.Later w ∧ w.Has values
  | .failed w raised => w₀.Later w ∧ w.Has raised
  | .exhausted w => w₀.Later w

namespace Machine

/-- A state of the machine that comes of a memory. -/
structure Safe (w₀ : World) (m : Machine) : Prop where
  later : w₀.Later m.control.world
  frames : m.control.world.HasFrames m.frames
  control : m.control.Safe

/-- What a step can lead to. -/
def Leads (w₀ : World) : Machine ⊕ Outcome → Prop
  | .inl m => m.Safe w₀
  | .inr outcome => outcome.Safe w₀

variable {provision : Provision} {frames : List Frame}

/-- The error of a failure is in the memory if the failure is. -/
theorem has_raise (running : List Running) {fault : Fault} (hf : w.Has fault) :
    w.Has (Running.raise w running fault) := by
  cases fault with
  | value v => exact hf
  | reraised raised => exact hf
  | _ => trivial

theorem fail_safe (hw : w₀.Later w) (hframes : w.HasFrames frames) (levels : Nat) {fault : Fault}
    (hf : w.Has fault) : (fail w frames levels fault).Safe w₀ :=
  ⟨hw, hframes, has_raise _ hf⟩

/-- A task goes on with its next step. -/
theorem work_safe (hw : w₀.Later w) (hframes : w.HasFrames frames) (worker : Worker) {step : Step}
    (safe : step.Safe w) : Safe w₀ ⟨frames, .work worker step⟩ :=
  ⟨hw.trans safe.later, hframes.later safe.later, safe.self⟩

theorem has_enter (place : Nat) (proto : Proto) (captured : Array Nat) {args : List Value} (ha : w.Has args)
    (isTail : Bool) (levels base : Nat) : w.Has (enter place proto captured args isTail levels base) := by
  have hnils : w.Has (Array.replicate proto.registers Value.nil) := by
    intro v hv
    rw [(Array.mem_replicate.mp hv).2]
    exact has_nil
  refine ⟨ScriptFrame.has_fill hnils _ _ ha, ?_, has_list_nil, has_list_nil, has_none⟩
  show w.Has (if proto.isVararg then args.drop proto.params else [])
  split
  · exact ha.drop _
  · exact has_list_nil

theorem call_safe (safe : provision.Safe) (hw : w₀.Later w) (hframes : w.HasFrames frames) (isTail : Bool)
    (levels base fuel : Nat) {f : Value} (hf : w.Has f) {args : List Value} (ha : w.Has args) :
    (call provision w frames isTail levels base fuel f args).Safe w₀ := by
  have overflow : (fail w frames levels (.raised "stack overflow".toUTF8)).Safe w₀ :=
    fail_safe hw hframes levels trivial
  -- A value that is no function is called by its handler, which gets the value as its first argument.
  induction fuel generalizing f args with
  | zero => exact overflow
  | succ fuel ih =>
    unfold call
    split
    · next place =>
      have provided {t : Task (List Value)} (ht : t.Safe w) (worker : Worker) :
          (if slotLimit < base + args.length + providedSlots then
            fail w frames levels (.raised "stack overflow".toUTF8)
          else ⟨frames, .work worker (t.start w)⟩ : Machine).Safe w₀ := by
        split
        · exact overflow
        · exact work_safe hw hframes worker (ht.start hw.sound)
      dsimp only
      split
      · split
        · exact overflow
        · exact ⟨hw, hframes, has_enter _ _ _ ha _ _ _⟩
      · exact provided (safe.builtin _ ha) _
      · exact provided (safe.host _ ha) _
      · exact provided (safe.matching _ _ ha) _
      · exact fail_safe hw hframes levels trivial
    · split
      · exact fail_safe hw hframes levels trivial
      · exact ih (hw.sound.has_handler _ _) ((has_list_cons _ _).mpr ⟨hf, ha⟩)

theorem callDeeper_safe (safe : provision.Safe) (hw : w₀.Later w) (hframes : w.HasFrames frames)
    (levels base : Nat) {f : Value} (hf : w.Has f) {args : List Value} (ha : w.Has args) :
    (callDeeper provision w frames levels base f args).Safe w₀ := by
  unfold callDeeper
  dsimp only
  split
  · exact fail_safe hw hframes _ trivial
  · split
    · exact ⟨hw, hframes, trivial⟩
    · exact call_safe safe hw hframes _ _ _ _ hf ha

theorem has_handlerOf (hframes : w.HasFrames frames) : w.Has (handlerOf frames) := by
  induction frames with
  | nil => trivial
  | cons frame rest ih =>
    obtain ⟨hframe, hrest⟩ := List.forall_mem_cons.mp hframes
    cases frame with
    | script f => exact ih hrest
    | task t =>
      have ht : t.waiting.Safe w := hframe
      unfold handlerOf
      split
      · exact ih hrest
      · exact ih hrest
      · next heq => rw [heq] at ht; exact ht.1
      · next heq => rw [heq] at ht; exact ht.1
      · exact ih hrest

theorem resume_safe (hw : w₀.Later w) (hframes : w.HasFrames frames) {f : ScriptFrame} (hf : w.Has f)
    {values : List Value} (hv : w.Has values) : (resume w frames f values).Safe w₀ := by
  unfold resume
  split
  · exact ⟨hw, hframes, ScriptFrame.has_putResults hf _ _ hv⟩
  · exact ⟨hw, hframes, ScriptFrame.has_put hf _ (hv.headD has_nil)⟩
  · exact ⟨hw, hframes, ScriptFrame.has_put hf _ (has_bool _)⟩
  · refine ⟨hw, hframes, ?_⟩
    show w.Has _
    split
    · exact ScriptFrame.has_jump hf _
    · exact ScriptFrame.has_next hf
  · exact ⟨hw, hframes, ScriptFrame.has_next hf⟩
  · exact ⟨hw, hframes, hf⟩
  · exact ⟨hw, hframes, hv⟩

theorem closeAfter_safe (safe : provision.Safe) (hw : w₀.Later w) (hframes : w.HasFrames frames) (worker : Worker)
    {handler : Handler} (hh : w.Has handler) {values : List Value} (hv : w.Has values) {raised : Raised}
    (hr : w.Has raised) {next : Except Raised (List Value) → World → Step}
    (goes : ∀ outcome w', w.Later w' → w'.Has outcome → (next outcome w').Safe w') :
    (closeAfter provision w frames worker handler values raised next).Safe w₀ := by
  unfold closeAfter
  split
  · exact work_safe hw hframes worker (goes _ w hw.sound.later hr)
  · next v rest =>
    obtain ⟨hv, hrest⟩ := (has_list_cons _ _).mp hv
    have hwaits : (Waiting.closing handler rest raised next).Safe w := ⟨hh, hrest, hr, goes⟩
    have hraised : w.Has raised.value := hr
    exact callDeeper_safe safe hw (.wait hwaits hframes _) _ _ (hw.sound.has_handler _ _) (by simp [hv, hraised])

theorem afterStep_safe (safe : provision.Safe) (hw : w₀.Later w) (hframes : w.HasFrames frames) (worker : Worker)
    {step : Step} (hs : step.Safe w) : (afterStep provision frames worker step).Safe w₀ := by
  cases hs with
  | done later has => exact ⟨hw.trans later, hframes.later later, has⟩
  | @fail _ w' fault later has =>
    have hwaits : (Waiting.results fun _ u => .fail u fault).Safe w' :=
      fun _ u hu _ => .fail hu.sound.later (has.later hu)
    exact fail_safe (hw.trans later) (.wait hwaits (hframes.later later) _) _ has
  | call later callee has goes =>
    refine callDeeper_safe safe (hw.trans later) (.wait ?_ (hframes.later later) _) _ _ callee has
    exact goes
  | guarded later callee has handles goes =>
    refine callDeeper_safe safe (hw.trans later) (.wait ?_ (hframes.later later) _) _ _ callee has
    exact ⟨handles, goes⟩
  | caught later has goes =>
    refine fail_safe (hw.trans later) (.wait ?_ (hframes.later later) _) _ has
    refine ⟨trivial, fun outcome u hu ho => ?_⟩
    cases outcome with
    | ok values => exact .done hu.sound.later ho
    | error raised => exact goes raised u hu ho
  | inspect later goes =>
    exact work_safe (hw.trans later) (hframes.later later) worker (goes _ _ later.sound.later)
  | measure later goes =>
    exact work_safe (hw.trans later) (hframes.later later) worker (goes _ _ later.sound.later)

theorem afterInstruction_safe (safe : provision.Safe) (hw : w₀.Later w) (hframes : w.HasFrames frames)
    {effect : Effect} (he : effect.Safe w) : (afterInstruction provision frames effect).Safe w₀ := by
  cases he with
  | next later frame => exact ⟨hw.trans later, hframes.later later, frame⟩
  | work frame hs => exact afterStep_safe safe hw (.script frame hframes) _ hs
  | call later frame callee has =>
    have hframes := World.HasFrames.script frame (hframes.later later)
    unfold afterInstruction
    dsimp only
    split
    · exact callDeeper_safe safe (hw.trans later) hframes _ _ callee has
    · exact call_safe safe (hw.trans later) hframes _ _ _ _ callee has
  | @replace w' f _ _ later frame callee has =>
    have hframes := hframes.later later
    have hpass : w'.HasFrames (.script { f with resume := .pass } :: frames) :=
      .script (ScriptFrame.has_goOn frame _ _ .pass) hframes
    unfold afterInstruction
    dsimp only
    split
    · split
      · exact call_safe safe (hw.trans later) hframes _ _ _ _ callee has
      · exact call_safe safe (hw.trans later) hpass _ _ _ _ callee has
    · exact call_safe safe (hw.trans later) hpass _ _ _ _ callee has
  | leave later has => exact ⟨hw.trans later, hframes.later later, has⟩
  | fail later frame has =>
    exact fail_safe (hw.trans later) (.script frame (hframes.later later)) _ has

theorem deliver_safe (safe : provision.Safe) (hw : w₀.Later w) (hframes : w.HasFrames frames)
    {values : List Value} (hv : w.Has values) : Leads w₀ (deliver provision w frames values) := by
  unfold deliver
  split
  · exact ⟨hw, hv⟩
  · next f rest =>
    obtain ⟨hf, hrest⟩ := List.forall_mem_cons.mp hframes
    exact resume_safe hw hrest hf hv
  · next t rest =>
    obtain ⟨ht, hrest⟩ := List.forall_mem_cons.mp hframes
    have ht : t.waiting.Safe w := ht
    split
    · next heq => rw [heq] at ht; exact work_safe hw hrest _ (ht values w hw.sound.later hv)
    · next heq => rw [heq] at ht; exact work_safe hw hrest _ (ht.2 (.ok values) w hw.sound.later hv)
    · next heq => rw [heq] at ht; exact closeAfter_safe safe hw hrest _ ht.1 ht.2.1 ht.2.2.1 ht.2.2.2
    · exact ⟨hw, hrest, hv.headD has_nil⟩

theorem handle_safe (safe : provision.Safe) (hw : w₀.Later w) (hframes : w.HasFrames frames) (levels : Nat)
    {raised : Raised} (hr : w.Has raised) : (handle provision w frames levels raised).Safe w₀ := by
  have hh := has_handlerOf hframes
  have hraised : w.Has raised.value := hr
  unfold handle
  split
  · next heq =>
    rw [heq] at hh
    refine callDeeper_safe safe hw (.wait ?_ hframes _) _ _ hh (by simp [hraised])
    trivial
  · exact ⟨hw, hframes, hr⟩

theorem unwind_safe (safe : provision.Safe) (hw : w₀.Later w) (hframes : w.HasFrames frames) {raised : Raised}
    (hr : w.Has raised) {values : List Value} (hv : w.Has values) :
    Leads w₀ (unwind provision w raised values frames) := by
  induction frames generalizing values with
  | nil => exact ⟨hw, hr⟩
  | cons frame rest ih =>
    obtain ⟨hframe, hrest⟩ := List.forall_mem_cons.mp hframes
    cases frame with
    | script f =>
      have hf : w.Has f := hframe
      refine ih hrest ((has_append _ _).mpr ⟨(has_reverse _).mpr fun v hm => ?_, hv⟩)
      obtain ⟨entry, hentry, rfl⟩ := List.mem_map.mp hm
      exact (hf.toClose entry hentry).2
    | task t =>
      have ht : t.waiting.Safe w := hframe
      have hreversed := (has_reverse values).mpr hv
      unfold unwind
      split
      · next heq => rw [heq] at ht; exact closeAfter_safe safe hw hrest _ ht.1 hreversed hr ht.2
      · next heq =>
        rw [heq] at ht
        exact closeAfter_safe safe hw hrest _ ht.1 ((has_append _ _).mpr ⟨hreversed, ht.2.1⟩) hr ht.2.2.2
      · exact ih hrest hv

/-- One step of the machine. -/
theorem advance_safe (safe : provision.Safe) {m : Machine} (hm : m.Safe w₀) : Leads w₀ (m.advance provision) := by
  obtain ⟨frames, control⟩ := m
  obtain ⟨hw, hframes, hcontrol⟩ := hm
  cases control with
  | script w f =>
    unfold advance
    dsimp only
    split
    · exact afterInstruction_safe safe hw hframes (ScriptFrame.execute_safe hw.sound hcontrol _)
    · exact ⟨hw, hframes, has_list_nil⟩
  | work worker step => exact afterStep_safe safe hw hframes worker hcontrol
  | deliver w values => exact deliver_safe safe hw hframes hcontrol
  | raise w levels raised => exact handle_safe safe hw hframes levels hcontrol
  | unwind w raised => exact unwind_safe safe hw hframes hcontrol has_list_nil

/-- Any number of steps. -/
theorem run_safe (safe : provision.Safe) (fuel : Nat) {m : Machine} (hm : m.Safe w₀) :
    (run provision fuel m).Safe w₀ := by
  -- The state is safe before every step, and so is what the last one comes to.
  induction fuel generalizing m with
  | zero => exact hm.later
  | succ fuel ih =>
    have hstep := advance_safe safe hm
    unfold run
    generalize m.advance provision = result at hstep ⊢
    cases result with
    | inl m => exact ih hstep
    | inr outcome => exact hstep

theorem start_safe (hw : w.Sound) (levels : Nat) {handler : Handler} (hh : w.Has handler)
    {t : Task (List Value)} (ht : t.Safe w) : (start w levels handler t).Safe w := by
  refine work_safe hw.later (.wait ?_ (List.forall_mem_nil _) _) _ (ht.start hw)
  refine ⟨hh, fun outcome u hu ho => ?_⟩
  cases outcome with
  | ok values => exact .done hu.sound.later ho
  | error raised => exact .fail hu.sound.later ho

end Machine
end ScriptHost.Lua
