import ScriptHost.Proofs.Change
import ScriptHost.Proofs.Memory.Interpreter
/-! What one request makes of the memory of the interpreter. A request that ends in a panic has spent one, and what
it leaves on the stack is in the memory that it leaves. -/
namespace ScriptHost
open Text (Bytes)

/-- The number of panics that reach whoever asks. A panic that leaves a request counts too. -/
def Interruption.surfaced : Interruption → Nat
  | .failed (.panic _) | .unwound _ => 1
  | .failed _ => 0

/-- The number of panics that reach whoever asks with an outcome. -/
def surfaced {α : Type} : Except Interruption α → Nat
  | .ok _ => 0
  | .error interruption => interruption.surfaced

/-- The number of panics that reach the host with a verdict. -/
def Verdict.surfaced : Verdict → Nat
  | .panic _ => 1
  | _ => 0

/-- The results of a chunk name only what is in the memory. -/
def Verdict.NamedIn (w : Lua.World) : Verdict → Prop
  | .results values => w.Has values
  | _ => True

namespace Host

/-- A host whose interpreter has a sound memory, and in it all that is on the stack. -/
def Sound (h : Host) : Prop := ∀ i, h.interpreter = some i → i.world.Sound ∧ i.world.Has h.stack

variable {h : Host} {i : Lua.Interpreter}

/-- Judging a chunk loads it and calls it. -/
theorem judge_becomes (hw : i.world.Sound) (source : Bytes) :
    ∃ j, (h.judge i source).2.interpreter = some j ∧
      i.world.Becomes (h.judge i source).1.surfaced j.world ∧ (h.judge i source).1.NamedIn j.world := by
  obtain ⟨hload, hplace⟩ := Lua.Interpreter.load_later hw h.config.chunkName source
  unfold judge
  generalize i.load h.config.chunkName source = loaded at hload hplace ⊢
  obtain ⟨e | function, i'⟩ := loaded
  · exact ⟨_, rfl, hload.trans (Lua.Interpreter.takeEvents_later hload.sound), trivial⟩
  · -- What loading wrote to the log is taken before the call.
    have htake := Lua.Interpreter.takeEvents_later hload.sound
    have hcall := (Lua.Interpreter.call_answers htake.sound ((hplace function rfl).later htake)).after
      (hload.trans htake)
    dsimp only
    generalize i'.takeEvents.2.call function = result at hcall ⊢
    have hend := Lua.Interpreter.takeEvents_later hcall.becomes.sound
    obtain ⟨values | e | payload, j⟩ := result
    · exact ⟨_, rfl, hcall.becomes.trans hend, hcall.has.later hend⟩
    · exact ⟨_, rfl, hcall.becomes.trans hend, trivial⟩
    · exact ⟨_, rfl, hcall.becomes.trans hend, trivial⟩

/-- A panic reaches whoever asks exactly when the verdict is one. -/
theorem surfaced_conclude (h : Host) (r : Run) (display : String) (verdict : Verdict) :
    surfaced (h.conclude r display verdict).1 = verdict.surfaced := by
  have quiet (v : Lua.HostValue) (reply : Reply) (h' : Host) : surfaced (h.unlessFunction v reply h').1 = 0 := by
    unfold unlessFunction
    split <;> rfl
  cases verdict with
  | error phase e =>
    simp only [conclude]
    split <;> rfl
  | panic payload => rfl
  | results values =>
    cases r with
    | script _ | file _ => rfl
    | _ => exact quiet _ _ _

/-- The verdict on a run is a verdict on its chunk. -/
theorem judged_becomes (hi : h.interpreter = some i) (hw : i.world.Sound) {r : Run} {verdict : Verdict}
    (hv : h.verdict? r = some verdict) :
    ∃ j, (h.answer (.run r)).2.interpreter = some j ∧ i.world.Becomes verdict.surfaced j.world ∧
      verdict.NamedIn j.world := by
  obtain ⟨stack, log, reports, hframe⟩ := (h.judged r).conclude_frame r (h.display r) verdict
  rw [answer_run hv, hframe]
  cases hc : h.chunk? r with
  | none => simp [verdict?, hi, hc] at hv
  | some chunk =>
    obtain ⟨source, shown⟩ := chunk
    simp only [verdict?, hi, hc, Option.some_inj] at hv
    subst hv
    simp only [judged, hi, hc]
    exact judge_becomes hw source

/-- A new interpreter comes of one without panics. -/
theorem renewal_later (h : Host) : Lua.World.base.Later h.renewal.world := by
  have hlibraries := Lua.World.later_ofLibraries h.config.libraries
  have hfresh : (Lua.World.ofLibraries h.config.libraries).Later h.fresh.world :=
    hlibraries.sound.untouched ⟨rfl, rfl, rfl, rfl, rfl, rfl, rfl⟩
  have hbound := Registry.bindAll_answers h.registry.entries 0 hfresh.sound
  have hok : (Registry.bindAll h.registry.entries 0 h.fresh).1.surfaced = 0 := by
    rw [show Registry.bindAll h.registry.entries 0 h.fresh = _ from h.bindInto_fresh.1]
    rfl
  have hbecomes := hbound.becomes
  rw [hok] at hbecomes
  exact (hlibraries.trans hfresh).trans hbecomes

theorem sound_renewed (h : Host) : h.renewed.Sound := by
  intro i hi
  cases hi
  exact ⟨h.renewal_later.sound, Lua.has_list_nil⟩

private theorem bindGlobal_becomes (hs : h.Sound) (hi : h.interpreter = some i) (name : String) :
    ∃ j, (h.answer (.bindGlobal name)).2.interpreter = some j ∧
      i.world.Becomes (surfaced (h.answer (.bindGlobal name)).1) j.world := by
  obtain ⟨hw, hstack⟩ := hs i hi
  rcases ht : h.stack with _ | ⟨v, rest⟩
  · rw [answer_bindGlobal_nil h ht]
    exact ⟨i, hi, hw.later⟩
  · rw [ht] at hstack
    have hset := Lua.Interpreter.setGlobal_answers hw name ((Lua.has_list_cons _ _).mp hstack).1
    rw [answer_bindGlobal_cons h hi ht]
    generalize i.setGlobal name v = result at hset ⊢
    have hend := Lua.Interpreter.takeEvents_later hset.becomes.sound
    obtain ⟨_ | e | payload, j⟩ := result
    · exact ⟨_, rfl, hset.becomes.trans hend⟩
    · exact ⟨_, rfl, hset.becomes.trans hend⟩
    · exact ⟨_, rfl, hset.becomes.trans hend⟩

/-- A request other than a renewal keeps the interpreter. As many panics as reach whoever asks are spent in its
memory. -/
theorem Sound.answer_becomes (hs : h.Sound) (hi : h.interpreter = some i) {request : Request}
    (hr : request ≠ .renew) :
    ∃ j, (h.answer request).2.interpreter = some j ∧
      i.world.Becomes (surfaced (h.answer request).1) j.world := by
  have hw := (hs i hi).1
  cases request with
  | renew => exact absurd rfl hr
  | pushInteger _ | pushNumber _ | pushBoolean _ | pushPointer _ | peekInteger _ => exact ⟨i, hi, hw.later⟩
  | pushString text =>
    rw [answer_pushString]
    split <;> exact ⟨i, hi, hw.later⟩
  | popString =>
    rcases ht : h.stack with _ | ⟨v, rest⟩
    · rw [answer_popString_nil h ht]
      exact ⟨i, hi, hw.later⟩
    · rw [answer_popString_cons h ht]
      split
      · split <;> exact ⟨i, hi, hw.later⟩
      · exact ⟨i, hi, hw.later⟩
  | bindGlobal name => exact bindGlobal_becomes hs hi name
  | run r =>
    cases hv : h.verdict? r with
    | none =>
      obtain ⟨path, e, rfl, hf⟩ := unread_of_verdict?_none hi hv
      rw [answer_unread hf]
      exact ⟨i, hi, hw.later⟩
    | some verdict =>
      obtain ⟨j, hj, hbecomes, -⟩ := judged_becomes hi hw hv
      have ha := congrArg (fun answer => surfaced answer.1) (answer_run hv)
      refine ⟨j, hj, ?_⟩
      rw [ha, surfaced_conclude]
      exact hbecomes

/-- Whatever a request leaves on the stack is in the memory that it leaves. -/
private theorem has_change (hs : h.Sound) (hi : h.interpreter = some i) {request : Request} (hr : request ≠ .renew)
    {j : Lua.Interpreter} (hj : (h.answer request).2.interpreter = some j) {stack : List Lua.HostValue}
    (hc : h.Change request stack) : j.world.Has stack := by
  obtain ⟨hw, hstack⟩ := hs i hi
  obtain ⟨j', hj', hbecomes⟩ := hs.answer_becomes hi hr
  obtain rfl : j' = j := Option.some.inj (hj'.symm.trans hj)
  have hkept : j'.world.Has h.stack := hstack.later hbecomes
  have pushed {v : Lua.HostValue} (hv : j'.world.Has v) : j'.world.Has (v :: h.stack) :=
    (Lua.has_list_cons _ _).mpr ⟨hv, hkept⟩
  cases hc with
  | same => exact hkept
  | cleared heq => exact absurd heq hr
  | taken ht =>
    rw [ht] at hkept
    exact ((Lua.has_list_cons _ _).mp hkept).2
  | @pushed v hv =>
    refine pushed ?_
    cases v with
    | table _ | function _ => cases hv
    | _ => trivial
  | text _ => exact pushed trivial
  | @result r values heq hv hf =>
    subst heq
    -- The memory that has the results is that of the interpreter now.
    obtain ⟨k, hk, -, hvalues⟩ := judged_becomes hi hw hv
    obtain rfl : k = j' := Option.some.inj (hk.symm.trans hj)
    exact pushed (Lua.World.Has.headD hvalues trivial)

private theorem Sound.answer_plain (hs : h.Sound) (request : Request) : (h.answer request).2.Sound := by
  by_cases hr : request = .renew
  · rw [hr, answer_renew]
    exact h.sound_renewed
  · intro j hj
    cases hi : h.interpreter with
    | none =>
      rw [(h.interpreter_answer hr).2.mpr hi] at hj
      cases hj
    | some i =>
      obtain ⟨j', hj', hbecomes⟩ := hs.answer_becomes hi hr
      obtain rfl : j' = j := Option.some.inj (hj'.symm.trans hj)
      exact ⟨hbecomes.sound, has_change hs hi hr hj (h.change_answer request)⟩

/-- A request keeps a host sound. -/
theorem Sound.answer (hs : h.Sound) (request : Request) (refuses : Lua.Refusal := fun _ => none) :
    (h.answer request refuses).2.Sound := by
  obtain ⟨log, ha⟩ | ⟨interpreter, rest, log, ha, hrest, hi⟩ := h.answer_refusing request refuses
  · rw [ha]
    exact hs.answer_plain request
  · rw [ha]
    intro j hj
    obtain rfl | ⟨i, hi, rfl⟩ := hi
    · exact ⟨(hs j hj).1, (hs j hj).2.of_subset hrest.subset⟩
    · cases hj
      have hend := Lua.Interpreter.takeEvents_later (hs i hi).1
      exact ⟨hend.sound, ((hs i hi).2.of_subset hrest.subset).later hend⟩

theorem Sound.after (hs : h.Sound) (requests : List Request) : (h.after requests).Sound := by
  induction requests generalizing h with
  | nil => exact hs
  | cons request rest ih => exact ih (hs.answer request)

end Host

theorem Reachable.sound {h : Host} (hr : Reachable h) : h.Sound := by
  induction hr with
  | started config registry files directory clock hs =>
    obtain ⟨-, rfl⟩ := Host.renewed_of_start _ hs
    exact Host.sound_renewed _
  | answered request refuses _ ih => exact ih.answer request refuses
  | redirected => assumption

end ScriptHost
