import ScriptHost.Proofs.Memory.Request
import ScriptHost.Proofs.Panic
import ScriptHost.Proofs.Report
/-! How often a panic reaches whoever asks. It is in memory until it does, and then it is spent there: what is left
of it is a fatal error when it is raised again. -/
namespace ScriptHost

namespace Lua

/-- Whether a value is a panic that has reached the host, or an error of the host that comes down to one. -/
def World.IsSpent (w : World) (v : Value) : Prop :=
  ∃ place, v = .failure place ∧
    (w.HasSpent place ∨ ∃ e, w.failures[place]? = some (.error e) ∧ e.rootCause = .spentPanic)

/-- Whether a run of the machine fails with a panic that has reached the host. -/
def Outcome.isSpent : Outcome → Bool
  | .failed w ⟨.failure place, _⟩ => w.failures[place]? == some (.panic none)
  | _ => false

theorem Outcome.exists_of_isSpent {outcome? : Option Outcome} (h : outcome?.any (·.isSpent)) :
    ∃ w raised, outcome? = some (.failed w raised) ∧ w.IsSpent raised.value := by
  cases outcome? with
  | none => cases h
  | some outcome =>
    simp only [Option.any_some, isSpent] at h
    split at h
    · next w place kind => exact ⟨w, _, rfl, place, rfl, .inl (eq_of_beq h)⟩
    · cases h

/-- What is left of a panic arrives as the error that it was spent before, with the calls around it. -/
theorem World.IsSpent.arrivedError {w : World} {raised : Raised} (hs : w.IsSpent raised.value) :
    ∃ e, e.rootCause = .spentPanic ∧ w.arrivedError raised = (.ok e, w) := by
  obtain ⟨place, hv, hp | ⟨e, he, hc⟩⟩ := hs
  · have hp : w.failures[place]? = some (.panic none) := hp
    exact ⟨.spentPanic, rfl, by simp [World.arrivedError, hv, hp]⟩
  · exact ⟨e, hc, by simp [World.arrivedError, hv, he]⟩

/-- An uncaught panic is spent when it arrives. -/
theorem World.hasSpent_arrivedError {w u : World} {raised : Raised} {place : Nat} {payload : PanicPayload}
    (hv : raised.value = .failure place) (ha : w.arrivedError raised = (.error payload, u)) :
    u.HasSpent place := by
  simp only [World.arrivedError, hv] at ha
  split at ha
  · cases ha
  · next held hf =>
    cases ha
    have hlt : place < w.failures.size := (Array.getElem?_eq_some_iff.mp hf).1
    simp [World.HasSpent, putAt, hlt]
  · cases ha

/-- A call that ends with an uncaught error answers with what arrives of it. -/
theorem Interpreter.call_of_failed (i : Interpreter) {function : Nat} {w : World} {raised : Raised}
    (he : i.outcome 0 (.call (.function function) []) = .failed w raised) :
    i.call function = match w.arrivedError raised with
      | (.ok e, u) => (.error e, { i with world := u })
      | (.error payload, u) => (.panic payload, { i with world := u }) := by
  unfold outcome at he
  rcases ha : w.arrivedError raised with ⟨payload | e, u⟩ <;> simp only [call, run, he, ha]

end Lua

namespace Host
variable {h : Host} {i : Lua.Interpreter}

/-- How the call of the chunk of a run ends; none if it is not called. -/
def ending? (h : Host) (r : Run) : Option Lua.Outcome :=
  match h.interpreter, h.chunk? r with
  | some i, some (source, _) =>
    match i.load h.config.chunkName source with
    | (.ok function, j) => some (j.takeEvents.2.outcome 0 (.call (.function function) []))
    | (.error _, _) => none
  | _, _ => none

/-- A chunk that is called has been loaded before. -/
theorem exists_of_ending? {r : Run} {outcome : Lua.Outcome} (he : h.ending? r = some outcome) :
    ∃ i source shown function j, h.interpreter = some i ∧ h.chunk? r = some (source, shown) ∧
      i.load h.config.chunkName source = (.ok function, j) ∧
      j.takeEvents.2.outcome 0 (.call (.function function) []) = outcome := by
  cases hi : h.interpreter with
  | none => simp [ending?, hi] at he
  | some i =>
    cases hc : h.chunk? r with
    | none => simp [ending?, hi, hc] at he
    | some chunk =>
      obtain ⟨source, shown⟩ := chunk
      rcases hl : i.load h.config.chunkName source with ⟨e | function, j⟩
      · simp [ending?, hi, hc, hl] at he
      · simp only [ending?, hi, hc, hl, Option.some_inj] at he
        exact ⟨i, source, shown, function, j, rfl, rfl, hl, he⟩

/-- A chunk is called in a memory that has all of the old one. Whatever the call comes to leaves the memory sound. -/
theorem Sound.ending (hs : h.Sound) {r : Run} {outcome : Lua.Outcome} (he : h.ending? r = some outcome) :
    ∃ i w, h.interpreter = some i ∧ i.world.Later w ∧ outcome.Safe w := by
  obtain ⟨i, source, shown, function, j, hi, -, hl, hend⟩ := exists_of_ending? he
  obtain ⟨hload, hplace⟩ := Lua.Interpreter.load_later (hs i hi).1 h.config.chunkName source
  rw [hl] at hload hplace
  have htake := Lua.Interpreter.takeEvents_later hload.sound
  have hfunction := (hplace function rfl).later htake
  refine ⟨i, _, hi, hload.trans htake, ?_⟩
  rw [← hend]
  exact Lua.Interpreter.ended_safe htake.sound 0 (.call hfunction Lua.has_list_nil)

/-- The verdict on a chunk that ends with an uncaught error is what arrives of it. -/
theorem verdict?_of_failed {r : Run} {w : Lua.World} {raised : Lua.Raised}
    (he : h.ending? r = some (.failed w raised)) :
    (∀ e u, w.arrivedError raised = (.ok e, u) → h.verdict? r = some (.error .evaluating e)) ∧
      ∀ payload u, w.arrivedError raised = (.error payload, u) → h.verdict? r = some (.panic payload) ∧
        ∃ j : Lua.Interpreter, j.world = u ∧ (h.judged r).interpreter = some j.takeEvents.2 := by
  obtain ⟨i, source, shown, function, j, hi, hc, hl, hend⟩ := exists_of_ending? he
  have hcall := j.takeEvents.2.call_of_failed hend
  refine ⟨fun e u ha => ?_, fun payload u ha => ?_⟩
  · simp only [ha] at hcall
    simp only [verdict?, hi, hc, judge, hl, hcall]
  · simp only [ha] at hcall
    simp only [verdict?, judged, hi, hc, judge, hl, hcall]
    exact ⟨trivial, _, rfl, rfl⟩

/-- A run fails with a fatal error, and nothing is reported. -/
def FailsFatally (h : Host) (r : Run) : Prop :=
  (∃ text, (h.answer (.run r)).1 = .error (.failed (.fatal text))) ∧ h.Reports r []

theorem failsFatally_of_isSpent {r : Run} {w : Lua.World} {raised : Lua.Raised}
    (he : h.ending? r = some (.failed w raised)) (hs : w.IsSpent raised.value) : h.FailsFatally r := by
  obtain ⟨e, hc, ha⟩ := hs.arrivedError
  obtain ⟨hanswer, hreports⟩ := answer_run_fatal ((verdict?_of_failed he).1 e w ha) hc
  exact ⟨⟨_, hanswer⟩, hreports⟩

/-- The number of panics that functions of the host have raised in the interpreter. -/
def panics (h : Host) : Nat :=
  match h.interpreter with
  | some i => i.world.panics
  | none => 0

theorem panics_eq (hi : h.interpreter = some i) : h.panics = i.world.panics := by rw [panics, hi]

/-- The number of panics that functions of the host raise while a request is answered. A new interpreter counts
from zero. -/
def raisedBy (h : Host) (request : Request) : Nat :=
  match request with
  | .renew => (h.answer .renew).2.panics
  | _ => (h.answer request).2.panics - h.panics

theorem raisedBy_eq {request : Request} (hr : request ≠ .renew) :
    h.raisedBy request = (h.answer request).2.panics - h.panics := by
  cases request with
  | renew => exact absurd rfl hr
  | _ => rfl

end Host

/-- A host that requests lead to; how many panics its functions have raised for the first time on the way, and how
many requests have ended in a panic. -/
inductive Counted : Host → Nat → Nat → Prop where
  | started (config : Config) (registry : Registry) (files : FileSource) (directory : FileTree)
      (clock : Lua.ClockReading) {h : Host} :
      Host.start { config, registry, files, directory, clock } = (.ok (), h) → Counted h h.panics 0
  | answered {h : Host} {raised surfaced : Nat} (request : Request) : Counted h raised surfaced →
      Counted (h.answer request).2 (raised + h.raisedBy request)
        (surfaced + ScriptHost.surfaced (h.answer request).1)
  | redirected {h : Host} {raised surfaced : Nat} (sink : DiagnosticSink) (files : FileSource)
      (directory : FileTree) (clock : Lua.ClockReading) : Counted h raised surfaced →
      Counted { h with sink, files, directory, clock } raised surfaced

namespace Host

/-- Panics that have been raised have surfaced at most once: as many as have not surfaced are still in memory. -/
structure Accounts (h : Host) (raised surfaced : Nat) (i : Lua.Interpreter) : Prop where
  interpreter : h.interpreter = some i
  sound : h.Sound
  balance : surfaced + i.world.unspent ≤ raised

theorem accounts_renewed (h : Host) {raised surfaced : Nat} (hb : surfaced ≤ raised) :
    h.renewed.Accounts (raised + h.renewed.panics) surfaced h.renewal := by
  refine ⟨rfl, h.sound_renewed, ?_⟩
  have ha := h.renewal_later.accounts
  rw [Lua.World.unspent_base, Lua.World.panics_base] at ha
  rw [panics_eq (i := h.renewal) rfl]
  omega

variable {h : Host} {i : Lua.Interpreter} {raised surfaced : Nat}

theorem Accounts.answer (accounts : h.Accounts raised surfaced i) (request : Request) :
    ∃ j, (h.answer request).2.Accounts (raised + h.raisedBy request)
      (surfaced + ScriptHost.surfaced (h.answer request).1) j := by
  have hb := accounts.balance
  by_cases hr : request = .renew
  · rw [hr, raisedBy, answer_renew]
    -- Panics that are left in the old memory will never surface.
    have hb : surfaced + 0 ≤ raised := by omega
    exact ⟨_, h.accounts_renewed hb⟩
  · obtain ⟨j, hj, hbecomes⟩ := accounts.sound.answer_becomes accounts.interpreter hr
    refine ⟨j, hj, accounts.sound.answer request, ?_⟩
    have ha := hbecomes.accounts
    rw [raisedBy_eq hr, panics_eq hj, panics_eq accounts.interpreter]
    omega

end Host

theorem Counted.accounts {h : Host} {raised surfaced : Nat} (hc : Counted h raised surfaced) :
    ∃ i, h.Accounts raised surfaced i := by
  induction hc with
  | started config registry files directory clock hs =>
    obtain ⟨-, rfl⟩ := Host.renewed_of_start _ hs
    have accounts := Host.accounts_renewed { config, registry, files, directory, clock } (Nat.le_refl 0)
    rw [Nat.zero_add] at accounts
    exact ⟨_, accounts⟩
  | answered request _ ih =>
    obtain ⟨i, accounts⟩ := ih
    exact accounts.answer request
  | redirected sink files directory clock _ ih =>
    obtain ⟨i, accounts⟩ := ih
    exact ⟨i, accounts.interpreter, accounts.sound, accounts.balance⟩

namespace Host
variable {h : Host} {i : Lua.Interpreter} {raised surfaced : Nat}

/-- Whether a panic has been at a place of the interpreter's memory until it reached the host. -/
def HasSpent (h : Host) (place : Nat) : Prop := ∃ i, h.interpreter = some i ∧ i.world.HasSpent place

/-- What is spent stays spent until there is another interpreter. -/
theorem HasSpent.after {place : Nat} (hp : h.HasSpent place) (hs : h.Sound) {requests : List Request}
    (hr : .renew ∉ requests) : (h.after requests).HasSpent place := by
  induction requests generalizing h with
  | nil => exact hp
  | cons request rest ih =>
    have hne : request ≠ .renew := (List.ne_of_not_mem_cons hr).symm
    obtain ⟨i, hi, hp⟩ := hp
    obtain ⟨j, hj, hbecomes⟩ := hs.answer_becomes hi hne
    exact ih ⟨j, hj, hbecomes.extends_.spent place hp⟩ (hs.answer request) (List.not_mem_of_not_mem_cons hr)

/-- Calling a chunk leaves what is spent as it is. -/
theorem HasSpent.ending {place : Nat} (hp : h.HasSpent place) (hs : h.Sound) {r : Run} {w : Lua.World}
    {e : Lua.Raised} (he : h.ending? r = some (.failed w e)) : w.HasSpent place := by
  obtain ⟨i, u, hi, hloaded, hcalled, -⟩ := hs.ending he
  obtain ⟨i', hi', hp⟩ := hp
  obtain rfl : i' = i := Option.some.inj (hi'.symm.trans hi)
  exact (hloaded.trans hcalled).extends_.spent place hp

/-- A run that ends in an uncaught panic has spent it. -/
theorem hasSpent_of_panic {r : Run} {w : Lua.World} {e : Lua.Raised} {place : Nat}
    (he : h.ending? r = some (.failed w e)) (hv : e.value = .failure place) {text : String}
    (ha : (h.answer (.run r)).1 = .error (.failed (.panic text))) : (h.answer (.run r)).2.HasSpent place := by
  obtain ⟨quiet, loud⟩ := verdict?_of_failed he
  rcases harrived : w.arrivedError e with ⟨payload | err, u⟩
  · obtain ⟨hv', j, rfl, hj⟩ := loud payload _ harrived
    have hspent := Lua.World.hasSpent_arrivedError hv harrived
    rw [answer_run hv']
    exact ⟨_, hj, hspent⟩
  · have hs := surfaced_conclude (h.judged r) r (h.display r) (.error .evaluating err)
    rw [← answer_run (quiet err u harrived), ha] at hs
    cases hs

/-- A panic surfaces once at most: no more requests end in a panic than panics have been raised by functions of the
host. A run that an uncaught panic ends has spent it. From then on, until there is another interpreter, a run whose
chunk it ends again fails fatally and reports nothing, and so does every run that ends in an error which comes down
to a spent panic. -/
theorem panics_surface_once (hc : Counted h raised surfaced) :
    surfaced ≤ raised ∧
    (∀ r w e place text, h.ending? r = some (.failed w e) → e.value = .failure place →
      (h.answer (.run r)).1 = .error (.failed (.panic text)) → (h.answer (.run r)).2.HasSpent place) ∧
    (∀ place, h.HasSpent place → ∀ requests, .renew ∉ requests → ∀ r w e,
      (h.after requests).ending? r = some (.failed w e) → e.value = .failure place →
      (h.after requests).FailsFatally r) ∧
    ∀ r w e, h.ending? r = some (.failed w e) → w.IsSpent e.value → h.FailsFatally r := by
  obtain ⟨i, accounts⟩ := hc.accounts
  refine ⟨?_, ?_, fun place hp requests hr r w e he hv => ?_, ?_⟩
  · have := accounts.balance
    omega
  · exact fun r w e place text he hv ha => hasSpent_of_panic he hv ha
  · have hspent := (hp.after accounts.sound hr).ending (accounts.sound.after requests) he
    exact failsFatally_of_isSpent he ⟨place, hv, .inl hspent⟩
  · exact fun r w e he hs => failsFatally_of_isSpent he hs

/-- The numbers of panics raised and surfaced, once some requests are added to them. -/
def tally (h : Host) (raised surfaced : Nat) : List Request → Nat × Nat
  | [] => (raised, surfaced)
  | request :: rest =>
    (h.answer request).2.tally (raised + h.raisedBy request)
      (surfaced + ScriptHost.surfaced (h.answer request).1) rest

end Host

theorem Counted.offering (functions : List (String × Lua.HostFunction)) :
    Counted (Host.offering functions) (Host.offering functions).panics 0 :=
  .started {} (.ofList functions) _ ⟨[]⟩ {} (Host.start_offering functions)

theorem Counted.after {h : Host} {raised surfaced : Nat} (hc : Counted h raised surfaced)
    (requests : List Request) :
    Counted (h.after requests) (h.tally raised surfaced requests).1 (h.tally raised surfaced requests).2 := by
  induction requests generalizing h raised surfaced with
  | nil => exact hc
  | cons request rest ih => exact ih (hc.answered request)

namespace Host

/-- Two panics that a script catches; then one of them is raised again. -/
def explosions : List Request :=
  [.run (.script "_, p = pcall(Boom); _, q = pcall(Boom)"), .run (.script "error(p)")]

/-- A host after those. -/
def resumed : Host := (offering [("Boom", .panic ⟨some "interpreter invariant broken"⟩)]).after explosions

private theorem counted_resumed : Counted resumed 2 1 := by
  have hc := (Counted.offering [("Boom", .panic ⟨some "interpreter invariant broken"⟩)]).after explosions
  rwa [show tally _ _ _ explosions = (2, 1) by decide +kernel] at hc

private theorem resumed_isSpent :
    ∃ w e, resumed.ending? (.script "error(p)") = some (.failed w e) ∧ w.IsSpent e.value :=
  Lua.Outcome.exists_of_isSpent (by decide +kernel)

/-- The panic that has surfaced is a fatal error when it is raised once more; the other one has not surfaced. -/
theorem panics_surface_once_resumed :
    Counted resumed 2 1 ∧ 1 ≤ 2 ∧
      (∃ w e, resumed.ending? (.script "error(p)") = some (.failed w e) ∧ w.IsSpent e.value) ∧
      resumed.FailsFatally (.script "error(p)") := by
  obtain ⟨w, e, he, hs⟩ := resumed_isSpent
  have once := panics_surface_once counted_resumed
  exact ⟨counted_resumed, once.1, ⟨w, e, he, hs⟩, once.2.2.2 _ w e he hs⟩

end Host
end ScriptHost
