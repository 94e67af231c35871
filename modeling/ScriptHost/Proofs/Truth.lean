import ScriptHost.Proofs.Surfacing
/-! Whether a value is true for scripts, and whether it is for the host. The two agree unless the value is a panic that
has reached the host before. To scripts it is still an object, the host has nothing of it. -/
namespace ScriptHost

namespace Lua

/-- Whether a value is itself a panic that has reached the host. -/
def World.IsSpentPanic (w : World) (v : Value) : Prop := ∃ place, v = .failure place ∧ w.HasSpent place

section Values
variable {w : World} {v : Value}

theorem World.IsSpentPanic.isTrue (h : w.IsSpentPanic v) : v.isTrue := by
  obtain ⟨place, rfl, -⟩ := h
  rfl

/-- A value without a panic to give is true for the host if it is for scripts and has not given its panic before. -/
theorem World.isTrue_of_receive (hhas : w.Has v) (hnone : w.payload? v = none) {a : HostValue}
    (ha : w.receive v = (.ok a, w)) : a.isTrue ↔ v.isTrue ∧ ¬ w.IsSpentPanic v := by
  cases v with
  | failure place =>
    -- A place in use has an error or a panic, and the panic is spent: it would not arrive as a value otherwise.
    have hfailure : w.failures[place]? = some w.failures[place] := Array.getElem?_eq_getElem hhas
    rcases hf : w.failures[place] with e | _ | payload <;> rw [hf] at hfailure
    · simp only [receive, hfailure, Prod.mk.injEq, Except.ok.injEq, and_true] at ha
      subst ha
      refine iff_of_true rfl ⟨rfl, ?_⟩
      rintro ⟨_, ⟨⟩, hspent⟩
      cases hfailure.symm.trans hspent
    · simp only [receive, hfailure, Prod.mk.injEq, Except.ok.injEq, and_true] at ha
      subst ha
      exact iff_of_false Bool.noConfusion fun htrue => htrue.2 ⟨place, rfl, hfailure⟩
    · simp [payload?, hfailure] at hnone
  | bool b =>
    cases ha
    have hunspent : ¬ w.IsSpentPanic (.bool b) := by rintro ⟨_, ⟨⟩, -⟩
    cases b
    · exact iff_of_false Bool.noConfusion fun htrue => Bool.noConfusion htrue.1
    · exact iff_of_true rfl ⟨rfl, hunspent⟩
  | nil =>
    cases ha
    exact iff_of_false Bool.noConfusion fun htrue => Bool.noConfusion htrue.1
  | _ =>
    cases ha
    refine iff_of_true rfl ⟨rfl, ?_⟩
    rintro ⟨_, ⟨⟩, -⟩

/-- What is no function for scripts is none for the host. -/
theorem World.isFunction_of_receive (hv : ∀ place, v ≠ .function place) {a : HostValue}
    (ha : w.receive v = (.ok a, w)) : a.isFunction = false := by
  cases v with
  | function place => exact absurd rfl (hv place)
  | failure place =>
    simp only [receive] at ha
    split at ha <;> cases ha <;> rfl
  | _ =>
    cases ha
    rfl

/-- Values without panics all arrive. -/
theorem World.receiveAll_of_none {values : List Value} (hnone : ∀ v ∈ values, w.payload? v = none) :
    ∃ results, w.receiveAll values = (.ok results, w) ∧
      w.receive (values.headD .nil) = (.ok (results.headD .nil), w) := by
  induction values with
  | nil => exact ⟨[], rfl, rfl⟩
  | cons v rest ih =>
    obtain ⟨hv, hrest⟩ := List.forall_mem_cons.mp hnone
    obtain ⟨a, ha⟩ := receive_of_none hv
    obtain ⟨results, hresults, -⟩ := ih hrest
    refine ⟨a :: results, ?_, ha⟩
    simp only [receiveAll, ha, hresults]

end Values

/-- A call that ends with results answers with what arrives of them. -/
theorem Interpreter.call_of_finished (i : Interpreter) {function : Nat} {w : World} {values : List Value}
    (he : i.outcome 0 (.call (.function function) []) = .finished w values) :
    i.call function = match w.receiveAll values with
      | (.ok results, u) => (.ok results, { i with world := u })
      | (.error payload, u) => (.panic payload, { i with world := u }) := by
  unfold outcome at he
  rcases ha : w.receiveAll values with ⟨payload | results, u⟩ <;> simp only [call, run, he, ha]

end Lua

namespace Host
variable {h : Host} {text : String} {w : Lua.World} {values : List Lua.Value}

/-- The verdict on a chunk that ends with results is what arrives of them. -/
theorem verdict?_of_finished {r : Run} (he : h.ending? r = some (.finished w values)) :
    h.verdict? r = some (match (w.receiveAll values).1 with
      | .ok results => .results results
      | .error payload => .panic payload) := by
  obtain ⟨i, source, shown, function, j, hi, hc, hl, hend⟩ := exists_of_ending? he
  have hcall := j.takeEvents.2.call_of_finished hend
  rcases ha : w.receiveAll values with ⟨payload | results, u⟩ <;> simp only [ha] at hcall <;>
    simp only [verdict?, hi, hc, judge, hl, hcall]

/-- Whether the host is told that an expression is true exactly if scripts take the value as true, or else that a
panic is there. -/
def TellsTruth (h : Host) (text : String) (v : Lua.Value) : Prop :=
  (h.answer (.run (.truth text))).1 = .ok (.truth v.isTrue) ∨
    ∃ report, (h.answer (.run (.truth text))).1 = .error (.failed (.panic report))

/-- An expression that gives a panic among its values answers with it. -/
theorem answer_truth_of_panic (he : h.ending? (.truth text) = some (.finished w values))
    (hfresh : ∃ v ∈ values, (w.payload? v).isSome) :
    ∃ report, (h.answer (.run (.truth text))).1 = .error (.failed (.panic report)) := by
  have hfirst : (values.findSome? w.payload?).isSome := List.findSome?_isSome_iff.mpr hfresh
  obtain ⟨payload, hpayload⟩ := Option.isSome_iff_exists.mp hfirst
  have hverdict := verdict?_of_finished he
  rw [(w.receiveAll_error_iff values payload).mpr hpayload] at hverdict
  rw [answer_run hverdict]
  exact ⟨_, rfl⟩

/-- An expression without panics to give, whose first value is no function, answers whether that value is true. It
is if it is for scripts and is no spent panic. -/
theorem answer_truth_of_none (hs : h.Sound) (he : h.ending? (.truth text) = some (.finished w values))
    (hfunction : ∀ place, values.headD .nil ≠ .function place) (hnone : ∀ v ∈ values, w.payload? v = none) :
    ∃ b : Bool, (h.answer (.run (.truth text))).1 = .ok (.truth b) ∧
      (b ↔ (values.headD .nil).isTrue ∧ ¬ w.IsSpentPanic (values.headD .nil)) := by
  obtain ⟨i, w₀, -, -, -, hhas⟩ := hs.ending he
  obtain ⟨results, hresults, hfirst⟩ := Lua.World.receiveAll_of_none hnone
  have hplain := Lua.World.isFunction_of_receive hfunction hfirst
  have hverdict := verdict?_of_finished he
  rw [hresults] at hverdict
  refine ⟨(results.headD .nil).isTrue, ?_, ?_⟩
  · rw [answer_run hverdict]
    simp only [conclude, accept, unlessFunction, hplain, Bool.false_eq_true, if_false]
  · have hhead : w.payload? (values.headD .nil) = none := by
      cases values with
      | nil => rfl
      | cons v rest => exact hnone v List.mem_cons_self
    have hin : w.Has (values.headD .nil) := Lua.World.Has.headD hhas trivial
    exact Lua.World.isTrue_of_receive hin hhead hfirst

/-- Of every expression the host is told what scripts take its value for, or that a panic is there, unless the value is
a spent panic and no other panic comes with it. Then the host is told that it is false, while scripts take it as true.
A panic is there exactly if one of the values of the expression still carries one. -/
theorem tellsTruth_iff (hr : Reachable h) (he : h.ending? (.truth text) = some (.finished w values))
    (hfunction : ∀ place, values.headD .nil ≠ .function place) :
    (h.TellsTruth text (values.headD .nil) ↔
        (w.IsSpentPanic (values.headD .nil) → ∃ v ∈ values, (w.payload? v).isSome)) ∧
      ((∃ report, (h.answer (.run (.truth text))).1 = .error (.failed (.panic report))) ↔
        ∃ v ∈ values, (w.payload? v).isSome) ∧
      (¬ h.TellsTruth text (values.headD .nil) →
        (values.headD .nil).isTrue ∧ (h.answer (.run (.truth text))).1 = .ok (.truth false)) := by
  by_cases hfresh : ∃ v ∈ values, (w.payload? v).isSome
  · have hpanic := answer_truth_of_panic he hfresh
    have htold : h.TellsTruth text (values.headD .nil) := .inr hpanic
    exact ⟨iff_of_true htold fun _ => hfresh, iff_of_true hpanic hfresh, fun hnot => absurd htold hnot⟩
  · have hnone : ∀ v ∈ values, w.payload? v = none := by
      simpa only [not_exists, not_and, Option.not_isSome_iff_eq_none] using hfresh
    obtain ⟨b, hb, htrue⟩ := answer_truth_of_none hr.sound he hfunction hnone
    have hquiet : ¬ ∃ report, (h.answer (.run (.truth text))).1 = .error (.failed (.panic report)) := by
      rintro ⟨report, hreport⟩
      cases hb.symm.trans hreport
    by_cases hspent : w.IsSpentPanic (values.headD .nil)
    · have hscripts := hspent.isTrue
      obtain rfl : b = false := Bool.eq_false_iff.mpr fun hb => (htrue.mp hb).2 hspent
      have hnot : ¬ h.TellsTruth text (values.headD .nil) := by
        rintro (hsame | hpanic)
        · rw [hscripts] at hsame
          cases hb.symm.trans hsame
        · exact hquiet hpanic
      exact ⟨iff_of_false hnot fun h => hfresh (h hspent), iff_of_false hquiet hfresh, fun _ => ⟨hscripts, hb⟩⟩
    · have hsame : b = (values.headD .nil).isTrue := Bool.eq_iff_iff.mpr (htrue.trans (and_iff_left hspent))
      have htold : h.TellsTruth text (values.headD .nil) := .inl (hsame ▸ hb)
      refine ⟨iff_of_true htold ?_, iff_of_false hquiet hfresh, ?_⟩
      · intro h
        exact absurd h hspent
      · intro hnot
        exact absurd htold hnot

/-- Whether a call ends with such a failure as its first result. -/
private def givesFailure (p : Lua.Failure → Bool) : Lua.Outcome → Bool
  | .finished w (.failure place :: _) => w.failures[place]?.any p
  | _ => false

private theorem exists_of_givesFailure {p : Lua.Failure → Bool} {outcome? : Option Lua.Outcome}
    (h : outcome?.any (givesFailure p)) :
    ∃ w place values failure, outcome? = some (.finished w (.failure place :: values)) ∧
      w.failures[place]? = some failure ∧ p failure := by
  obtain ⟨outcome, rfl, hgives⟩ := (Option.any_eq_true _ _).mp h
  simp only [givesFailure] at hgives
  split at hgives
  · next w place values =>
    obtain ⟨failure, hfailure, hp⟩ := (Option.any_eq_true _ _).mp hgives
    exact ⟨w, place, values, failure, rfl, hfailure, hp⟩
  · cases hgives

private theorem eq_ok_of_toOption {answer : Except Interruption Reply} {reply : Reply}
    (h : answer.toOption = some reply) : answer = .ok reply := by
  cases answer with
  | error e => cases h
  | ok r =>
    cases h
    rfl

/-- A host with an error of its own that a script has caught. -/
def failing : Host :=
  (offering [("Fail", .raise (.runtime "no"))]).after [.run (.script "_, e = pcall(Fail)")]

/-- An error of the host that a script has caught is true. -/
theorem tellsTruth_iff_failing :
    ∃ w place values, Reachable failing ∧
      failing.ending? (.truth "e") = some (.finished w (.failure place :: values)) ∧
      (∀ p, Lua.Value.failure place ≠ .function p) ∧ ¬ w.IsSpentPanic (.failure place) ∧
      failing.TellsTruth "e" (.failure place) := by
  have hr : Reachable failing := (Reachable.offering _).after _
  have hgives : (failing.ending? (.truth "e")).any (givesFailure fun failure => failure matches .error _) := by
    decide +kernel
  obtain ⟨w, place, values, failure, he, hfailure, herror⟩ := exists_of_givesFailure hgives
  have hfunction : ∀ p, Lua.Value.failure place ≠ .function p := fun _ => Lua.Value.noConfusion
  have hunspent : ¬ w.IsSpentPanic (.failure place) := by
    rintro ⟨_, ⟨⟩, hspent⟩
    obtain rfl : failure = .panic none := Option.some.inj (hfailure.symm.trans hspent)
    cases herror
  obtain ⟨htold, -, -⟩ := tellsTruth_iff hr he hfunction
  exact ⟨w, place, values, hr, he, hfunction, hunspent, htold.mpr fun h => absurd h hunspent⟩

/-- A panic that has reached the host before is false for it. Scripts take it as true. -/
theorem spent_panic_told_false :
    Reachable resumed ∧
      (∃ w place values, resumed.ending? (.truth "p") = some (.finished w (.failure place :: values)) ∧
        (Lua.Value.failure place).isTrue ∧ ¬ resumed.TellsTruth "p" (.failure place)) ∧
      (resumed.answer (.run (.truth "p"))).1 = .ok (.truth false) ∧
      (resumed.answer (.run (.truth "not not p"))).1 = .ok (.truth true) := by
  have hr : Reachable resumed := (Reachable.offering _).after _
  have hfalse : (resumed.answer (.run (.truth "p"))).1 = .ok (.truth false) :=
    eq_ok_of_toOption (by decide +kernel)
  have htrue : (resumed.answer (.run (.truth "not not p"))).1 = .ok (.truth true) :=
    eq_ok_of_toOption (by decide +kernel)
  have hgives : (resumed.ending? (.truth "p")).any (givesFailure (· == .panic none)) := by decide +kernel
  obtain ⟨w, place, values, -, he, -⟩ := exists_of_givesFailure hgives
  refine ⟨hr, ⟨w, place, values, he, rfl, ?_⟩, hfalse, htrue⟩
  rintro (hsame | ⟨report, hreport⟩)
  · cases hfalse.symm.trans hsame
  · cases hfalse.symm.trans hreport

end Host
end ScriptHost
