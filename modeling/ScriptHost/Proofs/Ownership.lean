import ScriptHost.Proofs.Memory.Request
/-! What belongs to an interpreter. Strings, tables, functions and errors on the stack are things in the memory of
the interpreter under which they came there. No renewal leaves them behind, be it one that fails. -/
namespace ScriptHost

/-- The dates of the values on a stack, the latest first, when so many values are there. Values that are new get
the given date. -/
def redate (dates : List Nat) (depth date : Nat) : List Nat :=
  List.replicate (depth - dates.length) date ++ dates.drop (dates.length - depth)

theorem redate_same (dates : List Nat) (date : Nat) : redate dates dates.length date = dates := by
  simp [redate]

theorem redate_push (dates : List Nat) (date : Nat) :
    redate dates (dates.length + 1) date = date :: dates := by
  simp [redate]

theorem redate_pop (first : Nat) (dates : List Nat) (date : Nat) :
    redate (first :: dates) dates.length date = dates := by
  simp [redate]

theorem redate_clear (dates : List Nat) (date : Nat) : redate dates 0 date = [] := by
  simp [redate]

/-- A host that requests lead to, renewals that fail for any reason among them; and for each value on its stack the
number of the interpreter under which the value came there. -/
inductive Dated : Host → List Nat → Prop where
  | started (config : Config) (registry : Registry) (files : FileSource) (directory : FileTree)
      (clock : Lua.ClockReading) {h : Host} :
      Host.start { config, registry, files, directory, clock } = (.ok (), h) → Dated h []
  | answered {h : Host} {dates : List Nat} (request : Request) : Dated h dates →
      Dated (h.answer request).2 (redate dates (h.answer request).2.depth (h.answer request).2.generation)
  | notRenewed {h h' : Host} {dates : List Nat} (made : Lua.Answer Lua.Interpreter)
      (bind : Lua.Interpreter → Lua.Answer Nat × Lua.Interpreter) {e : Interruption} :
      h.carryOut (Host.guarded (Host.createFrom made bind)) = (.error e, h') → Dated h dates →
      Dated h' (redate dates h'.depth h'.generation)
  | redirected {h : Host} {dates : List Nat} (sink : DiagnosticSink) (files : FileSource) (directory : FileTree)
      (clock : Lua.ClockReading) : Dated h dates → Dated { h with sink, files, directory, clock } dates

namespace Host

/-- All references on a stack belong to the interpreter: they came there under it and are in its memory, and
without an interpreter there are none. -/
structure Owns (h : Host) (dates : List Nat) : Prop where
  aligned : dates.length = h.depth
  current : ∀ entry ∈ h.stack.zip dates, entry.1.isReference → entry.2 = h.generation
  sound : h.Sound
  orphaned : h.interpreter = none → ∀ v ∈ h.stack, v.isReference = false

variable {h : Host} {dates : List Nat}

theorem Owns.of_nil (hs : h.stack = []) (sound : h.Sound) : h.Owns [] where
  aligned := by simp [depth, hs]
  current := by simp
  sound := sound
  orphaned _ := by simp [hs]

/-- A renewal that fails leaves no interpreter, and nothing on the stack that came there under one. -/
theorem notRenewed_frame {made : Lua.Answer Lua.Interpreter}
    {bind : Lua.Interpreter → Lua.Answer Nat × Lua.Interpreter} {e : Interruption} {h' : Host}
    (hc : h.carryOut (guarded (createFrom made bind)) = (.error e, h')) :
    h'.interpreter = none ∧ h'.generation = h.generation ∧
      (h'.stack = [] ∨ h.interpreter = none ∧ h'.stack = h.stack) := by
  obtain ⟨hi, hg, hs⟩ := h.closing_frame
  rw [carryOut_guarded, carryOut_createFrom] at hc
  rcases made with i | err | payload
  · rcases hb : bind i with ⟨n | err | payload, j⟩ <;> simp only [hb] at hc
    · cases hc
    · by_cases hf : err.isFatal
      · rw [if_pos hf, carryOut_escalate] at hc
        cases hc
        exact ⟨hi, hg, .inl rfl⟩
      · rw [if_neg hf, carryOut_failWith] at hc
        cases hc
        exact ⟨hi, hg, .inl rfl⟩
    · cases hc
      exact ⟨hi, hg, .inl rfl⟩
  · cases hc
    exact ⟨hi, hg, hs⟩
  · cases hc
    exact ⟨hi, hg, hs⟩

/-- A change that a request makes to the stack keeps the dates of the references there. What comes there gets the
number of the interpreter. -/
private theorem current_change {request : Request} (hr : request ≠ .renew) (owns : h.Owns dates)
    {stack : List Lua.HostValue} (hc : h.Change request stack) :
    (redate dates stack.length h.generation).length = stack.length ∧
      ∀ entry ∈ stack.zip (redate dates stack.length h.generation), entry.1.isReference →
        entry.2 = h.generation := by
  have ha : dates.length = h.stack.length := owns.aligned
  have same : redate dates h.stack.length h.generation = dates := by rw [← ha, redate_same]
  have pushed (v : Lua.HostValue) :
      (redate dates (v :: h.stack).length h.generation).length = (v :: h.stack).length ∧
        ∀ entry ∈ (v :: h.stack).zip (redate dates (v :: h.stack).length h.generation),
          entry.1.isReference → entry.2 = h.generation := by
    rw [List.length_cons, ← ha, redate_push]
    refine ⟨rfl, fun entry he hv => ?_⟩
    obtain rfl | he := List.mem_cons.mp he
    · rfl
    · exact owns.current entry he hv
  cases hc with
  | same =>
    rw [same]
    exact ⟨ha, owns.current⟩
  | cleared heq => exact absurd heq hr
  | taken hs =>
    rw [hs] at ha
    obtain ⟨first, dates, rfl⟩ := List.exists_cons_of_length_eq_add_one ha
    have ha : dates.length = stack.length := Nat.succ.inj ha
    rw [← ha, redate_pop]
    refine ⟨rfl, fun entry he => owns.current entry ?_⟩
    rw [hs]
    exact List.mem_cons_of_mem _ he
  | pushed _ => exact pushed _
  | text _ => exact pushed _
  | result _ _ _ => exact pushed _

/-- What a request leaves on the stack of a host without an interpreter is no reference. -/
private theorem orphaned_change (hi : h.interpreter = none) {request : Request}
    (ho : ∀ v ∈ h.stack, v.isReference = false) {stack : List Lua.HostValue} (hc : h.Change request stack) :
    ∀ v ∈ stack, v.isReference = false := by
  cases hc with
  | same => exact ho
  | cleared _ => simp
  | taken hs =>
    intro v hv
    exact ho v (by rw [hs]; exact List.mem_cons_of_mem _ hv)
  | pushed hv => exact List.forall_mem_cons.mpr ⟨hv, ho⟩
  | text hsome => simp [hi] at hsome
  | result _ hv _ => simp [verdict?, hi] at hv

theorem Owns.answer (owns : h.Owns dates) (request : Request) :
    (h.answer request).2.Owns
      (redate dates (h.answer request).2.depth (h.answer request).2.generation) := by
  have sound := owns.sound.answer request
  by_cases hr : request = .renew
  · rw [hr, answer_renew] at sound ⊢
    have hd : h.renewed.depth = 0 := rfl
    rw [hd, redate_clear]
    exact .of_nil rfl sound
  · obtain ⟨hg, hn⟩ := h.interpreter_answer hr
    obtain ⟨aligned, current⟩ := current_change hr owns (h.change_answer request)
    rw [← hg] at aligned current
    refine ⟨aligned, current, sound, fun hj => ?_⟩
    have hi := hn.mp hj
    exact orphaned_change hi (owns.orphaned hi) (h.change_answer request)

theorem Owns.notRenewed (owns : h.Owns dates) {made : Lua.Answer Lua.Interpreter}
    {bind : Lua.Interpreter → Lua.Answer Nat × Lua.Interpreter} {e : Interruption} {h' : Host}
    (hc : h.carryOut (guarded (createFrom made bind)) = (.error e, h')) :
    h'.Owns (redate dates h'.depth h'.generation) := by
  obtain ⟨hi, hg, hs | ⟨hi', hs⟩⟩ := notRenewed_frame hc
  · have hd : h'.depth = 0 := by simp [depth, hs]
    rw [hd, redate_clear]
    exact .of_nil hs (by simp [Sound, hi])
  · -- There was no interpreter before either, and what is on the stack is no reference.
    have hd : h'.depth = dates.length := by rw [owns.aligned, depth, depth, hs]
    rw [hd, redate_same]
    refine ⟨hd.symm, ?_, by simp [Sound, hi], fun _ => ?_⟩
    · rw [hs, hg]
      exact owns.current
    · rw [hs]
      exact owns.orphaned hi'

end Host

/-- All hosts own what is on their stacks. -/
theorem Dated.owns {h : Host} {dates : List Nat} (hd : Dated h dates) : h.Owns dates := by
  induction hd with
  | started config registry files directory clock hs =>
    obtain ⟨-, rfl⟩ := Host.renewed_of_start _ hs
    exact .of_nil rfl (Host.sound_renewed _)
  | answered request _ ih => exact ih.answer request
  | notRenewed made bind hc _ ih => exact ih.notRenewed hc
  | redirected sink files directory clock _ ih => exact ⟨ih.aligned, ih.current, ih.sound, ih.orphaned⟩

/-- A host that offers functions starts without values. -/
theorem Dated.offering (functions : List (String × Lua.HostFunction)) : Dated (Host.offering functions) [] :=
  .started {} (.ofList functions) _ ⟨[]⟩ {} (Host.start_offering functions)

namespace Host

/-- The dates of the values on the stack after some requests. -/
def datesAfter (h : Host) (dates : List Nat) : List Request → List Nat
  | [] => dates
  | request :: rest =>
    (h.answer request).2.datesAfter
      (redate dates (h.answer request).2.depth (h.answer request).2.generation) rest

end Host

theorem Dated.after {h : Host} {dates : List Nat} (hd : Dated h dates) (requests : List Request) :
    Dated (h.after requests) (h.datesAfter dates requests) := by
  induction requests generalizing h dates with
  | nil => exact hd
  | cons request rest ih => exact ih (hd.answered request)

namespace Host

/-- Every reference on the stack came there under the interpreter that the host has now, and is in its memory. So
none outlives its interpreter, and a host without an interpreter has none. -/
theorem references_belong {h : Host} {dates : List Nat} (hd : Dated h dates) :
    dates.length = h.depth ∧
    (∀ v date, (v, date) ∈ h.stack.zip dates → v.isReference →
      date = h.generation ∧ ∃ i, h.interpreter = some i ∧ i.world.Has v) ∧
    (h.interpreter = none → ∀ v ∈ h.stack, v.isReference = false) := by
  have owns := hd.owns
  refine ⟨owns.aligned, fun v date he hv => ⟨owns.current _ he hv, ?_⟩, owns.orphaned⟩
  have hmem := (List.of_mem_zip he).1
  cases hi : h.interpreter with
  | none => simp [owns.orphaned hi v hmem] at hv
  | some i => exact ⟨i, rfl, (owns.sound i hi).2 v hmem⟩

/-- A host with a text and a table on its stack. -/
def laden : Host := (offering []).after [.pushString "lost", .run (.expression "\x7b\x7d")]

/-- The same host after a renewal for which there was no memory, with a number on its stack. -/
def bereft : Host :=
  (laden.carryOut (guarded (createFrom (.error (.memory "not enough memory")) fun i => (.ok 0, i)))).2.after
    [.pushInteger 7, .pushString "refused"]

/-- The same host with an interpreter again. -/
def recovered : Host := bereft.after [.renew, .run (.expression "\x7b\x7d"), .pushString "own"]

private theorem dated_recovered : Dated recovered [2, 2] := by
  have hladen : Dated laden [1, 1] := by
    have hd := (Dated.offering []).after [.pushString "lost", .run (.expression "\x7b\x7d")]
    rwa [show (offering []).datesAfter _ _ = [1, 1] by decide +kernel] at hd
  have hlost : laden.carryOut
      (guarded (createFrom (.error (.memory "not enough memory")) fun i => (.ok 0, i))) =
      (.error (.failed (.initialization "memory error: not enough memory")), laden.closing) := by
    rw [carryOut_guarded, carryOut_createFrom]
    rfl
  have hclosing : Dated laden.closing [] := by
    have hd := Dated.notRenewed _ _ hlost hladen
    rwa [show redate _ laden.closing.depth _ = [] by decide +kernel] at hd
  have hd := (hclosing.after [.pushInteger 7, .pushString "refused"]).after
    [.renew, .run (.expression "\x7b\x7d"), .pushString "own"]
  rw [recovered, bereft, hlost]
  rwa [show Host.datesAfter _ _ _ = [2, 2] by decide +kernel] at hd

/-- Without an interpreter nothing but the number stays, and what comes later belongs to the second interpreter. -/
theorem references_belong_recovered :
    laden.depth = 2 ∧ bereft.interpreter.isNone ∧ bereft.depth = 1 ∧ Dated recovered [2, 2] ∧
      recovered.depth = 2 ∧
      ∀ v date, (v, date) ∈ recovered.stack.zip [2, 2] → v.isReference →
        date = recovered.generation ∧ ∃ i, recovered.interpreter = some i ∧ i.world.Has v :=
  ⟨by decide +kernel, by decide +kernel, by decide +kernel, dated_recovered, by decide +kernel,
    (references_belong dated_recovered).2.1⟩

end Host
end ScriptHost
