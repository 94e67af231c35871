import ScriptHost.Proofs.Report
/-! A renewal makes a host forget. What comes after it depends on what the host has been given and on nothing
that was done before. -/
namespace ScriptHost

/-- What comes of one request for whoever asks: the outcome, the number of values on the stack after it, and the
report that it made. -/
structure Exchange where
  outcome : Except Interruption Reply
  depth : Nat
  report : Option Diagnostic

namespace Host

/-- What comes of requests, one after the other. -/
def transcript : Host → List Request → List Exchange
  | _, [] => []
  | h, request :: rest =>
    ⟨(h.answer request).1, (h.answer request).2.depth, h.complaint? request⟩ ::
      transcript (h.answer request).2 rest

/-- The same has been given to two hosts, except for where their reports go. -/
structure SameGivens (h h' : Host) : Prop where
  config : h'.config = h.config
  registry : h'.registry = h.registry
  files : h'.files = h.files
  directory : h'.directory = h.directory
  clock : h'.clock = h.clock

/-- Two hosts that differ in nothing but where their reports go, the number of their interpreters, and what they
have logged and reported so far. -/
def Alike (h h' : Host) : Prop :=
  ∃ sink generation log reports, h' = { h with sink, generation, log, reports }

namespace Alike
variable {h h' : Host}

theorem refl (h : Host) : h.Alike h := ⟨_, _, _, _, rfl⟩

theorem trans {h'' : Host} (alike : h.Alike h') (alike' : h'.Alike h'') : h.Alike h'' := by
  obtain ⟨_, _, _, _, rfl⟩ := alike
  obtain ⟨sink, generation, log, reports, rfl⟩ := alike'
  exact ⟨sink, generation, log, reports, rfl⟩

theorem noted (alike : h.Alike h') (event event' : LogEvent) : (h.noted event).Alike (h'.noted event') := by
  obtain ⟨sink, generation, log, reports, rfl⟩ := alike
  exact ⟨_, _, _, _, rfl⟩

theorem withStack (alike : h.Alike h') (stack : List Lua.HostValue) :
    (h.withStack stack).Alike (h'.withStack stack) := by
  obtain ⟨sink, generation, log, reports, rfl⟩ := alike
  exact ⟨_, _, _, _, rfl⟩

theorem keeping (alike : h.Alike h') (i : Lua.Interpreter) : (h.keeping i).Alike (h'.keeping i) := by
  obtain ⟨sink, generation, log, reports, rfl⟩ := alike
  exact ⟨_, _, _, _, rfl⟩

theorem reporting (alike : h.Alike h') (d : Diagnostic) : (h.reporting d).Alike (h'.reporting d) := by
  obtain ⟨sink, generation, log, reports, rfl⟩ := alike
  exact ⟨_, _, _, _, rfl⟩

theorem renewed (alike : h.Alike h') : h.renewed.Alike h'.renewed := by
  obtain ⟨sink, generation, log, reports, rfl⟩ := alike
  exact ⟨_, _, _, _, rfl⟩

theorem stack (alike : h.Alike h') : h'.stack = h.stack := by
  obtain ⟨sink, generation, log, reports, rfl⟩ := alike
  rfl

theorem interpreter (alike : h.Alike h') : h'.interpreter = h.interpreter := by
  obtain ⟨sink, generation, log, reports, rfl⟩ := alike
  rfl

theorem files (alike : h.Alike h') : h'.files = h.files := by
  obtain ⟨sink, generation, log, reports, rfl⟩ := alike
  rfl

theorem textOf? (alike : h.Alike h') (v : Lua.HostValue) : h'.textOf? v = h.textOf? v := by
  obtain ⟨sink, generation, log, reports, rfl⟩ := alike
  rfl

theorem numberOf? (alike : h.Alike h') (v : Lua.HostValue) : h'.numberOf? v = h.numberOf? v := by
  obtain ⟨sink, generation, log, reports, rfl⟩ := alike
  rfl

theorem complaint (alike : h.Alike h') : h'.complaint = h.complaint := by
  obtain ⟨sink, generation, log, reports, rfl⟩ := alike
  rfl

theorem chunk? (alike : h.Alike h') (r : Run) : h'.chunk? r = h.chunk? r := by
  obtain ⟨sink, generation, log, reports, rfl⟩ := alike
  cases r <;> rfl

/-- The interpreters of the two come to one verdict. -/
theorem judge (alike : h.Alike h') (i : Lua.Interpreter) (source : Text.Bytes) :
    (h'.judge i source).1 = (h.judge i source).1 ∧ (h.judge i source).2.Alike (h'.judge i source).2 := by
  have hc : h'.config = h.config := by
    obtain ⟨sink, generation, log, reports, rfl⟩ := alike
    rfl
  simp only [Host.judge, hc]
  split
  · exact ⟨rfl, alike.keeping _⟩
  · split <;> exact ⟨rfl, (alike.keeping _).keeping _⟩

theorem verdict? (alike : h.Alike h') (r : Run) : h'.verdict? r = h.verdict? r := by
  simp only [Host.verdict?, alike.interpreter, alike.chunk?]
  split
  · rw [(alike.judge _ _).1]
  · rfl

theorem judged (alike : h.Alike h') (r : Run) : (h.judged r).Alike (h'.judged r) := by
  simp only [Host.judged, alike.interpreter, alike.chunk?]
  split
  · exact (alike.judge _ _).2
  · exact alike

theorem unlessFunction (alike : h.Alike h') {g g' : Host} (alike' : g.Alike g') (v : Lua.HostValue)
    (reply : Reply) :
    (h'.unlessFunction v reply g').1 = (h.unlessFunction v reply g).1 ∧
      (h.unlessFunction v reply g).2.Alike (h'.unlessFunction v reply g').2 := by
  unfold Host.unlessFunction
  split
  · exact ⟨rfl, alike⟩
  · exact ⟨rfl, alike'⟩

theorem accept (alike : h.Alike h') (v : Lua.HostValue) (r : Run) :
    (h'.accept v r).1 = (h.accept v r).1 ∧ (h.accept v r).2.Alike (h'.accept v r).2 := by
  cases r with
  | script _ | file _ => exact ⟨rfl, alike⟩
  | expression _ =>
    simp only [Host.accept, alike.stack]
    exact alike.unlessFunction (alike.withStack _) v _
  | truth _ => exact alike.unlessFunction alike v _
  | number _ =>
    simp only [Host.accept, alike.numberOf?]
    exact alike.unlessFunction alike v _
  | text text =>
    simp only [Host.accept, alike.textOf?]
    refine alike.unlessFunction ?_ v _
    split
    · exact alike
    · exact alike.noted _ _

theorem conclude (alike : h.Alike h') (r : Run) (display : String) (verdict : Verdict) :
    (h'.conclude r display verdict).1 = (h.conclude r display verdict).1 ∧
      (h.conclude r display verdict).2.Alike (h'.conclude r display verdict).2 := by
  cases verdict with
  | error phase e =>
    simp only [Host.conclude, alike.complaint]
    split
    · exact ⟨rfl, alike.noted _ _⟩
    · exact ⟨rfl, alike.reporting _⟩
  | panic payload => exact ⟨rfl, alike.noted _ _⟩
  | results values => exact alike.accept _ r

theorem answer_run (alike : h.Alike h') (r : Run) :
    (h'.answer (.run r)).1 = (h.answer (.run r)).1 ∧
      (h.answer (.run r)).2.Alike (h'.answer (.run r)).2 := by
  cases hv : h.verdict? r with
  | none =>
    obtain ⟨path, e, rfl, hf⟩ | ⟨hi, hc⟩ := missing_of_verdict?_none hv
    · rw [answer_unread hf, answer_unread (alike.files ▸ hf)]
      exact ⟨rfl, alike.noted _ _⟩
    · rw [answer_run_uninitialized hi hc,
        answer_run_uninitialized (alike.interpreter.trans hi) (by rwa [alike.chunk?])]
      exact ⟨rfl, alike⟩
  | some verdict =>
    have hd : h'.display r = h.display r := by simp only [Host.display, alike.chunk?]
    rw [Host.answer_run hv, Host.answer_run ((alike.verdict? r).trans hv), hd]
    exact (alike.judged r).conclude r _ verdict

theorem answer_popString (alike : h.Alike h') :
    (h'.answer .popString).1 = (h.answer .popString).1 ∧
      (h.answer .popString).2.Alike (h'.answer .popString).2 := by
  rcases hs : h.stack with _ | ⟨v, rest⟩
  · rw [answer_popString_nil h hs, answer_popString_nil h' (alike.stack.trans hs)]
    exact ⟨rfl, alike⟩
  · rw [answer_popString_cons h hs, answer_popString_cons h' (alike.stack.trans hs), alike.textOf?]
    split
    · split <;> exact ⟨rfl, alike.withStack rest⟩
    · exact ⟨rfl, alike⟩

theorem answer_bindGlobal (alike : h.Alike h') (name : String) :
    (h'.answer (.bindGlobal name)).1 = (h.answer (.bindGlobal name)).1 ∧
      (h.answer (.bindGlobal name)).2.Alike (h'.answer (.bindGlobal name)).2 := by
  rcases hs : h.stack with _ | ⟨v, rest⟩
  · rw [answer_bindGlobal_nil h hs, answer_bindGlobal_nil h' (alike.stack.trans hs)]
    exact ⟨rfl, alike⟩
  cases hi : h.interpreter with
  | none =>
    rw [answer_bindGlobal_none h hi hs,
      answer_bindGlobal_none h' (alike.interpreter.trans hi) (alike.stack.trans hs)]
    exact ⟨rfl, alike.withStack rest⟩
  | some i =>
    have kept (j : Lua.Interpreter) : ((h.keeping j).withStack rest).Alike ((h'.keeping j).withStack rest) :=
      (alike.keeping j).withStack rest
    rw [answer_bindGlobal_cons h hi hs,
      answer_bindGlobal_cons h' (alike.interpreter.trans hi) (alike.stack.trans hs)]
    rcases i.setGlobal name v with ⟨_ | e | payload, j⟩
    · exact ⟨rfl, (kept j).noted _ _⟩
    · exact ⟨rfl, (kept j).noted _ _⟩
    · exact ⟨rfl, kept j⟩

theorem peekInteger (alike : h.Alike h') (position : Int) :
    h'.peekInteger position = h.peekInteger position := by
  obtain ⟨sink, generation, log, reports, rfl⟩ := alike
  rfl

/-- The two answer every request alike, and are alike after it. -/
theorem answer (alike : h.Alike h') (request : Request) :
    (h'.answer request).1 = (h.answer request).1 ∧
      (h.answer request).2.Alike (h'.answer request).2 := by
  have pushed (v : Lua.HostValue) : (h.withStack (v :: h.stack)).Alike (h'.withStack (v :: h'.stack)) := by
    rw [alike.stack]
    exact alike.withStack _
  cases request with
  | renew =>
    rw [answer_renew, answer_renew]
    exact ⟨rfl, alike.renewed⟩
  | pushInteger _ | pushNumber _ | pushBoolean _ | pushPointer _ => exact ⟨rfl, pushed _⟩
  | pushString text =>
    rw [answer_pushString, answer_pushString, alike.interpreter]
    split
    · exact ⟨rfl, pushed _⟩
    · exact ⟨rfl, alike⟩
  | popString => exact alike.answer_popString
  | peekInteger position =>
    refine ⟨?_, alike⟩
    simp only [Host.answer, perform, carryOut_bind, carryOut_get, carryOut_pure, alike.peekInteger]
  | bindGlobal name => exact alike.answer_bindGlobal name
  | run r => exact alike.answer_run r

theorem complaint? (alike : h.Alike h') (request : Request) :
    h'.complaint? request = h.complaint? request := by
  cases request with
  | run r => simp only [Host.complaint?, alike.verdict?, alike.complaint, Host.display, alike.chunk?]
  | _ => rfl

/-- Whatever is asked of two hosts that are alike, the same comes of it. -/
theorem transcript (alike : h.Alike h') (requests : List Request) :
    h'.transcript requests = h.transcript requests := by
  induction requests generalizing h h' with
  | nil => rfl
  | cons request rest ih =>
    obtain ⟨outcome, after⟩ := alike.answer request
    simp only [Host.transcript, outcome, depth, after.stack, alike.complaint? request, ih after]

end Alike

/-- The reports that requests make are those of what comes of them. -/
theorem complaints_eq (h : Host) (requests : List Request) :
    h.complaints requests = (h.transcript requests).filterMap (·.report) := by
  induction requests generalizing h with
  | nil => rfl
  | cons request rest ih =>
    rw [complaints, ih, transcript]
    cases h.complaint? request <;> simp

theorem SameGivens.of_keeps {h h' : Host} (k : h.Keeps h') : h.SameGivens h' :=
  ⟨k.config, k.registry, k.files, k.directory, k.clock⟩

theorem SameGivens.trans {h₁ h₂ h₃ : Host} (s₁ : h₁.SameGivens h₂) (s₂ : h₂.SameGivens h₃) :
    h₁.SameGivens h₃ :=
  ⟨s₂.config.trans s₁.config, s₂.registry.trans s₁.registry, s₂.files.trans s₁.files,
    s₂.directory.trans s₁.directory, s₂.clock.trans s₁.clock⟩

end Host

/-- No host starts with a configuration that is not valid, and none is given another one later. -/
theorem Reachable.validate {h : Host} (hr : Reachable h) : h.config.validate = .ok () := by
  induction hr with
  | started config registry files directory clock hs =>
    obtain ⟨hv, rfl⟩ := Host.renewed_of_start _ hs
    exact hv
  | @answered h request refuses _ ih => rwa [(h.keeps_answer request refuses).config]
  | redirected => assumption

namespace Host

/-- A host that has been given the same and has not started yet. -/
def unstarted (h : Host) : Host :=
  { config := h.config, registry := h.registry, files := h.files, directory := h.directory, clock := h.clock }

/-- A renewal makes a host the same as another one for whoever asks: from then on the same comes of the same
requests, and what is reported goes on top of the earlier reports. -/
structure RenewsTo (h fresh : Host) : Prop where
  outcome : (h.answer .renew).1 = .ok .done
  stack : (h.answer .renew).2.stack = []
  generation : (h.answer .renew).2.generation = h.generation + 1
  transcript : ∀ requests, (h.answer .renew).2.transcript requests = fresh.transcript requests
  reports : ∀ requests, ((h.answer .renew).2.after requests).reports =
    ((fresh.transcript requests).filterMap (·.report)).reverse.flatMap h.sink.kept ++ h.reports

/-- A renewed host is a host that has just started with what the host has been given. -/
theorem renewsTo_renewed {g h : Host} (same : g.SameGivens h) : h.RenewsTo g.unstarted.renewed := by
  have ha := h.answer_renew
  have alike : g.unstarted.renewed.Alike h.renewed := by
    obtain ⟨config, registry, sink, files, directory, clock, interpreter, stack, generation, log, reports⟩ := h
    obtain ⟨rfl, rfl, rfl, rfl, rfl⟩ := same
    exact ⟨_, _, _, _, rfl⟩
  have ht (requests : List Request) : h.renewed.transcript requests = g.unstarted.renewed.transcript requests :=
    alike.transcript requests
  refine ⟨by rw [ha], by rw [ha]; rfl, by rw [ha]; rfl, fun requests => ?_, fun requests => ?_⟩
  · rw [ha, ht]
  · rw [ha, reports_after, complaints_eq, ht]
    rfl

/-- A renewal is a complete reset. Take two hosts that have been given the same, and let anything be asked of
them. Then a renewal of either goes well, and after it the same comes of the same requests, step by step: the
same as of a host that has just been started with what they were given. -/
theorem renewal_forgets {h₁ h₂ : Host} (hr : Reachable h₁) (same : h₁.SameGivens h₂)
    (history₁ history₂ : List Request) :
    ∃ fresh, h₁.unstarted.start = (.ok (), fresh) ∧
      (h₁.after history₁).RenewsTo fresh ∧ (h₂.after history₂).RenewsTo fresh ∧
      ∀ requests, ((h₁.after history₁).answer .renew).2.transcript requests =
        ((h₂.after history₂).answer .renew).2.transcript requests := by
  have same₁ : h₁.SameGivens (h₁.after history₁) := .of_keeps (h₁.keeps_after history₁)
  have same₂ : h₁.SameGivens (h₂.after history₂) := same.trans (.of_keeps (h₂.keeps_after history₂))
  have hs : h₁.unstarted.start = (.ok (), h₁.unstarted.renewed) := by
    rw [start_eq, show h₁.unstarted.config.validate = .ok () from hr.validate]
  have renews₁ := renewsTo_renewed same₁
  have renews₂ := renewsTo_renewed same₂
  refine ⟨_, hs, renews₁, renews₂, fun requests => ?_⟩
  rw [renews₁.transcript, renews₂.transcript]

/-- A host that offers one function. -/
def answering : Host := offering [("Answer", .constant (.number (.int 42)))]

/-- The same host after a script that takes the function away, with a value on its stack. -/
def spoilt : Host :=
  answering.after
    [.run (.script "Answer = nil; setmetatable(_G, \x7b__index = error\x7d); leftover = 1"), .pushBoolean true]

/-- After a renewal the function is there again and the rest is gone, as in a host that nothing was asked of. -/
theorem renewal_forgets_spoilt :
    Reachable answering ∧ spoilt.depth = 1 ∧
      ((spoilt.answer (.run (.truth "Answer() == 42"))).1 matches .ok (.truth false)) ∧
      (∃ fresh, answering.unstarted.start = (.ok (), fresh) ∧ spoilt.RenewsTo fresh ∧ answering.RenewsTo fresh) ∧
      ((spoilt.answer .renew).2.answer (.run (.truth "Answer() == 42 and not leftover"))).1 matches
        .ok (.truth true) :=
  have hr : Reachable answering := .offering _
  have ⟨fresh, hs, renews, renews', _⟩ := renewal_forgets hr ⟨rfl, rfl, rfl, rfl, rfl⟩ _ []
  ⟨hr, by decide +kernel, by decide +kernel, ⟨fresh, hs, renews, renews'⟩, by decide +kernel⟩

end Host
end ScriptHost
