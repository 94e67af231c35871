import ScriptHost.Proofs.Reset
/-! Preparing of expressions. A host that prepares them does with a text what a host that does not prepare them does
with the prepared text, request after request. Scripts are taken as they are by both. -/
namespace ScriptHost

/-- The run with its expression prepared beforehand. -/
def Run.prepared : Run → Run
  | .expression asked => .expression (Source.prepareExpression asked)
  | .truth asked => .truth (Source.prepareExpression asked)
  | .number asked => .number (Source.prepareExpression asked)
  | .text asked => .text (Source.prepareExpression asked)
  | .script source => .script source
  | .file path => .file path

/-- The request with its expression prepared beforehand, if it is about one. -/
def Request.prepared : Request → Request
  | .run r => .run r.prepared
  | request => request

namespace Host

/-- The host with the preparing of expressions switched on or off. -/
def preparing (h : Host) (on : Bool) : Host := { h with config := { h.config with prepareExpressions := on } }

variable (h : Host)

theorem preparing_of_eq {on : Bool} (hc : h.config.prepareExpressions = on) : h.preparing on = h := by
  subst hc
  rfl

/-- Both hosts give their interpreters the same bytes and quote the same text. -/
theorem chunk?_prepared (r : Run) : (h.preparing false).chunk? r.prepared = (h.preparing true).chunk? r := by
  cases r <;> rfl

theorem display_prepared (r : Run) : (h.preparing false).display r.prepared = (h.preparing true).display r := by
  rw [display, display, chunk?_prepared]

theorem judge_preparing (on : Bool) (i : Lua.Interpreter) (source : Text.Bytes) :
    (h.preparing on).judge i source = ((h.judge i source).1, (h.judge i source).2.preparing on) := by
  have hname : (h.preparing on).config.chunkName = h.config.chunkName := rfl
  simp only [judge, hname]
  split
  · rfl
  · split <;> rfl

theorem verdict?_prepared (r : Run) : (h.preparing false).verdict? r.prepared = (h.preparing true).verdict? r := by
  have hi (on : Bool) : (h.preparing on).interpreter = h.interpreter := rfl
  simp only [verdict?, hi, chunk?_prepared, judge_preparing]

/-- The chunk changes the interpreters of both hosts alike. -/
theorem judged_prepared (r : Run) :
    ∃ g : Host, (h.preparing true).judged r = g.preparing true ∧
      (h.preparing false).judged r.prepared = g.preparing false := by
  have hi (on : Bool) : (h.preparing on).interpreter = h.interpreter := rfl
  simp only [judged, hi, chunk?_prepared, judge_preparing]
  split
  · exact ⟨_, rfl, rfl⟩
  · exact ⟨h, rfl, rfl⟩

/-- A note about a result that is no text quotes what was asked, which is the only difference. -/
theorem conclude_prepared (r : Run) (display : String) (verdict : Verdict) :
    ((h.preparing false).conclude r.prepared display verdict).1 =
        ((h.preparing true).conclude r display verdict).1 ∧
      (((h.preparing true).conclude r display verdict).2.preparing false).Alike
        ((h.preparing false).conclude r.prepared display verdict).2 := by
  cases verdict with
  | error phase e =>
    cases r <;> (simp only [conclude, Run.prepared]; split <;> exact ⟨rfl, .refl _⟩)
  | panic payload => exact ⟨rfl, .refl _⟩
  | results values =>
    simp only [conclude]
    generalize values.headD .nil = v
    cases r with
    | script _ | file _ => exact ⟨rfl, .refl _⟩
    | expression _ | truth _ | number _ =>
      simp only [accept, Run.prepared, unlessFunction]
      split <;> exact ⟨rfl, .refl _⟩
    | text asked =>
      have ht (on : Bool) : (h.preparing on).textOf? v = h.textOf? v := by cases v <;> rfl
      simp only [accept, Run.prepared, unlessFunction, ht]
      split
      · exact ⟨rfl, .refl _⟩
      · split
        · exact ⟨rfl, .refl _⟩
        · exact ⟨rfl, (Alike.refl (h.preparing false)).noted _ _⟩

theorem answer_run_prepared (r : Run) :
    ((h.preparing false).answer (.run r.prepared)).1 = ((h.preparing true).answer (.run r)).1 ∧
      (((h.preparing true).answer (.run r)).2.preparing false).Alike
        ((h.preparing false).answer (.run r.prepared)).2 := by
  cases hv : (h.preparing true).verdict? r with
  | none =>
    obtain ⟨path, e, rfl, hf⟩ | ⟨hi, hc⟩ := missing_of_verdict?_none hv
    · have hf' : (h.preparing false).files path = .error e := hf
      rw [answer_unread hf, Run.prepared, answer_unread hf']
      exact ⟨rfl, .refl _⟩
    · have hi' : (h.preparing false).interpreter = none := hi
      rw [answer_run_uninitialized hi hc, answer_run_uninitialized hi' (by rwa [chunk?_prepared])]
      exact ⟨rfl, .refl _⟩
  | some verdict =>
    obtain ⟨g, hon, hoff⟩ := h.judged_prepared r
    rw [answer_run hv, answer_run ((h.verdict?_prepared r).trans hv), hon, hoff, display_prepared]
    exact g.conclude_prepared r _ verdict

/-- The setting has no part in a request that runs no chunk. -/
theorem answer_preparing (on : Bool) {request : Request} (hr : ∀ r, request ≠ .run r) :
    (h.preparing on).answer request = ((h.answer request).1, (h.answer request).2.preparing on) := by
  have hstack : (h.preparing on).stack = h.stack := rfl
  have hinterpreter : (h.preparing on).interpreter = h.interpreter := rfl
  cases request with
  | renew =>
    rw [answer_renew, answer_renew]
    rfl
  | pushInteger _ | pushNumber _ | pushBoolean _ | pushPointer _ => rfl
  | pushString text =>
    rw [answer_pushString, answer_pushString, hinterpreter]
    split <;> rfl
  | popString =>
    rcases hs : h.stack with _ | ⟨v, rest⟩
    · rw [answer_popString_nil h hs, answer_popString_nil _ (hstack.trans hs)]
    · have ht : (h.preparing on).textOf? v = h.textOf? v := by cases v <;> rfl
      rw [answer_popString_cons h hs, answer_popString_cons _ (hstack.trans hs), ht]
      split
      · split <;> rfl
      · rfl
  | peekInteger position => rfl
  | bindGlobal name =>
    rcases hs : h.stack with _ | ⟨v, rest⟩
    · rw [answer_bindGlobal_nil h hs, answer_bindGlobal_nil _ (hstack.trans hs)]
    cases hi : h.interpreter with
    | none =>
      rw [answer_bindGlobal_none h hi hs, answer_bindGlobal_none _ (hinterpreter.trans hi) (hstack.trans hs)]
      rfl
    | some i =>
      rw [answer_bindGlobal_cons h hi hs, answer_bindGlobal_cons _ (hinterpreter.trans hi) (hstack.trans hs)]
      rcases i.setGlobal name v with ⟨_ | e | payload, j⟩ <;> rfl
  | run r => exact absurd rfl (hr r)

/-- One request: the same comes of it, and the hosts stay alike but for the setting. -/
theorem answer_prepared (request : Request) :
    ((h.preparing false).answer request.prepared).1 = ((h.preparing true).answer request).1 ∧
      (((h.preparing true).answer request).2.preparing false).Alike
        ((h.preparing false).answer request.prepared).2 := by
  by_cases hr : ∃ r, request = .run r
  · obtain ⟨r, rfl⟩ := hr
    exact h.answer_run_prepared r
  · have hrun : ∀ r, request ≠ .run r := fun r heq => hr ⟨r, heq⟩
    have hsame : request.prepared = request := by
      cases request with
      | run r => exact absurd rfl (hrun r)
      | _ => rfl
    rw [hsame, answer_preparing h true hrun, answer_preparing h false hrun]
    exact ⟨rfl, .refl _⟩

theorem complaint?_prepared (request : Request) :
    (h.preparing false).complaint? request.prepared = (h.preparing true).complaint? request := by
  cases request with
  | run r =>
    simp only [complaint?, Request.prepared, verdict?_prepared, display_prepared]
    rfl
  | _ => rfl

/-- After any requests the hosts are alike but for the setting, and the same has come of each request. -/
theorem after_prepared (requests : List Request) {h h' : Host} (alike : (h.preparing false).Alike h') :
    h'.transcript (requests.map .prepared) = (h.preparing true).transcript requests ∧
      (((h.preparing true).after requests).preparing false).Alike (h'.after (requests.map .prepared)) := by
  induction requests generalizing h h' with
  | nil => exact ⟨rfl, alike⟩
  | cons request rest ih =>
    obtain ⟨houtcome, hhost⟩ := h.answer_prepared request
    obtain ⟨houtcome', hhost'⟩ := alike.answer request.prepared
    have hnext := hhost.trans hhost'
    have hcomplaint := (alike.complaint? request.prepared).trans (h.complaint?_prepared request)
    -- No request changes the setting, so that the next one finds the hosts as this one did.
    have hon : ((h.preparing true).answer request).2.preparing true = ((h.preparing true).answer request).2 :=
      preparing_of_eq _ (congrArg Config.prepareExpressions ((h.preparing true).keeps_answer request).config)
    obtain ⟨htranscript, hafter⟩ := ih hnext
    rw [hon] at htranscript hafter
    refine ⟨?_, hafter⟩
    simp only [List.map_cons, transcript, htranscript, houtcome', houtcome, hcomplaint, depth, hnext.stack]
    rfl

/-- To have expressions prepared is the same as to prepare them by hand. Of two hosts that differ in this setting
alone let one be given the expressions and the other the prepared ones, and all else alike. Then the same comes of
every request, and after each of them the same is on the stack, in the interpreter and among the reports. -/
theorem preparing_agrees_by_hand (h : Host) (requests : List Request) :
    (h.preparing false).transcript (requests.map .prepared) = (h.preparing true).transcript requests ∧
      ((h.preparing false).after (requests.map .prepared)).stack = ((h.preparing true).after requests).stack ∧
      ((h.preparing false).after (requests.map .prepared)).interpreter =
        ((h.preparing true).after requests).interpreter ∧
      ((h.preparing false).after (requests.map .prepared)).reports =
        ((h.preparing true).after requests).reports := by
  obtain ⟨htranscript, hafter⟩ := after_prepared requests (Alike.refl (h.preparing false))
  refine ⟨htranscript, hafter.stack, hafter.interpreter, ?_⟩
  rw [reports_after, reports_after, complaints_eq, complaints_eq, htranscript]
  rfl

end Host
end ScriptHost
