import ScriptHost.Proofs.Change
import ScriptHost.Proofs.Loading
import ScriptHost.Proofs.Measuring
/-! Chunks that do not load. Nothing of such a chunk has run, and all that is left of it is its report and the memory that
its reading has taken, so that whatever is asked later comes out as if the chunk had never been there, unless it asks about
memory. -/
namespace ScriptHost

namespace Lua

theorem World.events_give (w : World) (v : HostValue) : (w.give v).2.events = w.events := by
  cases v <;> rfl

theorem World.events_ofLibraries (libraries : Libraries) : (World.ofLibraries libraries).events = [] := by
  obtain ⟨math, string, table, utf8⟩ := libraries
  cases math <;> cases string <;> cases table <;> cases utf8 <;> rfl

theorem World.BindsMore.events {w w' : World} (h : w.BindsMore w') : w'.events = w.events := by
  obtain ⟨change, functions, rfl⟩ := h
  rfl

end Lua

/-- To give functions to a new interpreter writes nothing to the log. -/
theorem Registry.events_bindAll (functions : List NativeFunction) (bound : Nat) {i : Lua.Interpreter}
    (hi : i.world.OpenGlobals) : (bindAll functions bound i).2.world.events = i.world.events := by
  induction functions generalizing bound i with
  | nil => rfl
  | cons f rest ih =>
    have hadd : (i.addFunction f.function).2.world.OpenGlobals := hi.of_tables rfl rfl
    obtain ⟨j, hset, hj, hmore, -⟩ :=
      Lua.Interpreter.setGlobal_of_open hadd f.name (.function (i.addFunction f.function).1)
    have hevents := ih (bound + 1) hj
    rw [hmore.events, Lua.World.events_give] at hevents
    simp only [bindAll, hset]
    exact hevents

namespace Host

/-- All that scripts have written to the log is there. -/
def Settled (h : Host) : Prop := ∀ i, h.interpreter = some i → i.world.events = []

variable {h : Host} {i : Lua.Interpreter} {r : Run}

theorem settled_keeping (h : Host) (i : Lua.Interpreter) : (h.keeping i).Settled := by
  rintro _ ⟨⟩
  rfl

/-- To keep an interpreter that has only taken memory changes nothing else. -/
theorem Settled.keeping_having (hs : h.Settled) (hi : h.interpreter = some i) (taken : Nat) :
    h.keeping (i.having taken) = h.having taken := by
  have hevents := hs i hi
  obtain ⟨⟨⟩⟩ := i
  cases hevents
  simp [keeping, having, Lua.Interpreter.takeEvents, Lua.Interpreter.having, hi]

theorem settled_renewed (h : Host) : h.renewed.Settled := by
  rintro _ ⟨⟩
  exact (Registry.events_bindAll _ _ h.openGlobals_fresh).trans (Lua.World.events_ofLibraries _)

private theorem Settled.judged (hs : h.Settled) (r : Run) : (h.judged r).Settled := by
  unfold Host.judged
  split
  · unfold Host.judge
    split
    · exact h.settled_keeping _
    · split <;> exact (h.keeping _).settled_keeping _
  · exact hs

private theorem Settled.answer_plain (hs : h.Settled) (request : Request) : (h.answer request).2.Settled := by
  cases request with
  | renew =>
    rw [answer_renew]
    exact h.settled_renewed
  | pushInteger _ | pushNumber _ | pushBoolean _ | pushPointer _ | peekInteger _ => exact hs
  | pushString text =>
    rw [answer_pushString]
    split <;> exact hs
  | popString =>
    rcases hstack : h.stack with _ | ⟨v, rest⟩
    · rwa [answer_popString_nil h hstack]
    · rw [answer_popString_cons h hstack]
      split
      · split <;> exact hs
      · exact hs
  | bindGlobal name =>
    rcases hstack : h.stack with _ | ⟨v, rest⟩
    · rwa [answer_bindGlobal_nil h hstack]
    cases hi : h.interpreter with
    | none =>
      rw [answer_bindGlobal_none h hi hstack]
      exact hs
    | some i =>
      rw [answer_bindGlobal_cons h hi hstack]
      rcases i.setGlobal name v with ⟨_ | e | payload, j⟩ <;> exact settled_keeping h j
  | run r =>
    cases hv : h.verdict? r with
    | none => obtain ha | ⟨event, -, ha⟩ := answer_run_none hv <;> rw [ha] <;> exact hs
    | some verdict =>
      obtain ⟨stack, log, reports, hframe⟩ := (h.judged r).conclude_frame r (h.display r) verdict
      rw [answer_run hv, hframe]
      exact hs.judged r

/-- Between two requests nothing is left to be written to the log. -/
theorem Settled.answer (hs : h.Settled) (request : Request) (refuses : Lua.Refusal) :
    (h.answer request refuses).2.Settled := by
  obtain ⟨log, ha⟩ | ⟨interpreter, rest, log, ha, -, hi⟩ := h.answer_refusing request refuses
  · rw [ha]
    exact hs.answer_plain request
  · rw [ha]
    obtain rfl | ⟨i, -, rfl⟩ := hi
    · exact hs
    · rintro _ ⟨⟩
      rfl

end Host

theorem Reachable.settled {h : Host} (hr : Reachable h) : h.Settled := by
  induction hr with
  | started config registry files directory clock hs =>
    obtain ⟨-, rfl⟩ := Host.renewed_of_start _ hs
    exact Host.settled_renewed _
  | answered request refuses _ ih => exact ih.answer request refuses
  | redirected _ _ _ _ _ ih => exact ih

namespace Host
variable {h : Host} {i : Lua.Interpreter} {r : Run}

/-- The chunk of a run is there, and its load phase does not go well. -/
def FailsToLoad (h : Host) (r : Run) : Prop :=
  ∃ source display, h.chunk? r = some (source, display) ∧ (h.carryOut (load source display)).1 ≠ .ok true

/-- What has failed to load has not been called, and nothing but memory has been taken from the interpreter. -/
theorem FailsToLoad.verdict? (hf : h.FailsToLoad r) (hi : h.interpreter = some i) :
    ∃ e taken, h.verdict? r = some (.error .parsing e) ∧ ¬ e.isFatal ∧
      h.judged r = h.keeping (i.having taken) := by
  obtain ⟨source, display, hchunk, hload⟩ := hf
  rw [carryOut_load hi] at hload
  rcases hl : i.load h.config.chunkName source with ⟨e | function, j⟩
  · obtain ⟨taken, rfl⟩ := i.exists_having_of_load_error hl
    refine ⟨e, taken, ?_, Lua.Interpreter.not_isFatal_of_load hl, ?_⟩
    · simp only [Host.verdict?, hi, hchunk, judge, hl]
    · simp only [judged, hi, hchunk, judge, hl]
  · simp [hl] at hload

/-- The answer to a run whose chunk does not load: the host makes its report and is otherwise as it was, but for the
memory that the reading of the chunk has taken. -/
theorem FailsToLoad.answer (hr : Reachable h) (hf : h.FailsToLoad r) :
    ∃ e taken, e.rootCause ≠ .spentPanic ∧ h.verdict? r = some (.error .parsing e) ∧
      h.answer (.run r) =
        (.ok r.failure, (h.having taken).reporting (h.complaint .parsing (h.display r) e)) := by
  obtain ⟨i, hi⟩ := Option.isSome_iff_exists.mp hr.interpreter_isSome
  obtain ⟨e, taken, hverdict, hfatal, hjudged⟩ := hf.verdict? hi
  refine ⟨e, taken, mt e.isFatal_iff.mpr hfatal, hverdict, ?_⟩
  rw [answer_run hverdict, hjudged, hr.settled.keeping_having hi, conclude, if_neg hfatal]
  rfl

theorem after_append (h : Host) (before rest : List Request) :
    h.after (before ++ rest) = (h.after before).after rest := by
  induction before generalizing h with
  | nil => rfl
  | cons request before ih => exact ih _

theorem transcript_append (h : Host) (before rest : List Request) :
    h.transcript (before ++ rest) = h.transcript before ++ (h.after before).transcript rest := by
  induction before generalizing h with
  | nil => rfl
  | cons request before ih => simp only [List.cons_append, transcript, after, ih]

theorem length_transcript (h : Host) (requests : List Request) :
    (h.transcript requests).length = requests.length := by
  induction requests generalizing h with
  | nil => rfl
  | cons request rest ih => rw [transcript, List.length_cons, ih, List.length_cons]

/-- The interpreters of a host are counted by the renewals. -/
theorem generation_after (h : Host) (requests : List Request) :
    (h.after requests).generation = h.generation + requests.count .renew := by
  induction requests generalizing h with
  | nil => rfl
  | cons request rest ih =>
    rw [after, ih]
    by_cases hr : request = .renew
    · rw [hr, answer_renew, List.count_cons_self]
      simp only [renewed]
      omega
    · rw [(h.interpreter_answer hr).1, List.count_cons_of_ne hr]

/-- Hosts that are alike stay so. -/
theorem Alike.after {h' : Host} (alike : h.Alike h') (requests : List Request) :
    (h.after requests).Alike (h'.after requests) := by
  induction requests generalizing h h' with
  | nil => exact alike
  | cons request rest ih => exact ih (alike.answer request).2

/-- A report is of no account for what is asked later. -/
theorem after_reporting (h : Host) (d : Diagnostic) (requests : List Request) :
    (h.reporting d).transcript requests = h.transcript requests ∧
      ∃ log reports, (h.reporting d).after requests = { h.after requests with log, reports } := by
  have alike : h.Alike (h.reporting d) := ⟨_, _, _, _, rfl⟩
  refine ⟨alike.transcript requests, ?_⟩
  obtain ⟨sink, generation, log, reports, hafter⟩ := alike.after requests
  have hsink : sink = (h.after requests).sink := by
    rw [(h.keeps_after requests).sink, ← show ((h.reporting d).after requests).sink = h.sink from
      ((h.reporting d).keeps_after requests).sink, hafter]
  have hgeneration : generation = (h.after requests).generation := by
    rw [h.generation_after, ← show ((h.reporting d).after requests).generation = h.generation + requests.count .renew
      from (h.reporting d).generation_after requests, hafter]
  subst hsink hgeneration
  exact ⟨log, reports, hafter⟩

/-- A chunk that does not load leaves no trace but one report and the memory that its reading has taken. If nothing is to
happen when memory is reclaimed, the interpreter is the same otherwise. If in addition nothing that is asked later heeds
memory, the chunk can be taken out: the same comes of all the other requests, step by step, and the host is the same after
them, except for memory and for what is logged and reported. -/
theorem failed_load_takes_only_memory {h : Host} (hr : Reachable h) (before rest : List Request) {r : Run}
    (hf : (h.after before).FailsToLoad r) :
    let g := h.after before
    (∃ e, g.Reports r [g.complaint .parsing (g.display r) e]) ∧ (g.answer (.run r)).1 = .ok r.failure ∧
      (∃ interpreter log reports, (g.answer (.run r)).2 = { g with interpreter, log, reports }) ∧
      (g.watches = false → ∃ taken log reports, (g.answer (.run r)).2 = { g.having taken with log, reports }) ∧
      (g.heedsAny rest = false →
        (h.transcript (before ++ .run r :: rest)).eraseIdx before.length = h.transcript (before ++ rest) ∧
          ∃ taken log reports,
            h.after (before ++ .run r :: rest) = { (h.after (before ++ rest)).having taken with log, reports }) := by
  intro g
  obtain ⟨e, taken, hcause, hverdict, hanswer⟩ := hf.answer (hr.after before)
  refine ⟨⟨e, (answer_run_error hverdict hcause).2⟩, by rw [hanswer], ⟨_, _, _, by rw [hanswer]; rfl⟩,
    fun _ => ⟨taken, _, _, by rw [hanswer]; rfl⟩, fun hrest => ?_⟩
  obtain ⟨htranscript, log, reports, hafter⟩ :=
    (g.having taken).after_reporting (g.complaint .parsing (g.display r) e) rest
  obtain ⟨hsame, taken', htaken⟩ := after_having taken hrest
  refine ⟨?_, taken', log, reports, ?_⟩
  · rw [transcript_append, transcript, ← h.length_transcript before, List.eraseIdx_append_of_length_le (Nat.le_refl _),
      Nat.sub_self, List.eraseIdx_zero, List.tail_cons, hanswer, htranscript, hsame, ← transcript_append]
  · rw [after_append, after_append, after, hanswer, hafter, htaken]

/-- A script whose first statement could run, were it not for its second one. -/
def brokenScript : Run := .script "x = 2 x = = 3"

/-- The first statement has not run. -/
theorem failed_load_takes_only_memory_broken :
    let h := offering []
    let before : List Request := [.run (.script "x = 1"), .pushInteger 7]
    Reachable h ∧ (h.after before).FailsToLoad brokenScript ∧
      (h.after before).heedsAny [.run (.number "x")] = false ∧
      (h.transcript (before ++ [.run brokenScript, .run (.number "x")])).eraseIdx 2 =
        h.transcript (before ++ [.run (.number "x")]) ∧
      ((h.after (before ++ [.run brokenScript])).answer (.run (.truth "x == 1"))).1 matches .ok (.truth true) := by
  intro h before
  have hr : Reachable h := .offering []
  obtain ⟨i, hi⟩ := Option.isSome_iff_exists.mp (hr.after before).interpreter_isSome
  have hscript : ¬ Lua.IsScript "x = 2 x = = 3".toUTF8 := by decide +kernel
  have hf : (h.after before).FailsToLoad brokenScript :=
    ⟨_, _, rfl, fun hl => hscript ((loads_iff hi).mp hl).1⟩
  have hrest : (h.after before).heedsAny [.run (.number "x")] = false := by decide +kernel
  obtain ⟨-, -, -, -, hout⟩ := failed_load_takes_only_memory hr before [.run (.number "x")] hf
  exact ⟨hr, hf, hrest, (hout hrest).1, by decide +kernel⟩

/-- A script that is no better and spells out four thousand letters first. -/
def wordyScript : String :=
  let letters := String.ofList (List.replicate 1000 'a')
  "x = \x7b" ++ String.join (List.replicate 4 ("'" ++ letters ++ "',")) ++ "\x7d ="

/-- It fails to load, and a script that has measured the memory in use can tell later. -/
theorem failed_load_shows_in_memory :
    let h := offering []
    let before : List Request :=
      [.run (.script "collectgarbage('stop') before = 0 before = collectgarbage('count')")]
    let later : Request := .run (.truth "collectgarbage('count') - before > 2")
    Reachable h ∧ (h.after before).FailsToLoad (.script wordyScript) ∧
      (((h.after (before ++ [.run (.script wordyScript)])).answer later).1 matches .ok (.truth true)) ∧
      (((h.after before).answer later).1 matches .ok (.truth false)) := by
  intro h before later
  have hr : Reachable h := .offering []
  obtain ⟨i, hi⟩ := Option.isSome_iff_exists.mp (hr.after before).interpreter_isSome
  have hscript : ¬ Lua.IsScript wordyScript.toUTF8 := by decide +kernel
  have hf : (h.after before).FailsToLoad (.script wordyScript) :=
    ⟨_, _, rfl, fun hl => hscript ((loads_iff hi).mp hl).1⟩
  exact ⟨hr, hf, by decide +kernel, by decide +kernel⟩

end Host
end ScriptHost
