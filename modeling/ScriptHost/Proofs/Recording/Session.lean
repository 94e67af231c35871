import ScriptHost.Proofs.Recording.Lending
/-! Sessions of calls on records, from the first to the last. Memory follows the store at every step, so that calls
see one list for each family. -/
namespace ScriptHost.RecordSession
open RecordWork

variable {n : Nat}

/-- Whether a session goes on from another one. -/
inductive Continues {n : Nat} (before : RecordSession n) : {m : Nat} → RecordSession m → Prop where
  | refl : Continues before before
  | create {m : Nat} {later : RecordSession m} : Continues before later → Continues before later.create
  | share {m : Nat} {later : RecordSession m} (handle : Fin m) : Continues before later →
      Continues before (later.share handle)
  | call {m : Nat} {later : RecordSession m} (handle : Fin m) (wanted : RecordCall) : Continues before later →
      Continues before (later.call handle wanted)

/-- Memory after a session in which no call has failed. It has the records of the store. -/
structure Stands (session : RecordSession n) (memory : ReportMemory) : Prop where
  run : session.run = .ok (session.stored.1, memory)
  holds : memory.Holds session.stored.2

theorem stands_start : start.Stands {} where
  run := rfl
  holds :=
    { size := rfl
      free := fun _ _ hc => by cases hc
      record := fun _ _ hc => by cases hc
      apart := fun _ _ _ _ hc => by cases hc }

section Steps
variable {before : RecordSession n} {memory memory' : ReportMemory} (stands : before.Stands memory)
include stands

theorem Stands.create : before.create.Stands memory.withRecord where
  run := by
    have hcreate := ReportMemory.create_eq memory
    rw [stands.holds.size] at hcreate
    rw [RecordSession.run, stands.run]
    change (RecordWork.create memory >>= fun p => pure (before.stored.1.push p.1, p.2)) = _
    rw [hcreate]
    rfl
  holds := stands.holds.withRecord

theorem Stands.share (k : Fin n) : (before.share k).Stands memory where
  run := by
    rw [RecordSession.run, stands.run]
    rfl
  holds := stands.holds

theorem Stands.exists_replies (k : Fin n) (wanted : RecordCall) :
    ∃ reply memory', Replies memory before.stored.2 (before.stored.1.get k) wanted reply memory' :=
  RecordWork.exists_replies stands.holds (before.follows_stored.inside k k.isLt) wanted

theorem Stands.call {k : Fin n} {wanted : RecordCall} {reply : RecordReply}
    (replies : Replies memory before.stored.2 (before.stored.1.get k) wanted reply memory') :
    (before.call k wanted).Stands memory' where
  run := by
    rw [RecordSession.run, stands.run]
    change (perform (before.stored.1.get k) wanted memory >>= fun p => pure (before.stored.1, p.2)) = _
    rw [replies.perform]
    rfl
  holds := replies.holds

end Steps

/-- In no session a call fails. -/
theorem exists_stands (session : RecordSession n) : ∃ memory, session.Stands memory := by
  induction session with
  | start => exact ⟨_, stands_start⟩
  | create before ih =>
    obtain ⟨memory, stands⟩ := ih
    exact ⟨_, stands.create⟩
  | share before k ih =>
    obtain ⟨memory, stands⟩ := ih
    exact ⟨_, stands.share k⟩
  | call before k wanted ih =>
    obtain ⟨memory, stands⟩ := ih
    obtain ⟨reply, memory', replies⟩ := stands.exists_replies k wanted
    exact ⟨_, stands.call replies⟩

/-- However a session goes on, the lists that callers have got by now stay as they are. -/
theorem Continues.keeps {session : RecordSession n} {memory : ReportMemory} (stands : session.Stands memory) {m : Nat}
    {later : RecordSession m} (h : session.Continues later) :
    ∃ memory', later.Stands memory' ∧ memory.Keeps memory' := by
  induction h with
  | refl => exact ⟨memory, stands, .refl memory⟩
  | create _ ih =>
    obtain ⟨memory', stands', hkeeps⟩ := ih
    exact ⟨_, stands'.create, hkeeps.trans (.withRecord memory')⟩
  | share k _ ih =>
    obtain ⟨memory', stands', hkeeps⟩ := ih
    exact ⟨_, stands'.share k, hkeeps⟩
  | call k wanted _ ih =>
    obtain ⟨memory', stands', hkeeps⟩ := ih
    obtain ⟨reply, memory'', replies⟩ := stands'.exists_replies k wanted
    exact ⟨_, stands'.call replies, hkeeps.trans replies.keeps⟩

/-- Whatever handles have been obtained and whatever has been done through them, no call has failed, and the next one
does not fail either. It shows what a list of its family shows to which exactly the reports have been added that came
through handles of the family since the list was last cleared, and so does the store of records. Other families do not
see it. What it has returned stays what it was, however the session goes on. -/
theorem records_are_lists (session : RecordSession n) :
    ∃ memory, session.run = .ok (session.stored.1, memory) ∧
      ∀ (i : Fin n) (wanted : RecordCall),
        wanted.seenIn session.stored.2 (session.stored.1.get i) = wanted.seen (session.recorded i) ∧
        ∃ reply memory', perform (session.stored.1.get i) wanted memory = .ok (reply, memory') ∧
          memory'.view reply = wanted.seen (session.recorded i) ∧
          (∀ j, (session.call i wanted).recorded j =
            if session.Related i j then wanted.change (session.recorded j) else session.recorded j) ∧
          ∀ (m : Nat) (later : RecordSession m), (session.call i wanted).Continues later →
            ∃ memory'', later.run = .ok (later.stored.1, memory'') ∧ memory''.view reply = memory'.view reply := by
  obtain ⟨memory, stands⟩ := session.exists_stands
  refine ⟨memory, stands.run, ?_⟩
  intro i wanted
  have hlist : session.stored.2.entries (session.stored.1.get i) = session.recorded i :=
    session.follows_stored.entries i i.isLt
  have hseen : wanted.seenIn session.stored.2 (session.stored.1.get i) = wanted.seen (session.recorded i) := by
    rw [wanted.seenIn_eq, hlist]
  obtain ⟨reply, memory', replies⟩ := stands.exists_replies i wanted
  have hlists (j : Nat) := recorded_call session i j wanted
  refine ⟨hseen, reply, memory', replies.perform, replies.view.trans hseen, hlists, ?_⟩
  intro m later hlater
  obtain ⟨memory'', stands'', hkeeps⟩ := hlater.keeps (stands.call replies)
  exact ⟨memory'', stands''.run, hkeeps.view_eq replies.owns⟩

/-- Two records, and a second handle on the first one, which has a report. -/
def sharing : RecordSession 3 :=
  (start.create.create.share 0).call 0 (.add ⟨"bad script", "LUA_ERROR"⟩)

/-- The list that has been got through the copy stays after the record has been cleared, and the copy then sees that
nothing is left. The other record has never had a report. -/
theorem records_are_lists_sharing :
    let asked := sharing.call 2 .entries
    asked.Continues (asked.call 0 .clear) ∧ sharing.recorded 1 = [] ∧ (asked.call 0 .clear).recorded 2 = [] ∧
      ∃ memory reply memory', sharing.run = .ok (sharing.stored.1, memory) ∧
        perform (sharing.stored.1.get 2) .entries memory = .ok (reply, memory') ∧
        memory'.view reply = .reports [⟨"bad script", "LUA_ERROR"⟩] ∧
        ∃ memory'', (asked.call 0 .clear).run = .ok ((asked.call 0 .clear).stored.1, memory'') ∧
          memory''.view reply = .reports [⟨"bad script", "LUA_ERROR"⟩] := by
  intro asked
  have hlater : asked.Continues (asked.call 0 .clear) := .call 0 .clear .refl
  have hlist : sharing.recorded 2 = [⟨"bad script", "LUA_ERROR"⟩] := by decide
  obtain ⟨memory, hrun, hcalls⟩ := records_are_lists sharing
  obtain ⟨-, reply, memory', hperform, hview, -, hkept⟩ := hcalls 2 .entries
  have hshown : memory'.view reply = .reports [⟨"bad script", "LUA_ERROR"⟩] :=
    hview.trans (congrArg RecordView.reports hlist)
  obtain ⟨memory'', hrun', hview'⟩ := hkept 3 _ hlater
  exact ⟨hlater, by decide, by decide, memory, reply, memory', hrun, hperform, hshown, memory'', hrun',
    hview'.trans hshown⟩

end ScriptHost.RecordSession
