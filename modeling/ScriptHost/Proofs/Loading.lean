import ScriptHost.Proofs.Decoding
import ScriptHost.Proofs.Naming.Statement
import ScriptHost.Proofs.RoundTrip
/-! Loading of scripts. Whether a text can be loaded depends on the text, and on whether the configured name of
chunks is one that the interpreter takes. -/
namespace ScriptHost.Lua
open Text (Bytes)

/-- A text is a script if it can be read, under whatever name. The limits on nesting, registers and local variables
count as part of the grammar. -/
def IsScript (text : Bytes) : Prop := ∃ source proto, Proto.ofText source text Interpreter.chunkLevels = .ok proto

/-! No script starts like a compiled function. -/

theorem Lexer.tokensOnto_append (fuel line : Nat) (out : Array Lexeme) (cs : List UInt8) :
    ∃ more, (tokensOnto fuel line out cs).toList = out.toList ++ more := by
  induction fuel generalizing line out cs with
  | zero => exact ⟨[], (List.append_nil _).symm⟩
  | succ fuel ih =>
    simp only [tokensOnto]
    split
    · exact ⟨_, Array.toList_push⟩
    · split
      · exact ⟨_, Array.toList_push⟩
      · obtain ⟨more, hmore⟩ := ih _ _ _
        rw [hmore, Array.toList_push, List.append_assoc]
        exact ⟨_, rfl⟩

theorem Lexer.tokens_binaryMark {text : Bytes} {rest : List UInt8}
    (h : text.data.toList = Chunk.binaryMark :: rest) :
    ∃ more, (tokens text).toList = ⟨.char Chunk.binaryMark, 1, ByteArray.empty⟩ :: more := by
  have hstep : tokensOnto ((Chunk.binaryMark :: rest).length + 1) 1 #[] (Chunk.binaryMark :: rest) =
      tokensOnto (rest.length + 1) 1 #[⟨.char Chunk.binaryMark, 1, ByteArray.empty⟩] rest := rfl
  unfold tokens
  dsimp only
  rw [h, hstep]
  exact tokensOnto_append ..

namespace Parser

theorem bind_error {α β : Type} {part : Parse α} {next : α → Parse β} {s : State} {fault : Fault}
    (h : part s = .error fault) : (part >>= next) s = .error fault := by
  change (part s >>= fun p => next p.1 p.2) = _
  rw [h]
  rfl

/-- A script cannot be read if its first statement cannot. -/
theorem script_error {s : State} {levels : Nat} {fault : Fault}
    (hreadable : checkReadable s.tokens.head? s = .ok ((), s)) (hend : atBlockEnd true s = .ok (false, s))
    (hreturn : atKeyword .return s = .ok (false, s)) (hstatement : (grammar levels).statement s = .error fault) :
    script levels s = .error fault := by
  have hget : (get : Parse State) s = .ok (s, s) := rfl
  have hremaining : remaining s = .ok (s.tokens.length + 1, s) := rfl
  have hstatements : statements (grammar levels) s = .error fault := by
    rw [statements, bind_eq hremaining, statementsFrom, bind_eq hend]
    exact (bind_eq hreturn).trans (bind_error hstatement)
  rw [script, bind_eq hget, bind_eq hreadable]
  exact bind_error hstatements

/-- No statement starts with the mark. -/
theorem script_binaryMark {s : State} {rest : List Lexeme}
    (hs : s.tokens = ⟨.char Chunk.binaryMark, 1, ByteArray.empty⟩ :: rest) (levels : Nat) :
    ∃ fault, script levels s = .error fault := by
  have hcurrent : current s = .ok (⟨.char Chunk.binaryMark, 1, ByteArray.empty⟩, s) := by
    have hget : (get : Parse State) s = .ok (s, s) := rfl
    rw [current, bind_eq hget, hs]
    rfl
  have htoken : token s = .ok (.char Chunk.binaryMark, s) := bind_eq hcurrent
  have hline : line s = .ok (1, s) := bind_eq hcurrent
  have hreadable : checkReadable s.tokens.head? s = .ok ((), s) := by
    rw [hs]
    rfl
  have hstatement : ∃ fault, (grammar levels).statement s = .error fault := by
    cases levels with
    | zero => exact ⟨_, rfl⟩
    | succ levels =>
      -- What is no other statement has to start with a name or a parenthesis.
      obtain ⟨fault, hfail⟩ : ∃ fault,
          (failNear "unexpected symbol".toUTF8 : Parse (Expr × Option Bytes)) s = .error fault :=
        ⟨_, bind_eq hcurrent⟩
      have hprimary : primary (grammar levels) s = .error fault := by
        rw [primary, bind_eq htoken]
        exact hfail
      refine ⟨fault, ?_⟩
      change statementWith (grammar levels) s = _
      rw [statementWith, bind_eq hline, bind_eq htoken]
      exact bind_error (bind_error hprimary)
  obtain ⟨fault, hstatement⟩ := hstatement
  exact ⟨fault, script_error hreadable (bind_eq htoken) (bind_eq htoken) hstatement⟩

end Parser

theorem IsScript.head_ne_binaryMark {text : Bytes} (h : IsScript text) :
    text.data.toList.head? ≠ some Chunk.binaryMark := by
  intro hhead
  obtain ⟨source, proto, hread⟩ := h
  obtain ⟨rest, htext⟩ := List.head?_eq_some_iff.mp hhead
  obtain ⟨more, htokens⟩ := Lexer.tokens_binaryMark htext
  obtain ⟨fault, hscript⟩ := Parser.script_binaryMark
    (s := { source, tokens := (Lexer.tokens text).toList, lastLine := 1, scopes := [Parser.scriptScope] })
    htokens Interpreter.chunkLevels
  have hfault : Proto.ofText source text Interpreter.chunkLevels = .error fault :=
    congrArg (Except.map Prod.fst) hscript
  rw [hread] at hfault
  cases hfault

/-- Whether a text is a script can be seen under any name. -/
theorem isScript_iff (source text : Bytes) :
    IsScript text ↔ ∃ proto, Proto.ofText source text Interpreter.chunkLevels = .ok proto := by
  constructor
  · rintro ⟨source', proto, h⟩
    refine ⟨proto.named source, ?_⟩
    rw [Proto.ofText_named source' source, h]
    rfl
  · rintro ⟨proto, h⟩
    exact ⟨source, proto, h⟩

instance (text : Bytes) : Decidable (IsScript text) :=
  decidable_of_iff (Proto.ofText ByteArray.empty text Interpreter.chunkLevels).isOk <| by
    rw [isScript_iff ByteArray.empty]
    cases Proto.ofText ByteArray.empty text Interpreter.chunkLevels <;> simp [Except.isOk, Except.toBool]

namespace Chunk

/-- What has been read as the parts of a header are the bytes from the place on. -/
theorem prefix_of_readHeader {text : Bytes} {parts : List (Bytes × String)} {place place' : Nat}
    (h : readHeader text place parts = .ok place') :
    parts.flatMap (·.1.data.toList) <+: text.data.toList.drop place := by
  induction parts generalizing place with
  | nil => exact List.nil_prefix
  | cons part parts ih =>
    obtain ⟨part, fault⟩ := part
    simp only [readHeader] at h
    split at h
    · cases h
    split at h
    · next hfound =>
      have hpart : (text.data.toList.drop place).take part.size = part.data.toList := by
        have hextract := congrArg (·.data.toList) (eq_of_beq hfound)
        simpa only [ByteArray.data_extract, Array.toList_extract, List.extract_eq_take_drop,
          Nat.add_sub_cancel_left] using hextract
      rw [List.flatMap_cons, ← hpart]
      obtain ⟨rest, hrest⟩ := ih h
      refine ⟨rest, ?_⟩
      rw [List.append_assoc, hrest, ← List.drop_drop, List.take_append_drop]
    · cases h

/-- The bytes of a text never are a compiled function. The fourth part of the header has a continuation byte after
bytes of ASCII. -/
theorem decode_toUTF8 {s : String} (hmark : s.toUTF8.data.toList.head? = some binaryMark) (number : Nat) :
    decode s.toUTF8 ≠ .ok number := by
  intro h
  cases hheader : readHeader s.toUTF8 1 header with
  | error fault =>
    rw [decode, hheader] at h
    cases h
  | ok place =>
    obtain ⟨rest, hrest⟩ := prefix_of_readHeader hheader
    obtain ⟨tail, htail⟩ := List.head?_eq_some_iff.mp hmark
    have hparts : header.flatMap (·.1.data.toList) =
        [76, 117, 97, 84, 0, 25] ++ 147 :: (header.flatMap (·.1.data.toList)).drop 7 := by decide +kernel
    have htext : s.toUTF8.data.toList =
        [binaryMark, 76, 117, 97, 84, 0, 25] ++ 147 :: ((header.flatMap (·.1.data.toList)).drop 7 ++ rest) := by
      rw [htail, List.drop_one, List.tail_cons, hparts] at hrest
      rw [htail, ← hrest]
      rfl
    exact Text.not_isContinuation_after_ascii htext (by decide +kernel) (by decide)

/-- A text can be loaded, under whatever name, if it is a script. -/
theorem read_toUTF8_iff (written : Array Proto) (name : Bytes) (s : String) :
    (∃ proto, read written name s.toUTF8 BaseFunction.anyMode Interpreter.chunkLevels = .ok proto) ↔
      IsScript s.toUTF8 := by
  by_cases hmark : s.toUTF8.data.toList.head? = some binaryMark
  · have hread : read written name s.toUTF8 BaseFunction.anyMode Interpreter.chunkLevels =
        readBinary written name s.toUTF8 := by
      rw [read, hmark]
      rfl
    refine iff_of_false ?_ fun h => h.head_ne_binaryMark hmark
    rintro ⟨proto, h⟩
    rw [hread, readBinary] at h
    dsimp only at h
    split at h
    · cases h
    · next hdecode => exact decode_toUTF8 hmark _ hdecode
  · have hread : read written name s.toUTF8 BaseFunction.anyMode Interpreter.chunkLevels =
        readText name s.toUTF8 Interpreter.chunkLevels := by
      rw [read, beq_eq_false_iff_ne.mpr hmark]
      rfl
    rw [hread, isScript_iff name, readText]
    cases Proto.ofText name s.toUTF8 Interpreter.chunkLevels with
    | ok proto => simp
    | error fault => cases fault <;> simp

end Chunk

namespace Interpreter

/-- A text can be loaded if it is a script, under every name without a zero in it. -/
theorem load_iff (i : Interpreter) (name : String) (s : String) :
    (∃ place, (i.load name s.toUTF8).1 = .ok place) ↔ IsScript s.toUTF8 ∧ ¬ HoldsZero name := by
  by_cases hname : HoldsZero name
  · obtain ⟨message, hcheck⟩ := checkName_of_holdsZero hname
    simp [load, hcheck, hname]
  · rw [← Chunk.read_toUTF8_iff i.world.written name.toUTF8 s, load, checkName_of_not_holdsZero hname]
    dsimp only
    cases Chunk.read i.world.written name.toUTF8 s.toUTF8 BaseFunction.anyMode chunkLevels with
    | ok proto => simp [hname]
    | error fault => cases fault <;> simp

/-- A chunk that cannot be loaded is no reason not to trust the interpreter. -/
theorem not_isFatal_of_load {i j : Interpreter} {name : String} {text : Bytes} {e : ScriptError}
    (h : i.load name text = (.error e, j)) : ¬ e.isFatal := by
  unfold load at h
  split at h
  · next hname =>
    cases h
    unfold checkName at hname
    split at hname <;> cases hname
    exact Bool.false_ne_true
  · split at h <;> cases h <;> exact Bool.false_ne_true

end Interpreter
end Lua

open Lua (Interpreter)

/-- Whether a chunk has been loaded and then come to an error or a panic. -/
def Verdict.failsRunning : Verdict → Bool
  | .error .evaluating _ | .panic _ => true
  | .error .parsing _ | .results _ => false

namespace Host
variable {h : Host}

/-- The load phase of a script goes well. -/
def Loads (h : Host) (script : String) : Prop := (h.carryOut (load script.toUTF8 script)).1 = .ok true

/-- Whether a script that has been loaded comes to an error or a panic. -/
def failsRunning (h : Host) (script : String) : Bool := (h.verdict? (.script script)).any (·.failsRunning)

/-- A script runs to its end, and nothing is reported. -/
structure RunsThrough (h : Host) (script : String) : Prop where
  answer : (h.answer (.run (.script script))).1 = .ok (.truth true)
  silent : h.Reports (.script script) []

variable {i : Interpreter} {script : String}

theorem loads_iff (hi : h.interpreter = some i) :
    h.Loads script ↔ Lua.IsScript script.toUTF8 ∧ ¬ Interpreter.HoldsZero h.config.chunkName := by
  rw [← i.load_iff, Loads, carryOut_load hi]
  rcases hl : i.load h.config.chunkName script.toUTF8 with ⟨e | function, j⟩
  · simp [settle, Interpreter.not_isFatal_of_load hl]
  · simp

theorem verdict?_script (hi : h.interpreter = some i) :
    h.verdict? (.script script) = some (h.judge i script.toUTF8).1 := by
  simp only [verdict?, hi, chunk?]

/-- A script that loads either comes to results or fails while it runs. -/
theorem results_of_loads (hi : h.interpreter = some i) (hl : h.Loads script) (hf : ¬ h.failsRunning script) :
    ∃ values, h.verdict? (.script script) = some (.results values) := by
  rw [failsRunning, verdict?_script hi, Option.any_some, judge] at hf
  rw [verdict?_script hi, judge]
  obtain ⟨place, hplace⟩ := (i.load_iff _ _).mpr ((loads_iff hi).mp hl)
  rcases hload : i.load h.config.chunkName script.toUTF8 with ⟨e | function, j⟩
  · rw [hload] at hplace
    cases hplace
  · rw [hload] at hf
    rcases hcall : j.takeEvents.2.call function with ⟨values | e | payload, k⟩
    · exact ⟨values, by simp only [hcall]⟩
    · simp [hcall, Verdict.failsRunning] at hf
    · simp [hcall, Verdict.failsRunning] at hf

theorem runsThrough_iff (hi : h.interpreter = some i) (hs : Lua.IsScript script.toUTF8)
    (hf : ¬ h.failsRunning script) :
    h.RunsThrough script ↔ ¬ Interpreter.HoldsZero h.config.chunkName := by
  constructor
  · intro hruns hzero
    have hfalse := (answer_of_holdsZero (r := .script script) hi hzero rfl).1
    rw [hruns.answer] at hfalse
    cases hfalse
  · intro hname
    obtain ⟨values, hverdict⟩ := results_of_loads hi ((loads_iff hi).mpr ⟨hs, hname⟩) hf
    refine ⟨?_, .of_results hverdict⟩
    rw [answer_run hverdict]
    rfl

/-- Whether a script can be loaded is a matter of its text alone, whatever configuration a host has started with and
whatever it has been through, but for names of chunks with a zero in them: under such a name nothing can be
loaded. So a script that comes to no error when it runs is answered with success and without a report exactly under
the other names. -/
theorem script_loads_iff (hr : Reachable h) (script : String) :
    (h.Loads script ↔ Lua.IsScript script.toUTF8 ∧ ¬ Interpreter.HoldsZero h.config.chunkName) ∧
      (Lua.IsScript script.toUTF8 → ¬ h.failsRunning script →
        (h.RunsThrough script ↔ ¬ Interpreter.HoldsZero h.config.chunkName)) := by
  obtain ⟨i, hi⟩ := Option.isSome_iff_exists.mp hr.interpreter_isSome
  exact ⟨loads_iff hi, runsThrough_iff hi⟩

theorem script_loads_iff_assignment :
    let h := Host.offering []
    Reachable h ∧ Lua.IsScript "x = 1".toUTF8 ∧ ¬ h.failsRunning "x = 1" ∧ h.Loads "x = 1" ∧
      h.RunsThrough "x = 1" := by
  intro h
  have hr : Reachable h := .offering []
  have hs : Lua.IsScript "x = 1".toUTF8 := by decide +kernel
  have hf : ¬ h.failsRunning "x = 1" := by decide +kernel
  have hname : ¬ Interpreter.HoldsZero h.config.chunkName := by decide +kernel
  obtain ⟨hloads, hruns⟩ := script_loads_iff hr "x = 1"
  exact ⟨hr, hs, hf, hloads.mpr ⟨hs, hname⟩, (hruns hs hf).mpr hname⟩

/-- The name of chunks has a zero in it, which the configuration allows, and a script does not load. -/
theorem script_refused_under_name :
    misnamed.config.validate.isOk ∧ Reachable misnamed ∧ Lua.IsScript "x = 1".toUTF8 ∧ ¬ misnamed.Loads "x = 1" ∧
      (misnamed.answer (.run (.script "x = 1"))).1 = .ok (.truth false) ∧
      ∃ report, misnamed.Reports (.script "x = 1") [report] := by
  have hr : Reachable misnamed := .started _ _ _ _ _ start_misnamed
  obtain ⟨i, hi⟩ := Option.isSome_iff_exists.mp hr.interpreter_isSome
  have hzero : Interpreter.HoldsZero misnamed.config.chunkName := by decide +kernel
  refine ⟨by decide +kernel, hr, by decide +kernel, fun hl => ?_, answer_of_holdsZero hi hzero rfl⟩
  exact ((loads_iff hi).mp hl).2 hzero

end Host
end ScriptHost
