import ScriptHost.Proofs.Globals
import ScriptHost.Proofs.Identifier
/-! The chunk that returns a global. It is read as one statement, compiles to three instructions, and gives the value
that the global has. -/
namespace ScriptHost.Lua
open Text (Bytes)

/-- What a chunk that returns a global compiles to. -/
def returnGlobal (source name : Bytes) : Proto where
  source := source
  lineDefined := 0
  isMain := true
  params := 0
  isVararg := true
  registers := 2
  code := #[.index 0 (.upvalue 0) (.const (.string name)), .ret 0 (some 1), .ret 0 (some 0)]
  lines := #[1, 1, 1]
  names := #[[some (.upvalue environmentName)], [], []]
  upvalues := #[environmentName]
  children := #[]

namespace Parser

theorem bind_eq {α β : Type} {part : Parse α} {next : α → Parse β} {s s' : State} {a : α}
    (h : part s = .ok (a, s')) : (part >>= next) s = next a s' := by
  change (part s >>= fun p => next p.1 p.2) = _
  rw [h]
  rfl

section Names
variable {name : Bytes} {s : State}

theorem resolve_global (hn : name ≠ environmentName) :
    resolve name true [scriptScope] = .ok (.global, [scriptScope]) := by
  have hlocal : scriptScope.findLocal? name = none := rfl
  have hupvalue : scriptScope.findUpvalue? name = none := by
    simp [FunctionScope.findUpvalue?, scriptScope, Ne.symm hn]
  simp only [resolve, hlocal, hupvalue]
  rfl

theorem resolve_environment :
    resolve environmentName true [scriptScope] = .ok (.upvalue 0 false, [scriptScope]) := by
  have hlocal : scriptScope.findLocal? environmentName = none := rfl
  have hupvalue : scriptScope.findUpvalue? environmentName = some (.upvalue 0 false) := by
    simp [FunctionScope.findUpvalue?, scriptScope]
  simp only [resolve, hlocal, hupvalue]

theorem meaningOf_eq {meaning : Meaning} (h : resolve name true s.scopes = .ok (meaning, s.scopes)) :
    meaningOf name s = .ok (meaning, s) := by
  have hget : (get : Parse State) s = .ok (s, s) := rfl
  rw [meaningOf, bind_eq hget, h]
  rfl

/-- A global variable is a field of the environment. -/
def globalField (name : Bytes) (line : Nat) : Expr := .index (.upvalue 0) (.const (.string name)) line

/-- Outside of functions a name that has not been declared is a global variable. -/
theorem variableNamed_global (hn : name ≠ environmentName) (hs : s.scopes = [scriptScope]) :
    variableNamed name s = .ok ((globalField name unsettled, none), s) := by
  have hglobal : meaningOf name s = .ok (.global, s) := meaningOf_eq (by rw [hs, resolve_global hn])
  have henvironment : meaningOf environmentName s = .ok (.upvalue 0 false, s) :=
    meaningOf_eq (by rw [hs, resolve_environment])
  rw [variableNamed, bind_eq hglobal]
  exact bind_eq henvironment

end Names

/-! The state of reading before each token of the chunk. -/

variable (source name : Bytes)

def reading (tokens : List Lexeme) : State := { source, tokens, lastLine := 1, scopes := [scriptScope] }

def atEnd : State := reading source [⟨.endOfText, 1, ByteArray.empty⟩]

def atName : State := reading source [⟨.name name, 1, name⟩, ⟨.endOfText, 1, ByteArray.empty⟩]

def atReturn : State :=
  reading source [⟨.keyword .return, 1, "return".toUTF8⟩, ⟨.name name, 1, name⟩, ⟨.endOfText, 1, ByteArray.empty⟩]

section Statement
variable {source name} (g : Grammar) (hn : name ≠ environmentName)
include hn

theorem suffixed_global :
    suffixed g (atName source name) = .ok ((globalField name unsettled, none), atEnd source) := by
  have htoken : token (atName source name) = .ok (.name name, atName source name) := rfl
  have hadvance : advance (atName source name) = .ok ((), atEnd source) := rfl
  have hprimary : primary g (atName source name) = .ok ((globalField name unsettled, none), atEnd source) := by
    rw [primary, bind_eq htoken]
    exact (bind_eq hadvance).trans (variableNamed_global hn rfl)
  rw [suffixed, bind_eq hprimary]
  rfl

theorem subexprWith_global :
    subexprWith g 0 (atName source name) = .ok (globalField name unsettled, atEnd source) := by
  have htoken : token (atName source name) = .ok (.name name, atName source name) := rfl
  have hsimple : simple g (atName source name) = .ok (globalField name unsettled, atEnd source) := by
    rw [simple, bind_eq htoken]
    exact bind_eq (suffixed_global g hn)
  rw [subexprWith, bind_eq htoken]
  exact bind_eq hsimple

theorem settledExpressions_global (levels : Nat) :
    settledExpressions (grammar (levels + 1)) (some 1) (atName source name) =
      .ok ([globalField name 1], atEnd source) := by
  have hremaining : remaining (atName source name) = .ok (3, atName source name) := rfl
  have hscope : scope (atName source name) = .ok (scriptScope, atName source name) := rfl
  have hexpressions : expressions (grammar (levels + 1)) (atName source name) =
      .ok ([globalField name unsettled], atEnd source) := by
    rw [expressions, bind_eq hremaining, expressionsFrom]
    exact bind_eq (subexprWith_global (grammar levels) hn)
  rw [settledExpressions, releasing, bind_eq hscope, bind_assoc, bind_eq hexpressions]
  rfl

theorem returnStatement_global (levels : Nat) :
    returnStatement (grammar (levels + 1)) (atReturn source name) =
      .ok (.return [globalField name 1] true 1, atEnd source) := by
  have hadvance : advance (atReturn source name) = .ok ((), atName source name) := rfl
  have hend : atBlockEnd true (atName source name) = .ok (false, atName source name) := rfl
  have hchar : atChar ';' (atName source name) = .ok (false, atName source name) := rfl
  rw [returnStatement, bind_eq hadvance, bind_eq hend]
  exact (bind_eq hchar).trans (bind_eq (settledExpressions_global hn levels))

theorem statements_global (levels : Nat) :
    statements (grammar (levels + 2)) (atReturn source name) =
      .ok ([.return [globalField name 1] true 1], atEnd source) := by
  have hremaining : remaining (atReturn source name) = .ok (4, atReturn source name) := rfl
  have hend : atBlockEnd true (atReturn source name) = .ok (false, atReturn source name) := rfl
  have hreturn : atKeyword .return (atReturn source name) = .ok (true, atReturn source name) := rfl
  have hline : line (atReturn source name) = .ok (1, atReturn source name) := rfl
  have htoken : token (atReturn source name) = .ok (.keyword .return, atReturn source name) := rfl
  have hstatement : (grammar (levels + 2)).statement (atReturn source name) =
      .ok ([.return [globalField name 1] true 1], atEnd source) := by
    change statementWith (grammar (levels + 1)) _ = _
    rw [statementWith, bind_eq hline, bind_eq htoken]
    exact bind_eq (returnStatement_global hn levels)
  rw [statements, bind_eq hremaining, statementsFrom, bind_eq hend]
  exact (bind_eq hreturn).trans hstatement

end Statement

/-- The chunk before it is compiled. -/
def returnInput : Compiler.Input where
  source := source
  lineDefined := 0
  lastLine := 1
  isMain := true
  params := []
  isVararg := true
  body := [.return [globalField name 1] true 1]
  declNames := #[]
  captured := []
  upvalueNames := #[environmentName]
  jumps := []
  children := #[]

theorem compile?_returnInput : Proto.compile? (returnInput source name) = some (returnGlobal source name) := by
  have hfunction : (Compiler.function.run (returnInput source name)).run {} = some ((), {
      code := (returnGlobal source name).code
      lines := (returnGlobal source name).lines
      names := (returnGlobal source name).names
      registers := 2 }) := rfl
  simp only [Proto.compile?, hfunction]
  simp [returnInput, returnGlobal]

/-- A function that ends is compiled with the scope that it had. -/
theorem closeFunction_eq {body : List Stat} {endLine number : Nat} {s s' : State} {f : FunctionScope}
    {outer : List FunctionScope} {proto : Proto} (hleave : leaveBlock s = .ok (number, s'))
    (hs' : s'.scopes = f :: outer)
    (hcompile : Proto.compile? {
      source := s'.source, lineDefined := f.lineDefined, lastLine := endLine, isMain := f.lineDefined == 0
      params := f.params, isVararg := f.isVararg, body, declNames := f.declNames, captured := f.captured
      upvalueNames := f.upvalues.map (·.name), jumps := f.jumps, children := f.children } = some proto) :
    closeFunction body endLine s =
      .ok ((proto, f.upvalues.map (·.capture)), { s' with scopes := outer }) := by
  have hget : (get : Parse State) s' = .ok (s', s') := rfl
  have hscope : scope s' = .ok (f, s') := by
    rw [scope, bind_eq hget, hs']
    rfl
  have houter : outer = s'.scopes.tail := by rw [hs', List.tail_cons]
  rw [closeFunction, bind_eq hleave, bind_eq hscope, bind_eq hget, hcompile, houter]
  rfl

/-- The chunk is read to its end. -/
theorem script_global (hn : name ≠ environmentName) (levels : Nat) :
    ∃ s, script (levels + 2) (atReturn source name) = .ok (returnGlobal source name, s) := by
  have hget : (get : Parse State) (atReturn source name) = .ok (atReturn source name, atReturn source name) := rfl
  have hreadable : checkReadable (atReturn source name).tokens.head? (atReturn source name) =
      .ok ((), atReturn source name) := rfl
  have htoken : token (atEnd source) = .ok (.endOfText, atEnd source) := rfl
  have hline : lastLine (atEnd source) = .ok (1, atEnd source) := rfl
  have hleave : leaveBlock (atEnd source) =
      .ok (0, { atEnd source with scopes := [{ scriptScope with blocks := [] }] }) := rfl
  have hnames : scriptScope.upvalues.map (·.name) = #[environmentName] := by simp [scriptScope]
  have hcompile : Proto.compile? { returnInput source name with
      upvalueNames := scriptScope.upvalues.map (·.name) } = some (returnGlobal source name) := by
    rw [hnames]
    exact compile?_returnInput source name
  have hclose := closeFunction_eq hleave rfl hcompile
  refine ⟨{ atEnd source with scopes := [] }, ?_⟩
  rw [script, bind_eq hget, bind_eq hreadable, bind_eq (statements_global hn levels), bind_eq htoken]
  exact (bind_eq hline).trans (bind_eq hclose)

end Parser

/-- A name of a table is read without its metatable: there is none, or the name has a value. -/
def World.ReadsPlainly (w : World) (place : Nat) (name : Bytes) : Prop :=
  (w.table place).metatable = none ∨ (w.table place).get (.string name) ≠ .nil

namespace Machine

theorem run_of_inl {provision : Provision} {m m' : Machine} (h : m.advance provision = .inl m') (fuel : Nat) :
    run provision (fuel + 1) m = run provision fuel m' := by
  rw [run, h]

theorem call_closure (provision : Provision) {w : World} {place : Nat} {proto : Proto} {captured : Array Nat}
    (hf : w.functions[place]? = some (.closure proto captured)) (frames : List Frame) (isTail : Bool)
    (levels fuel : Nat) {base : Nat} {args : List Value} (hroom : base + args.length + proto.registers ≤ slotLimit) :
    call provision w frames isTail levels base (fuel + 1) (.function place) args =
      ⟨frames, .script w (enter place proto captured args isTail levels base)⟩ := by
  simp only [call, hf, if_neg (Nat.not_lt.mpr hroom)]

/-- The frames that wait for a function which the host has called. -/
def callers (handler : Handler) : List Frame :=
  [.task { function := none, isTail := false, levels := 0, base := 0, waiting := .results fun values w => .done w values },
    .task { function := none, isTail := false, levels := 0, base := 0,
            waiting := .outcome handler fun outcome w =>
              match outcome with
              | .ok values => .done w values
              | .error raised => .fail w (.reraised raised) }]

/-- A function that the host calls starts to run. -/
theorem advance_start (provision : Provision) {w : World} {place : Nat} {proto : Proto} {captured : Array Nat}
    (hf : w.functions[place]? = some (.closure proto captured)) (hroom : 20 + proto.registers ≤ slotLimit)
    (handler : Handler) :
    (start w 0 handler (Task.call (.function place) [])).advance provision =
      .inl ⟨callers handler, .script w (enter place proto captured [] false 1 20)⟩ :=
  congrArg Sum.inl (call_closure provision hf (callers handler) false 1 999 hroom)

/-- Results that nobody closes anything for go back to the host. -/
theorem run_deliver (provision : Provision) (w : World) (values : List Value) (handler : Handler) (fuel : Nat) :
    run provision (fuel + 5) ⟨callers handler, .deliver w values⟩ = .finished w values := by
  rfl

theorem run_ret (provision : Provision) (w : World) {f : ScriptFrame} (hpc : f.pc < f.proto.code.size)
    (hcode : f.proto.code[f.pc] = .ret 0 (some 1)) (hreturning : f.returning = none) (hclose : f.toClose = [])
    {v : Value} {rest : List Value} (hregisters : f.registers.toList = v :: rest) (handler : Handler) (fuel : Nat) :
    run provision (fuel + 6) ⟨callers handler, .script w f⟩ = .finished w [v] := by
  have hcollect : f.collect 0 (some 1) = [v] := by
    simp [ScriptFrame.collect, hregisters]
  have hexecute : f.execute w f.proto.code[f.pc] = .leave w [v] := by
    rw [hcode]
    simp only [ScriptFrame.execute, hreturning, ScriptFrame.finishWith, hclose, hcollect]
  have hadvance : advance provision ⟨callers handler, .script w f⟩ = .inl ⟨callers handler, .deliver w [v]⟩ := by
    simp only [advance, dif_pos hpc, hexecute]
    rfl
  rw [run_of_inl hadvance, run_deliver]

variable (provision : Provision) {w : World} {f : ScriptFrame} {g : Nat} {name : Bytes}

/-- The first instruction reads a name of a table into a register. -/
theorem run_index (hpc : f.pc < f.proto.code.size)
    (hcode : f.proto.code[f.pc] = .index 0 (.upvalue 0) (.const (.string name)))
    (htable : f.get w (.upvalue 0) = .table g) (hread : w.ReadsPlainly g name) (handler : Handler) :
    ∃ w' resume spent, spent ≤ 2 ∧ ∀ fuel, run provision (fuel + spent) ⟨callers handler, .script w f⟩ =
      run provision fuel ⟨callers handler, .script w' ({ f with resume }.put 0 ((w.table g).get (.string name)))⟩ := by
  have hadvance : advance provision ⟨callers handler, .script w f⟩ =
      .inl (afterInstruction provision (callers handler) (f.execute w f.proto.code[f.pc])) := by
    simp only [advance, dif_pos hpc]
  have hkey : f.get w (.const (.string name)) = .string name := rfl
  have hhint : (w.table g).movesHint (.string name) = false := by simp [Table.movesHint, Table.listPlace?]
  by_cases hv : (w.table g).get (.string name) = .nil
  · -- What is not there is asked of the metatable, so that the instruction takes a step more.
    have hplain : (w.table g).metatable = none := hread.resolve_right fun hvalue => hvalue hv
    have hindex : Operation.index (.table g) (.string name) (some 0) (fun v w => .done w [v]) w =
        .done (w.modifyTable g (·.noteRead (.string name))) [.nil] := by
      simp only [Operation.index, Operation.chainLimit, Operation.indexFrom, Key.ofValue?, hv, hplain]
    have hexecute : f.execute w f.proto.code[f.pc] =
        .work { f with resume := .store 0 } (.done (w.modifyTable g (·.noteRead (.string name))) [.nil]) := by
      rw [hcode]
      simp only [ScriptFrame.execute, htable, hkey, ScriptFrame.quickIndex, Key.ofValue?, hv, ScriptFrame.operate, hindex]
    rw [hexecute] at hadvance
    refine ⟨w.modifyTable g (·.noteRead (.string name)), .store 0, 2, Nat.le_refl _, fun fuel => ?_⟩
    rw [run_of_inl hadvance, hv]
    rfl
  · have hquick : ScriptFrame.quickIndex w (.table g) (.string name) = some ((w.table g).get (.string name)) := by
      simp only [ScriptFrame.quickIndex, Key.ofValue?, hhint]
      cases hget : (w.table g).get (.string name) with
      | nil => exact absurd hget hv
      | _ => rfl
    have hexecute : f.execute w f.proto.code[f.pc] = .next w (f.put 0 ((w.table g).get (.string name))) := by
      rw [hcode]
      simp only [ScriptFrame.execute, htable, hkey, hquick]
    rw [hexecute] at hadvance
    exact ⟨w, f.resume, 1, by omega, run_of_inl hadvance⟩

/-- A chunk that returns a global ends with the value of the global. -/
theorem run_returnGlobal {place : Nat} {captured : Array Nat} {source : Bytes}
    (hf : w.functions[place]? = some (.closure (returnGlobal source name) captured))
    (htable : w.cells[captured[0]?.getD 0]? = some (.table g)) (hread : w.ReadsPlainly g name)
    (handler : Handler) (fuel : Nat) :
    ∃ w', run provision (fuel + 9) (start w 0 handler (Task.call (.function place) [])) =
      .finished w' [(w.table g).get (.string name)] := by
  have hstart := advance_start provision hf (Nat.le_of_ble_eq_true rfl) handler
  have htable' : (enter place (returnGlobal source name) captured [] false 1 20).get w (.upvalue 0) = .table g := by
    simp only [ScriptFrame.get, enter, htable, Option.getD_some]
  obtain ⟨w', resume, spent, hspent, hindex⟩ :=
    run_index provision (by simp [enter, returnGlobal]) rfl htable' hread handler
  refine ⟨w', ?_⟩
  have hfuel : fuel + 8 = fuel + (2 - spent) + 6 + spent := by omega
  rw [run_of_inl hstart, hfuel, hindex]
  exact run_ret provision w' (by simp [enter, returnGlobal, ScriptFrame.put]) rfl rfl rfl rfl handler _

end Machine

/-- The text of a chunk that returns a global. -/
theorem ofText_return {name : String} (hid : isIdentifier name) (hn : name ≠ "_ENV") (source : Bytes)
    (levels : Nat) :
    Proto.ofText source ("return " ++ name).toUTF8 (levels + 2) = .ok (returnGlobal source name.toUTF8) := by
  have henvironment : name.toUTF8 ≠ environmentName := fun h => hn (String.toByteArray_inj.mp h)
  obtain ⟨s, hscript⟩ := Parser.script_global source name.toUTF8 henvironment levels
  have hrun : Proto.ofText source ("return " ++ name).toUTF8 (levels + 2) =
      (Parser.script (levels + 2) (Parser.atReturn source name.toUTF8)).map (·.1) := by
    rw [Proto.ofText, Lexer.tokens_return hid]
    rfl
  rw [hrun, hscript]
  rfl

namespace Interpreter

/-- Whether the name of a chunk has a zero in it. -/
def HoldsZero (name : String) : Prop := 0 ∈ name.toUTF8.data.toList

instance (name : String) : Decidable (HoldsZero name) := inferInstanceAs (Decidable (0 ∈ name.toUTF8.data.toList))

theorem checkName_of_not_holdsZero {name : String} (hname : ¬ HoldsZero name) :
    checkName name = .ok name.toUTF8 := by
  have hnone : name.toUTF8.data.toList.findIdx? (· == 0) = none := by
    rw [List.findIdx?_eq_none_iff]
    intro b hb
    refine beq_eq_false_iff_ne.mpr ?_
    rintro rfl
    exact hname hb
  rw [checkName, hnone]

theorem checkName_of_holdsZero {name : String} (hname : HoldsZero name) :
    ∃ message, checkName name = .error (.runtime message) := by
  have hsome : (name.toUTF8.data.toList.findIdx? (· == 0)).isSome := by
    rw [List.findIdx?_isSome, List.any_eq_true]
    exact ⟨0, hname, rfl⟩
  obtain ⟨place, hplace⟩ := Option.isSome_iff_exists.mp hsome
  rw [checkName, hplace]
  exact ⟨_, rfl⟩

/-- A chunk that returns a global can be loaded. -/
theorem load_return (i : Interpreter) {chunkName name : String} (hchunk : ¬ HoldsZero chunkName)
    (hid : isIdentifier name) (hn : name ≠ "_ENV") :
    i.load chunkName ("return " ++ name).toUTF8 =
      (.ok i.world.functions.size, { i.afterReading ("return " ++ name).toUTF8 with
        world := (i.world.addChunk (returnGlobal chunkName.toUTF8 name.toUTF8) (.table i.world.globals)).2 }) := by
  have hfirst : ("return " ++ name).toUTF8.data.toList.head? = some 114 := by
    rw [String.toUTF8_eq_toByteArray, String.toByteArray_append, ByteArray.data_append, Array.toList_append]
    rfl
  have htext : Chunk.readText chunkName.toUTF8 ("return " ++ name).toUTF8 chunkLevels =
      .ok (returnGlobal chunkName.toUTF8 name.toUTF8) := by
    rw [Chunk.readText, show chunkLevels = 197 + 2 from rfl, ofText_return hid hn]
  have hread : Chunk.read i.world.written chunkName.toUTF8 ("return " ++ name).toUTF8 BaseFunction.anyMode
      chunkLevels = .ok (returnGlobal chunkName.toUTF8 name.toUTF8) := by
    rw [Chunk.read, hfirst]
    exact htext
  rw [load, checkName_of_not_holdsZero hchunk]
  dsimp only
  rw [hread]
  rfl

/-- A chunk that returns a global gives its value. -/
theorem call_returnGlobal {i : Interpreter} {place : Nat} {captured : Array Nat} {source : Bytes} {name : String}
    {v : HostValue} (hf : i.world.functions[place]? = some (.closure (returnGlobal source name.toUTF8) captured))
    (htable : i.world.cells[captured[0]?.getD 0]? = some (.table i.world.globals))
    (hread : i.world.ReadsPlainly i.world.globals name.toUTF8)
    (hvalue : ∀ w : World, w.receive (i.world.globalValue name) = (.ok v, w)) :
    ∃ j, i.call place = (.ok [v], j) := by
  have hlimit : stepLimit = stepLimit - 9 + 9 := by decide
  obtain ⟨w', hrun⟩ := Machine.run_returnGlobal (provision i.reading) hf htable hread (.function explainValue) (stepLimit - 9)
  rw [← hlimit] at hrun
  have hreceive : w'.receiveAll [i.world.globalValue name] = (.ok [v], w') := by
    simp only [World.receiveAll, hvalue]
  change Machine.run _ _ _ = .finished w' [i.world.globalValue name] at hrun
  rw [call, run, hrun]
  simp only [hreceive]
  exact ⟨_, rfl⟩

end Interpreter
end ScriptHost.Lua
