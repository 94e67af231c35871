import ScriptHost.Proofs.Lexing.Comment
import ScriptHost.Proofs.NormalForm
import ScriptHost.Proofs.Parsing.Statement
import ScriptHost.Proofs.Quoting
/-! Expressions with a comment behind them. A marker becomes that of the script language, where a comment may begin
with a long bracket and then ends where that is closed. -/
namespace ScriptHost

namespace Source
open Text (afterFirst?)

/-- No character comes into a text with the marking but those of the marker. -/
theorem mem_markComments {c : Char} {cs : List Char} (h : c ∈ markComments cs) : c ∈ cs ∨ c = '-' := by
  fun_induction markComments cs with
  | case1 | case3 => exact .inl h
  | case2 => exact .inr (by simpa [commentMarker] using h)
  | case4 d e rest heq ih =>
    obtain hmarker | hrest := List.mem_append.mp h
    · exact .inr (by simpa [commentMarker] using hmarker)
    · exact (ih hrest).imp_left fun hc => List.mem_cons_of_mem _ (List.mem_cons_of_mem _ hc)
  | case5 d e rest hne heq ih =>
    obtain hmarker | hrest := List.mem_append.mp h
    · exact .inr (by simpa [commentMarker] using hmarker)
    · exact (ih hrest).imp_left (List.mem_cons_of_mem _)
  | case6 d e rest hne hne' ih =>
    obtain rfl | hrest := List.mem_cons.mp h
    · exact .inl List.mem_cons_self
    · exact (ih hrest).imp_left (List.mem_cons_of_mem _)

/-- Characters that are part of no marker stay in front of what is marked. -/
theorem markComments_unmarked_append {part : List Char} (hpart : ∀ c ∈ part, isUnmarked c) (cs : List Char) :
    markComments (part ++ cs) = part ++ markComments cs := by
  induction part with
  | nil => rfl
  | cons c part ih =>
    obtain ⟨hc, hpart⟩ := List.forall_mem_cons.mp hpart
    obtain ⟨⟨hslash, hhash⟩, -⟩ : (c ≠ '/' ∧ c ≠ '#') ∧ c ≠ '-' := by simpa [isUnmarked] using hc
    rw [List.cons_append, markComments_cons (fun h => absurd h hslash) hhash, ih hpart, List.cons_append]

/-- What follows a part that is in no marker is marked on its own. -/
theorem afterFirst?_markComments {part : List Char} (hpart : ∀ c ∈ part, isUnmarked c) (hne : part ≠ [])
    (cs : List Char) : afterFirst? part (markComments cs) = (afterFirst? part cs).map markComments := by
  have hmarker {c : Char} (hc : ¬ isUnmarked c) (cs : List Char) :
      afterFirst? part (c :: cs) = afterFirst? part cs := by
    refine Text.afterFirst?_cons fun h => hc ?_
    obtain ⟨p, part, rfl⟩ := List.exists_cons_of_ne_nil hne
    rw [← (List.cons_prefix_cons.mp h).1]
    exact hpart p List.mem_cons_self
  have hfound {cs : List Char} (h : part <+: cs) :
      afterFirst? part (markComments cs) = (afterFirst? part cs).map markComments := by
    obtain ⟨rest, rfl⟩ := h
    rw [markComments_unmarked_append hpart, Text.afterFirst?_append hne, Text.afterFirst?_append hne]
    rfl
  fun_induction markComments cs with
  | case1 => rfl
  | case2 c heq =>
    obtain rfl : c = '#' := by simpa using heq
    rw [hmarker (by decide)]
    exact (hmarker (by decide) _).trans (hmarker (by decide) _)
  | case3 c hunmarked =>
    by_cases hprefix : part <+: [c]
    · simpa [markComments, hunmarked] using hfound hprefix
    · rw [Text.afterFirst?_cons hprefix]
      rfl
  | case4 c d rest heq ih =>
    obtain ⟨rfl, rfl⟩ : c = '/' ∧ d = '/' := by simpa using heq
    rw [hmarker (by decide), hmarker (by decide), ← ih]
    exact (hmarker (by decide) _).trans (hmarker (by decide) _)
  | case5 c d rest hpair heq ih =>
    obtain rfl : c = '#' := by simpa using heq
    rw [hmarker (by decide), ← ih]
    exact (hmarker (by decide) _).trans (hmarker (by decide) _)
  | case6 c d rest hpair hunmarked ih =>
    have hmark : markComments (c :: d :: rest) = c :: markComments (d :: rest) := by
      rw [markComments, if_neg hpair, if_neg hunmarked]
    by_cases hprefix : part <+: c :: d :: rest
    · rw [← hmark]
      exact hfound hprefix
    · have hprefix' : ¬ part <+: c :: markComments (d :: rest) := by
        rwa [← hmark, prefix_markComments_iff hpart]
      rw [Text.afterFirst?_cons hprefix, Text.afterFirst?_cons hprefix', ih]

theorem markComments_marker {m : List Char} (hm : m = ['/', '/'] ∨ m = ['#']) (cs : List Char) :
    markComments (m ++ cs) = '-' :: '-' :: markComments cs := by
  obtain rfl | rfl := hm
  · rfl
  · exact markComments_hash cs

/-- An expression without markers of its own stays, and only what follows it is marked. -/
theorem toList_prepareExpression_append {e : String} (hmarker : ¬ HasMarker e.toList) (hplus : ¬ ['+'] <+: e.toList)
    (t : String) : (prepareExpression (e ++ " " ++ t)).toList = e.toList ++ ' ' :: markComments t.toList := by
  have hlist : (e ++ " " ++ t).toList = e.toList ++ ' ' :: t.toList := by simp
  have hblank : ∀ cs : List Char, (' ' :: cs).head? ≠ some '/' := by simp
  rw [toList_prepareExpression, hlist, markComments_append fun _ => hblank _, markComments_eq_self hmarker,
    markComments_cons (fun h => absurd h (by decide)) (by decide), dropPlus_eq_self_iff]
  cases h : e.toList with
  | nil => simp
  | cons c cs =>
    rw [h] at hplus
    simpa using hplus

end Source

namespace Lua
open Text (Bytes)

/-- Of a text only its tokens matter, unless it looks like a compiled function. -/
theorem Chunk.read_of_tokens_eq {text text' : Bytes} (htokens : Lexer.tokens text' = Lexer.tokens text)
    (htext : text.data.toList.head? ≠ some binaryMark) (htext' : text'.data.toList.head? ≠ some binaryMark)
    (written : Array Proto) (name mode : Bytes) (levels : Nat) :
    read written name text' mode levels = read written name text mode levels := by
  have hproto : Proto.ofText name text' levels = Proto.ofText name text levels := by
    rw [Proto.ofText, htokens, Proto.ofText]
  rw [read, read, beq_eq_false_iff_ne.mpr htext, beq_eq_false_iff_ne.mpr htext', readText, readText, hproto]
  rfl

theorem Chunk.weight_of_tokens_eq {text text' : Bytes} (htokens : Lexer.tokens text' = Lexer.tokens text)
    (htext : text.data.toList.head? ≠ some binaryMark) (htext' : text'.data.toList.head? ≠ some binaryMark) :
    weight text' = weight text := by
  rw [weight, weight, beq_eq_false_iff_ne.mpr htext, beq_eq_false_iff_ne.mpr htext', htokens]
  rfl

theorem Interpreter.load_of_tokens_eq {text text' : Bytes} (htokens : Lexer.tokens text' = Lexer.tokens text)
    (htext : text.data.toList.head? ≠ some Chunk.binaryMark) (htext' : text'.data.toList.head? ≠ some Chunk.binaryMark)
    (i : Interpreter) (name : String) : i.load name text' = i.load name text := by
  unfold load
  simp only [Chunk.read_of_tokens_eq htokens htext htext', afterReading,
    Chunk.weight_of_tokens_eq htokens htext htext']

end Lua

open Lua (Interpreter longOpening longClosing)
open Source

namespace Host
variable {h : Host} {i : Interpreter}

/-- The expressions have the same outcome, down to the result or the failure, and leave the same interpreter and the
same values on the stack. Only reports quote the expressions themselves. -/
structure RunsAlike (h : Host) (e e' : String) : Prop where
  verdict : h.verdict? (.expression e') = h.verdict? (.expression e)
  outcome : (h.answer (.run (.expression e'))).1 = (h.answer (.run (.expression e))).1
  state : ∃ log reports,
    (h.answer (.run (.expression e'))).2 = { (h.answer (.run (.expression e))).2 with log, reports }

/-- The chunk of an expression. -/
def returning (h : Host) (e : String) : String := "return " ++ h.prepared e

theorem verdict?_expression (hi : h.interpreter = some i) (e : String) :
    h.verdict? (.expression e) = some (h.judge i (h.returning e).toUTF8).1 := by
  simp only [verdict?, hi, chunk?, returning]

theorem judged_expression (hi : h.interpreter = some i) (e : String) :
    h.judged (.expression e) = (h.judge i (h.returning e).toUTF8).2 := by
  simp only [judged, hi, chunk?, returning]

theorem toList_returning (h : Host) (e : String) :
    (h.returning e).toUTF8.data.toList = Text.bytes "return ".toList ++ Text.bytes (h.prepared e).toList := by
  rw [Text.toList_toUTF8, returning, String.toList_append, Text.bytes_append]

theorem head?_returning (h : Host) (e : String) :
    (h.returning e).toUTF8.data.toList.head? ≠ some Lua.Chunk.binaryMark := by
  have hreturn : Text.bytes "return ".toList = [114, 101, 116, 117, 114, 110, 32] := by decide
  rw [toList_returning, hreturn]
  exact fun hhead => absurd (Option.some.inj hhead) (by decide)

/-- What is made of a verdict does not depend on the text that reports quote. -/
theorem conclude_display (e e' display display' : String) (verdict : Verdict) :
    (h.conclude (.expression e') display' verdict).1 = (h.conclude (.expression e) display verdict).1 ∧
      ∃ log reports, (h.conclude (.expression e') display' verdict).2 =
        { (h.conclude (.expression e) display verdict).2 with log, reports } := by
  cases verdict with
  | error phase error =>
    simp only [conclude]
    split
    · exact ⟨rfl, _, _, rfl⟩
    · exact ⟨rfl, _, _, rfl⟩
  | panic payload => exact ⟨rfl, _, _, rfl⟩
  | results values => exact ⟨rfl, _, _, rfl⟩

/-- Expressions with the same tokens run alike. -/
theorem runsAlike_of_tokens_eq (hi : h.interpreter = some i) {e e' : String}
    (htokens : Lua.Lexer.tokens (h.returning e').toUTF8 = Lua.Lexer.tokens (h.returning e).toUTF8) :
    h.RunsAlike e e' := by
  have hjudge : h.judge i (h.returning e').toUTF8 = h.judge i (h.returning e).toUTF8 := by
    rw [judge, i.load_of_tokens_eq htokens (head?_returning h e) (head?_returning h e'), judge]
  have hverdict := verdict?_expression hi e
  have hverdict' := verdict?_expression hi e'
  rw [hjudge] at hverdict'
  obtain ⟨houtcome, hstate⟩ := conclude_display (h := (h.judge i (h.returning e).toUTF8).2) e e'
    (h.display (.expression e)) (h.display (.expression e')) (h.judge i (h.returning e).toUTF8).1
  have hanswer := answer_run hverdict
  have hanswer' := answer_run hverdict'
  rw [judged_expression hi] at hanswer hanswer'
  rw [hjudge] at hanswer'
  exact ⟨hverdict'.trans hverdict.symm, by rw [hanswer, hanswer', houtcome], by rw [hanswer, hanswer']; exact hstate⟩

theorem RunsAlike.trans {e e' e'' : String} (hruns : h.RunsAlike e e') (hruns' : h.RunsAlike e' e'') :
    h.RunsAlike e e'' := by
  obtain ⟨log, reports, hstate⟩ := hruns.state
  obtain ⟨log', reports', hstate'⟩ := hruns'.state
  exact ⟨hruns'.verdict.trans hruns.verdict, hruns'.outcome.trans hruns.outcome, log', reports',
    by rw [hstate', hstate]⟩

/-- Whether the chunk of an expression can be loaded shows in the verdict on it. -/
theorem isScript_returning_iff (hi : h.interpreter = some i) (hname : ¬ Interpreter.HoldsZero h.config.chunkName)
    (e : String) :
    Lua.IsScript (h.returning e).toUTF8 ↔ ∀ error, h.verdict? (.expression e) ≠ some (.error .parsing error) := by
  rw [verdict?_expression hi, ← and_iff_left hname (a := Lua.IsScript _), ← i.load_iff, judge]
  rcases i.load h.config.chunkName (h.returning e).toUTF8 with ⟨e | function, j⟩
  · simp
  · rcases hcall : j.takeEvents.2.call function with ⟨values | e | payload, k⟩ <;> simp [hcall]

/-- What runs like an expression that can be loaded can be read. -/
theorem RunsAlike.isReadable {e e' : String} (hruns : h.RunsAlike e e') (hi : h.interpreter = some i)
    (hname : ¬ Interpreter.HoldsZero h.config.chunkName) (hscript : Lua.IsScript (h.returning e).toUTF8) :
    Lua.Lexer.IsReadable (Lua.Lexer.tokens (h.returning e').toUTF8) := by
  refine Lua.IsScript.isReadable ((isScript_returning_iff hi hname e').mpr ?_)
  rw [hruns.verdict]
  exact (isScript_returning_iff hi hname e).mp hscript

theorem isInLine_markComments {cs : List Char} (hcs : ∀ c ∈ cs, Lua.Lexer.IsInLine c) :
    ∀ c ∈ markComments cs, Lua.Lexer.IsInLine c := by
  intro c hc
  obtain hmem | rfl := mem_markComments hc
  · exact hcs c hmem
  · simp [Lua.Lexer.IsInLine]

/-- The beginning and the end of a long bracket stay when a text is marked. -/
theorem isUnmarked_of_mem_bracket {bracket : Char} (hbracket : isUnmarked bracket) (level : Nat) :
    ∀ c ∈ bracket :: (List.replicate level '=' ++ [bracket]), isUnmarked c := by
  intro c hc
  simp only [List.mem_cons, List.mem_append, List.mem_replicate, List.not_mem_nil, or_false] at hc
  obtain rfl | ⟨-, rfl⟩ | rfl := hc
  · exact hbracket
  · decide
  · exact hbracket

section Comments
variable {e m c : String}

theorem prepared_eq_self (hmarker : ¬ HasMarker e.toList) (hplus : ¬ ['+'] <+: e.toList) : h.prepared e = e := by
  unfold prepared
  split
  · exact (prepareExpression_eq_self_iff e).mpr ⟨hmarker, hplus⟩
  · rfl

variable (hp : h.config.prepareExpressions) (hmarker : ¬ HasMarker e.toList) (hplus : ¬ ['+'] <+: e.toList)
include hp hmarker hplus

theorem toList_returning_append (t : String) :
    (h.returning (e ++ " " ++ t)).toUTF8.data.toList =
      (h.returning e).toUTF8.data.toList ++ 32 :: Text.bytes (markComments t.toList) := by
  rw [toList_returning, toList_returning, prepared_eq_self hmarker hplus, prepared, if_pos hp,
    toList_prepareExpression_append hmarker hplus, Text.bytes_append, List.append_assoc]
  rfl

variable (hm : m = "//" ∨ m = "#") (hc : ∀ d ∈ c.toList, Lua.Lexer.IsInLine d)
include hm

theorem toList_returning_comment :
    (h.returning (e ++ " " ++ (m ++ c))).toUTF8.data.toList =
      (h.returning e).toUTF8.data.toList ++ 32 :: 45 :: 45 :: Text.bytes (markComments c.toList) := by
  have hmarker' : m.toList = ['/', '/'] ∨ m.toList = ['#'] := by
    obtain rfl | rfl := hm
    · exact .inl rfl
    · exact .inr rfl
  rw [toList_returning_append hp hmarker hplus, String.toList_append, markComments_marker hmarker']
  rfl

include hc
variable (hi : h.interpreter = some i)
include hi

/-- What belongs to a comment of the expression makes no difference. -/
theorem runsAlike_of_endsInComment (hends : Lua.Lexer.EndsInComment (h.returning e).toUTF8) :
    h.RunsAlike e (e ++ " " ++ (m ++ c)) := by
  refine runsAlike_of_tokens_eq hi (hends _ _ (toList_returning_comment hp hmarker hplus hm) ?_)
  have hbytes := Lua.Lexer.not_isBreak_of_mem_bytes (isInLine_markComments hc)
  exact List.forall_mem_cons.mpr ⟨by decide, List.forall_mem_cons.mpr ⟨by decide, hbytes⟩⟩

variable {line : Nat} (hreads : Lua.Lexer.ReadsFrom (h.returning e).toUTF8 line)
  (hscript : Lua.IsScript (h.returning e).toUTF8)
include hreads hscript

/-- A comment without a long bracket takes up the rest of its line. -/
theorem runsAlike_of_not_opening (hopening : ∀ level, ¬ longOpening level <+: c.toList) :
    h.RunsAlike e (e ++ " " ++ (m ++ c)) := by
  refine runsAlike_of_tokens_eq hi (hreads.tokens_eq Lua.Lexer.apart_nil (Lua.Lexer.apart_cons _)
    (List.append_nil _).symm (toList_returning_comment hp hmarker hplus hm) ?_ hscript.isReadable)
  rw [Lua.Lexer.skip_blank, Lua.Lexer.skip_comment (isInLine_markComments hc) fun level hprefix => ?_]
  · rfl
  · have hunmarked : ∀ d ∈ longOpening level, isUnmarked d := isUnmarked_of_mem_bracket (by decide) level
    exact hopening level ((prefix_markComments_iff hunmarked _).mp hprefix)

/-- After a comment with a long bracket, what follows where that is closed matters. -/
theorem runsAlike_opening_iff (hname : ¬ Interpreter.HoldsZero h.config.chunkName) {level : Nat} {body : List Char}
    (hbody : c.toList = longOpening level ++ body) :
    h.RunsAlike e (e ++ " " ++ (m ++ c)) ↔ ∃ rest, Text.afterFirst? (longClosing level) body = some rest ∧
      h.RunsAlike e (e ++ " " ++ String.ofList rest) := by
  have hbody' : ∀ d ∈ body, Lua.Lexer.IsInLine d := fun d hd => hc d (by simp [hbody, hd])
  have hopening : ∀ d ∈ longOpening level, isUnmarked d := isUnmarked_of_mem_bracket (by decide) level
  have hclosing : ∀ d ∈ longClosing level, isUnmarked d := isUnmarked_of_mem_bracket (by decide) level
  have htext := toList_returning_comment (c := c) hp hmarker hplus hm
  rw [hbody, markComments_unmarked_append hopening] at htext
  have hskip := Lua.Lexer.skip_longComment (isInLine_markComments hbody') level line
  rw [afterFirst?_markComments hclosing (Lua.longClosing_ne_nil level)] at hskip
  obtain ⟨rest', hfirst, hskip⟩ | ⟨hfirst, fault, hfault⟩ := hskip
  -- What is read behind the bracket is what would be read right behind the expression.
  · obtain ⟨rest, hrest, rfl⟩ := Option.map_eq_some_iff.mp hfirst
    rw [← Lua.Lexer.skip_blank, ← Lua.Lexer.skip_blank line (Text.bytes _)] at hskip
    have hbehind := toList_returning_append hp hmarker hplus (String.ofList rest)
    rw [String.toList_ofList] at hbehind
    constructor
    · intro hruns
      refine ⟨rest, hrest, hruns.trans (runsAlike_of_tokens_eq hi ?_)⟩
      exact hreads.tokens_eq (Lua.Lexer.apart_cons _) (Lua.Lexer.apart_cons _) htext hbehind hskip
        (hruns.isReadable hi hname hscript)
    · rintro ⟨rest', hsame, hruns⟩
      obtain rfl : rest = rest' := Option.some.inj (hrest.symm.trans hsame)
      refine hruns.trans (runsAlike_of_tokens_eq hi ?_)
      exact hreads.tokens_eq (Lua.Lexer.apart_cons _) (Lua.Lexer.apart_cons _) hbehind htext hskip.symm
        (hruns.isReadable hi hname hscript)
  -- The end of the text comes before that of the bracket.
  · rw [← Lua.Lexer.skip_blank] at hfault
    rw [Option.map_eq_none_iff.mp hfirst]
    refine iff_of_false (fun hruns => ?_) (by simp)
    exact hreads.not_isReadable (Lua.Lexer.apart_cons _) htext hfault (hruns.isReadable hi hname hscript)

end Comments

/-- An expression with a comment behind it runs like the expression alone, whatever the comment says, unless the text
of the comment begins with a long bracket. Such a bracket is one of the script language also behind its comment marker:
it has to be closed, and what follows then is read again. Only if the expression ends in a comment of its own is all of
that part of it. -/
theorem comment_runs_alike_iff (hr : Reachable h) (hp : h.config.prepareExpressions) {e m c : String}
    (hpair : ¬ ['/', '/'] <:+: e.toList) (hhash : '#' ∉ e.toList) (hplus : ¬ ['+'] <+: e.toList)
    (hloads : h.Loads ("return " ++ e)) (hm : m = "//" ∨ m = "#") (hc : ∀ d ∈ c.toList, d ≠ '\n' ∧ d ≠ '\r') :
    h.RunsAlike e (e ++ " " ++ m ++ c) ↔
      Lua.Lexer.EndsInComment ("return " ++ e).toUTF8 ∨
        ∀ level body, c.toList = longOpening level ++ body →
          ∃ rest, Text.afterFirst? (longClosing level) body = some rest ∧
            h.RunsAlike e (e ++ " " ++ String.ofList rest) := by
  obtain ⟨i, hi⟩ := Option.isSome_iff_exists.mp hr.interpreter_isSome
  have hmarker : ¬ HasMarker e.toList := not_or.mpr ⟨hpair, hhash⟩
  have hreturning : h.returning e = "return " ++ e := by rw [returning, prepared_eq_self hmarker hplus]
  obtain ⟨hscript, hname⟩ := (loads_iff hi).mp hloads
  rw [← hreturning] at hscript ⊢
  rw [String.append_assoc]
  obtain hends | ⟨line, hreads⟩ := Lua.Lexer.endsInComment_or_readsFrom hscript.isReadable
  · exact iff_of_true (runsAlike_of_endsInComment hp hmarker hplus hm hc hi hends) (.inl hends)
  constructor
  · intro hruns
    exact .inr fun level body hbody =>
      (runsAlike_opening_iff hp hmarker hplus hm hc hi hreads hscript hname hbody).mp hruns
  · rintro (hends | hlong)
    · exact runsAlike_of_endsInComment hp hmarker hplus hm hc hi hends
    · by_cases hopening : ∃ level, longOpening level <+: c.toList
      · obtain ⟨level, body, hbody⟩ := hopening
        exact (runsAlike_opening_iff hp hmarker hplus hm hc hi hreads hscript hname hbody.symm).mpr
          (hlong level body hbody.symm)
      · exact runsAlike_of_not_opening hp hmarker hplus hm hc hi hreads hscript (not_exists.mp hopening)

theorem loads_one : rewriting.Loads ("return " ++ "1") := by
  obtain ⟨i, hi⟩ := Option.isSome_iff_exists.mp reachable_rewriting.interpreter_isSome
  exact (loads_iff hi).mpr ⟨by decide +kernel, by decide +kernel⟩

/-- A blank in front of it makes the bracket part of the comment. -/
theorem comment_runs_alike_iff_blank :
    Reachable rewriting ∧ rewriting.config.prepareExpressions ∧ rewriting.Loads ("return " ++ "1") ∧
      rewriting.RunsAlike "1" ("1" ++ " " ++ "//" ++ " [[ # x") := by
  refine ⟨reachable_rewriting, rfl, loads_one, ?_⟩
  have hline : ∀ d ∈ " [[ # x".toList, d ≠ '\n' ∧ d ≠ '\r' := by simp
  refine (comment_runs_alike_iff reachable_rewriting rfl (by decide) (by decide) (by decide) loads_one (.inl rfl)
    hline).mpr (.inr fun level body hbody => ?_)
  exact absurd (List.cons.inj hbody).1 (by decide)

/-- A bracket that is not closed makes the expression one that cannot be loaded, and what follows one that is closed
belongs to the expression. -/
theorem comment_in_bracket_not_alike :
    Reachable rewriting ∧ rewriting.config.prepareExpressions ∧ rewriting.Loads ("return " ++ "1") ∧
      ¬ rewriting.RunsAlike "1" ("1" ++ " " ++ "//" ++ "[[ x") ∧
      (rewriting.answer (.run (.expression "1"))).1.toOption = some (.truth true) ∧
      (rewriting.answer (.run (.expression "1 //[[ x"))).1.toOption = some (.truth false) ∧
      ((rewriting.answer (.run (.expression "1"))).2.stack matches [.int 1]) ∧
      ((rewriting.answer (.run (.expression "1 //[[ x]] + 1"))).2.stack matches [.int 2]) := by
  have hone : (rewriting.answer (.run (.expression "1"))).1.toOption = some (.truth true) := by decide +kernel
  have hrefused : (rewriting.answer (.run (.expression "1 //[[ x"))).1.toOption = some (.truth false) := by
    decide +kernel
  refine ⟨reachable_rewriting, rfl, loads_one, fun hruns => ?_, hone, hrefused, by decide +kernel, by decide +kernel⟩
  have houtcome := hruns.outcome
  rw [show "1" ++ " " ++ "//" ++ "[[ x" = "1 //[[ x" by decide] at houtcome
  rw [houtcome, hone] at hrefused
  cases hrefused

end Host
end ScriptHost
