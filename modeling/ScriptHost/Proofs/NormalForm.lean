import ScriptHost.Proofs.Marking
/-! Texts that preparing leaves as they are. One pass takes all markers away and brings in no new one, so that only a
second plus sign in front gives another pass something to do. -/
namespace ScriptHost.Source

/-- A text with a comment marker in the style of configuration files. -/
def HasMarker (cs : List Char) : Prop := ['/', '/'] <:+: cs ∨ '#' ∈ cs

theorem HasMarker.of_infix {part cs : List Char} (h : HasMarker part) (hpart : part <:+: cs) : HasMarker cs :=
  h.imp (·.trans hpart) (hpart.subset ·)

theorem markComments_hash (cs : List Char) : markComments ('#' :: cs) = commentMarker ++ markComments cs := by
  cases cs <;> rfl

/-- A character that starts no marker stays where it is. -/
theorem markComments_cons {c : Char} {cs : List Char} (hslash : c = '/' → cs.head? ≠ some '/') (hhash : c ≠ '#') :
    markComments (c :: cs) = c :: markComments cs := by
  have happend := @markComments_append [c] cs (by simpa using hslash)
  have hsingle : markComments [c] = [c] := by simp [markComments, hhash]
  rw [← List.singleton_append, happend, hsingle, List.singleton_append]

/-- Characters that are part of no marker come first in a marked text if they came first before. -/
theorem prefix_markComments_iff {part : List Char} (hpart : ∀ c ∈ part, isUnmarked c) (cs : List Char) :
    part <+: markComments cs ↔ part <+: cs := by
  induction part generalizing cs with
  | nil => simp
  | cons p part ih =>
    obtain ⟨⟨hslash, hhash⟩, hminus⟩ : (p ≠ '/' ∧ p ≠ '#') ∧ p ≠ '-' := by simpa [isUnmarked] using hpart p (by simp)
    fun_cases markComments cs with
    | case1 => simp
    | case2 c heq => simp_all [commentMarker]
    | case3 c hne => simp
    | case4 c d rest heq => simp_all [commentMarker]
    | case5 c d rest hne heq => simp_all [commentMarker]
    | case6 c d rest hne hne' =>
      rw [List.cons_prefix_cons, List.cons_prefix_cons, ih fun c hc => hpart c (List.mem_cons_of_mem p hc)]

/-- No slash comes first that was not there. -/
theorem head?_markComments_ne {cs : List Char} (h : cs.head? ≠ some '/') : (markComments cs).head? ≠ some '/' := by
  fun_cases markComments cs with
  | case1 | case3 => exact h
  | case2 | case4 | case5 => simp [commentMarker]
  | case6 => simpa using h

/-- What has been marked has no marker: neither a part that stays nor a place where two parts meet makes one. -/
theorem not_hasMarker_markComments (cs : List Char) : ¬ HasMarker (markComments cs) := by
  have hmarker {cs : List Char} (h : ¬ HasMarker cs) : ¬ HasMarker (commentMarker ++ cs) := by
    simpa [HasMarker, commentMarker, List.infix_cons_iff] using h
  fun_induction markComments cs with
  | case1 => simp [HasMarker]
  | case2 c heq => simp [HasMarker, commentMarker, List.infix_cons_iff]
  | case3 c hne =>
    have hhash : '#' ≠ c := fun heq => hne (by simp [← heq])
    simp [HasMarker, List.infix_cons_iff, hhash]
  | case4 c d rest heq ih => exact hmarker ih
  | case5 c d rest hne heq ih => exact hmarker ih
  | case6 c d rest hne hne' ih =>
    obtain ⟨hpair, hhash⟩ := not_or.mp ih
    have hc : '#' ≠ c := fun heq => hne' (by simp [← heq])
    refine not_or.mpr ⟨fun hinfix => ?_, List.not_mem_cons_of_ne_of_not_mem hc hhash⟩
    obtain hprefix | hinfix := List.infix_cons_iff.mp hinfix
    · obtain ⟨rfl, hrest⟩ := List.cons_prefix_cons.mp hprefix
      have hd : (d :: rest).head? ≠ some '/' := by simpa using hne
      exact head?_markComments_ne hd (List.singleton_prefix_iff_head?_eq_some.mp hrest)
    · exact hpair hinfix

/-- A text without a marker has nothing to be marked. -/
theorem markComments_eq_self {cs : List Char} (h : ¬ HasMarker cs) : markComments cs = cs := by
  fun_induction markComments cs with
  | case1 => rfl
  | case2 c heq => simp_all [HasMarker]
  | case3 c hne => rfl
  | case4 c d rest heq ih =>
    obtain ⟨rfl, rfl⟩ : c = '/' ∧ d = '/' := by simpa using heq
    exact absurd (.inl (List.prefix_append ['/', '/'] rest).isInfix) h
  | case5 c d rest hne heq ih =>
    obtain rfl : c = '#' := by simpa using heq
    exact absurd (.inr List.mem_cons_self) h
  | case6 c d rest hne hne' ih => rw [ih fun hrest => h (hrest.of_infix (List.infix_cons List.infix_rfl))]

theorem dropPlus_suffix (cs : List Char) : dropPlus cs <:+ cs := by
  unfold dropPlus
  split
  · exact List.suffix_cons _ _
  · exact List.suffix_rfl

theorem dropPlus_eq_self_iff (cs : List Char) : dropPlus cs = cs ↔ ¬ ['+'] <+: cs := by
  unfold dropPlus
  split
  · simp
  · next hplus =>
    refine iff_of_true rfl fun hprefix => ?_
    obtain ⟨rest, rfl⟩ := hprefix
    exact hplus rest rfl

theorem prefix_dropPlus_iff (cs : List Char) : ['+'] <+: dropPlus cs ↔ ['+', '+'] <+: cs := by
  unfold dropPlus
  split
  · simp [List.cons_prefix_cons]
  · next hplus =>
    refine iff_of_false ?_ ?_ <;> rintro ⟨rest, rfl⟩
    · exact hplus rest rfl
    · exact hplus ('+' :: rest) rfl

theorem toList_prepareExpression (expression : String) :
    (prepareExpression expression).toList = dropPlus (markComments expression.toList) := by
  rw [prepareExpression, String.toList_ofList, prepareChars, replaceEach_replacePair_eq_markComments]

theorem not_hasMarker_prepareExpression (expression : String) : ¬ HasMarker (prepareExpression expression).toList := by
  rw [toList_prepareExpression]
  exact fun h => not_hasMarker_markComments _ (h.of_infix (dropPlus_suffix _).isInfix)

theorem prepareExpression_eq_self_iff (expression : String) :
    prepareExpression expression = expression ↔ ¬ HasMarker expression.toList ∧ ¬ ['+'] <+: expression.toList := by
  constructor
  · intro hsame
    have hmarker : ¬ HasMarker expression.toList := hsame ▸ not_hasMarker_prepareExpression expression
    have hlist := toList_prepareExpression expression
    rw [hsame, markComments_eq_self hmarker] at hlist
    exact ⟨hmarker, (dropPlus_eq_self_iff _).mp hlist.symm⟩
  · rintro ⟨hmarker, hplus⟩
    rw [← String.toList_inj, toList_prepareExpression, markComments_eq_self hmarker]
    exact (dropPlus_eq_self_iff _).mpr hplus

/-- A prepared expression has no marker, neither a pair of slashes nor a hash. An expression is left as it is exactly
if it has none and no plus sign in front, and preparing it twice is the same as preparing it once exactly if there are
not two plus signs in front. -/
theorem prepareExpression_normal_form (expression : String) :
    ¬ ['/', '/'] <:+: (prepareExpression expression).toList ∧ '#' ∉ (prepareExpression expression).toList ∧
      (prepareExpression expression = expression ↔
        ¬ ['/', '/'] <:+: expression.toList ∧ '#' ∉ expression.toList ∧ ¬ ['+'] <+: expression.toList) ∧
      (prepareExpression (prepareExpression expression) = prepareExpression expression ↔
        ¬ ['+', '+'] <+: expression.toList) := by
  have hmarker := not_hasMarker_prepareExpression expression
  obtain ⟨hpair, hhash⟩ := not_or.mp hmarker
  refine ⟨hpair, hhash, ?_, ?_⟩
  · rw [prepareExpression_eq_self_iff, HasMarker, not_or, and_assoc]
  · rw [prepareExpression_eq_self_iff, and_iff_right hmarker, toList_prepareExpression, prefix_dropPlus_iff,
      prefix_markComments_iff (by simp [isUnmarked])]

end ScriptHost.Source
