import ScriptHost.Source.Expression
/-! Comment markers of expressions. Two replacements, each of the whole text, come to one pass over it from the left:
what the one puts in is nothing to the other. -/
namespace ScriptHost.Source

theorem replaceEach_commentMarker_append (cs : List Char) :
    replaceEach '#' commentMarker (commentMarker ++ cs) = commentMarker ++ replaceEach '#' commentMarker cs := rfl

/-- Both replacements together are one pass. -/
theorem replaceEach_replacePair_eq_markComments (cs : List Char) :
    replaceEach '#' commentMarker (replacePair '/' '/' commentMarker cs) = markComments cs := by
  fun_induction markComments cs with
  | case1 => rfl
  | case2 c heq => simp [replacePair, replaceEach, heq]
  | case3 c hne => simp [replacePair, replaceEach, hne]
  | case4 c d rest heq ih => rw [replacePair, if_pos heq, replaceEach_commentMarker_append, ih]
  | case5 c d rest hne heq ih => rw [replacePair, if_neg hne, replaceEach, if_pos heq, ih]
  | case6 c d rest hne hne' ih => rw [replacePair, if_neg hne, replaceEach, if_neg hne', ih, List.singleton_append]

/-- The pass goes through two parts of a text one after the other, unless a pair of slashes lies across them. -/
theorem markComments_append {before after : List Char}
    (h : before.getLast? = some '/' → after.head? ≠ some '/') :
    markComments (before ++ after) = markComments before ++ markComments after := by
  fun_induction markComments before with
  | case1 => rfl
  | case2 c heq =>
    cases after with
    | nil => simp [markComments, heq]
    | cons d rest =>
      have hhash : c = '#' := by simpa using heq
      simp [markComments, hhash]
  | case3 c hne =>
    cases after with
    | nil => simp [markComments, hne]
    | cons d rest =>
      have hpair : ¬ (c == '/' && d == '/') := by simpa using h
      simp [markComments, hne, hpair]
  | case4 c d rest heq ih =>
    have hrest : rest.getLast? = some '/' → after.head? ≠ some '/' := by
      intro hlast
      refine h ?_
      cases rest with
      | nil => cases hlast
      | cons e tail => rwa [List.getLast?_cons_cons, List.getLast?_cons_cons]
    rw [List.cons_append, List.cons_append, markComments, if_pos heq, ih hrest, List.append_assoc]
  | case5 c d rest hne heq ih =>
    rw [List.getLast?_cons_cons] at h
    rw [List.cons_append, List.cons_append, markComments, if_neg hne, if_pos heq, ← List.cons_append, ih h,
      List.append_assoc]
  | case6 c d rest hne hne' ih =>
    rw [List.getLast?_cons_cons] at h
    rw [List.cons_append, List.cons_append, markComments, if_neg hne, if_neg hne', ← List.cons_append, ih h,
      List.cons_append]

/-- Whether a character is part of no comment marker, neither before nor after the rewriting. -/
def isUnmarked (c : Char) : Bool := c != '/' && c != '#' && c != '-'

end ScriptHost.Source
