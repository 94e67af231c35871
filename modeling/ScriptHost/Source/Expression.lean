/-! Expressions in the style of configuration files: comment markers and a leading plus sign are rewritten
so that the script language can read them. -/
namespace ScriptHost.Source

def commentMarker : List Char := ['-', '-']

/-- Replaces each two adjacent characters `a`, `b`, from the left. -/
def replacePair (a b : Char) (new : List Char) : List Char → List Char
  | [] => []
  | [c] => [c]
  | c :: d :: rest =>
    if c == a && d == b then new ++ replacePair a b new rest
    else c :: replacePair a b new (d :: rest)

def replaceEach (a : Char) (new : List Char) : List Char → List Char
  | [] => []
  | c :: rest => (if c == a then new else [c]) ++ replaceEach a new rest

def dropPlus : List Char → List Char
  | '+' :: rest => rest
  | cs => cs

/-- First the double slashes become comment markers, then the hashes, and then one plus sign in front is
dropped. -/
def prepareChars (cs : List Char) : List Char :=
  dropPlus (replaceEach '#' commentMarker (replacePair '/' '/' commentMarker cs))

def prepareExpression (expression : String) : String :=
  String.ofList (prepareChars expression.toList)

/-- One pass from the left: two slashes or a hash become a comment marker, and all else stays. -/
def markComments : List Char → List Char
  | [] => []
  | [c] => if c == '#' then commentMarker else [c]
  | c :: d :: rest =>
    if c == '/' && d == '/' then commentMarker ++ markComments rest
    else if c == '#' then commentMarker ++ markComments (d :: rest)
    else c :: markComments (d :: rest)

end ScriptHost.Source
