/-! Errors of scripts as the host sees them, and their texts. -/
namespace ScriptHost.Lua

inductive ScriptError where
  | runtime (text : String)
  | malformed (text : String)
  | memory (text : String)
  | refused (text : String)
  /-- A panic was raised again after it had reached the host. -/
  | spentPanic
  /-- What was being done when the error arose. -/
  | context (text : String) (cause : ScriptError)
  /-- A function of the host failed while a script was calling it. -/
  | callback (traceback : String) (cause : ScriptError)
  deriving DecidableEq, Repr, Inhabited

namespace ScriptError

def innermostTraceback (outer : String) : ScriptError → String
  | .callback traceback cause => innermostTraceback traceback cause
  | _ => outer

def trimEnd (s : String) : String :=
  String.ofList (s.toList.reverse.dropWhile Char.isWhitespace).reverse

def trim (s : String) : String := trimEnd (String.ofList (s.toList.dropWhile Char.isWhitespace))

def tracebackTitle : String := "stack traceback:"

/-- Marks the place in a traceback where another one continues. -/
def markTraceback (full part : String) : String :=
  let part := trim (if part.startsWith tracebackTitle then
    String.ofList (part.toList.drop tracebackTitle.length) else part)
  match full.splitOn part with
  | before :: _ :: _ =>
    before ++ ">" ++ trimEnd (String.ofList (full.toList.drop before.length))
  | _ => trimEnd full

def shownTraceback (traceback : String) : ScriptError → String
  | .callback inner cause => markTraceback (innermostTraceback inner cause) traceback
  | _ => trimEnd traceback

/-- The text of an error. Of nested calls only the outermost shows a traceback. -/
def render (insideCall : Bool) : ScriptError → String
  | .runtime text => "runtime error: " ++ text
  | .malformed text => "syntax error: " ++ text
  | .memory text => "memory error: " ++ text
  | .refused text => "safety error: " ++ text
  | .spentPanic => "previously resumed panic returned again"
  | .context text cause => text ++ "\n" ++ render false cause
  | .callback traceback cause =>
    if insideCall then render true cause
    else render true cause ++ "\n" ++ shownTraceback traceback cause ++ "\n"

def message (e : ScriptError) : String := e.render false

/-- Whether the interpreter can no longer be trusted: a panic came back after it had reached the host. -/
def isFatal : ScriptError → Bool
  | .spentPanic => true
  | .callback _ cause => cause.isFatal
  | .context _ cause => cause.isFatal
  | _ => false

end ScriptError

/-- What a panic of the host carries: a text, or something that is none. -/
structure PanicPayload where
  text : Option String
  deriving DecidableEq, Repr

def PanicPayload.report (payload : PanicPayload) : String := payload.text.getD "unknown panic"

def PanicPayload.shown (payload : PanicPayload) : String := payload.text.getD "<panic>"

inductive Failure where
  | error (e : ScriptError)
  /-- A panic, with its payload until it reaches the host. -/
  | panic (payload : Option PanicPayload)
  deriving DecidableEq, Repr, Inhabited

end ScriptHost.Lua
