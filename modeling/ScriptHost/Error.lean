/-! What can go wrong on the host's side, and the wording of each case. -/
namespace ScriptHost

inductive FailureKind where
  | notFound
  | permissionDenied
  | other
  deriving DecidableEq, Repr

structure OsFailure where
  kind : FailureKind
  text : String
  deriving DecidableEq, Repr

inductive FileError where
  | notFound
  | permissionDenied
  | other (text : String)
  deriving DecidableEq, Repr

def FileError.ofFailure (failure : OsFailure) : FileError :=
  match failure.kind with
  | .notFound => .notFound
  | .permissionDenied => .permissionDenied
  | .other => .other failure.text

def FileError.message : FileError → String
  | .notFound => "File not found"
  | .permissionDenied => "Permission denied"
  | .other text => "IO error: " ++ text

inductive ConfigError where
  | file (failure : OsFailure)
  | parse (text : String)
  | validation (text : String)
  deriving DecidableEq, Repr

def ConfigError.message : ConfigError → String
  | .file failure => "Config file error: " ++ failure.text
  | .parse text => "Config parse error: " ++ text
  | .validation text => "Config validation error: " ++ text

/-- Errors that an operation of the host returns. Errors of scripts are reported and do not show here
unless the interpreter can no longer be trusted. -/
inductive HostError where
  | initialization (text : String)
  | panic (text : String)
  | fatal (text : String)
  | functionResult
  | stackPrecondition (text : String)
  | config (error : ConfigError)
  deriving DecidableEq, Repr

def HostError.message : HostError → String
  | .initialization text => "Lua initialization error: " ++ text
  | .panic text => "Lua panic: " ++ text
  | .fatal text => "Lua fatal error: " ++ text
  | .functionResult => "result is a function; did you forget \"()\"?"
  | .stackPrecondition text => "Lua stack precondition violated: " ++ text
  | .config error => "Config error: " ++ error.message

end ScriptHost
