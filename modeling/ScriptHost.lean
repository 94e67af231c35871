import ScriptHost.Config.Json.Reader
import ScriptHost.Config.Json.Writer
import ScriptHost.Config.Toml.Reader
import ScriptHost.Config.Toml.Writer
import ScriptHost.Proofs.Panic
import ScriptHost.Proofs.Report
import ScriptHost.Proofs.Stack
import ScriptHost.Proofs.Change
import ScriptHost.Proofs.Function
import ScriptHost.Proofs.Reset
import ScriptHost.Proofs.Memory.Table
import ScriptHost.Proofs.Memory.Sound
import ScriptHost.Proofs.Memory.Task
import ScriptHost.Proofs.Memory.Operation
import ScriptHost.Proofs.Memory.List
import ScriptHost.Proofs.Memory.Base
import ScriptHost.Proofs.Memory.Math
import ScriptHost.Proofs.Memory.HostCall
import ScriptHost.Proofs.Memory.Instruction
import ScriptHost.Proofs.Memory.Machine
import ScriptHost.Proofs.Memory.Interpreter
import ScriptHost.Proofs.Memory.Request
import ScriptHost.Proofs.Ownership
import ScriptHost.Proofs.Surfacing
import ScriptHost.Proofs.Fatal
import ScriptHost.Proofs.Quoting
import ScriptHost.Proofs.Globals
import ScriptHost.Proofs.Binding
import ScriptHost.Proofs.Identifier
import ScriptHost.Proofs.ReturnedGlobal
import ScriptHost.Proofs.RoundTrip
import ScriptHost.Proofs.Decoding
import ScriptHost.Proofs.ScriptFile
import ScriptHost.Proofs.Preparing
import ScriptHost.Proofs.Json.Reading
import ScriptHost.Proofs.Json.Spelling
import ScriptHost.Proofs.Json.Object
import ScriptHost.Proofs.Json.Configuration
import ScriptHost.Proofs.Naming.Compiling
import ScriptHost.Proofs.Naming.Reading
import ScriptHost.Proofs.Naming.Expression
import ScriptHost.Proofs.Naming.Statement
import ScriptHost.Proofs.Loading
import ScriptHost.Config.Settings
import ScriptHost.Proofs.Marking
import ScriptHost.Proofs.Assignment
import ScriptHost.Proofs.Json.Value
import ScriptHost.Proofs.Json.Document
import ScriptHost.Proofs.Layering
import ScriptHost.Proofs.Toml.Reading
import ScriptHost.Proofs.Toml.Document
import ScriptHost.Proofs.Toml.Fitting
import ScriptHost.Proofs.Formats
import ScriptHost.Proofs.NormalForm
import ScriptHost.Proofs.FailedLoad
import ScriptHost.Proofs.Rounding
import ScriptHost.Proofs.Peeking
import ScriptHost.Proofs.Lexing.Spacing
import ScriptHost.Proofs.Lexing.Literal
import ScriptHost.Proofs.Lexing.Token
import ScriptHost.Proofs.Lexing.Sequence
import ScriptHost.Proofs.Lexing.Comment
import ScriptHost.Proofs.Parsing.Basic
import ScriptHost.Proofs.Parsing.Expression
import ScriptHost.Proofs.Parsing.Statement
import ScriptHost.Proofs.Commenting
import ScriptHost.Proofs.Addressing
import ScriptHost.Proofs.Stacking
import ScriptHost.Proofs.Decimal
import ScriptHost.Proofs.Coercing
import ScriptHost.Proofs.Truth
import ScriptHost.Recording
import ScriptHost.Proofs.Texts
import ScriptHost.Proofs.Recording.Family
import ScriptHost.Proofs.Recording.Store
import ScriptHost.Proofs.Recording.Lending
import ScriptHost.Proofs.Recording.Session
