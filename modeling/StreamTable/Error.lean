import StreamTable.Condition.Error
import StreamTable.Config.Basic
import StreamTable.Store.Backend

/-!
# Errors of table operations

What can go wrong when a table is opened or used.  Every error has a class, which tells what kind of
fault it is, and an origin, which tells where it was found.
-/

namespace StreamTable

/-- The kind of a fault. -/
inductive ErrorClass where
  | compile
  | unsupported
  | binding
  | backend
  | config
  | invariantViolation
  deriving DecidableEq, Repr

namespace ErrorClass

/-- All classes. -/
def all : List ErrorClass :=
  [.compile, .unsupported, .binding, .backend, .config, .invariantViolation]

/-- The name of a class. -/
def name : ErrorClass → String
  | .compile => "compile"
  | .unsupported => "unsupported"
  | .binding => "binding"
  | .backend => "backend"
  | .config => "config"
  | .invariantViolation => "invariant_violation"

end ErrorClass

/-- Where a fault was found. -/
inductive ErrorOrigin where
  | compiler
  | resolver
  | table
  | config
  deriving DecidableEq, Repr

namespace ErrorOrigin

/-- All origins. -/
def all : List ErrorOrigin := [.compiler, .resolver, .table, .config]

/-- The name of an origin. -/
def name : ErrorOrigin → String
  | .compiler => "compiler"
  | .resolver => "resolver"
  | .table => "table"
  | .config => "config"

end ErrorOrigin

/-- The second list of a batch, which has to be as long as the batch. -/
inductive BatchPart where
  /-- The values for the set clauses. -/
  | setValues
  /-- The rows to insert. -/
  | addRows
  deriving DecidableEq, Repr

namespace BatchPart

/-- The name of the list in messages. -/
def name : BatchPart → String
  | .setValues => "set values"
  | .addRows => "add rows"

end BatchPart

/-- What went wrong with a table. -/
inductive TableError where
  /-- An expression or a selection cannot be compiled. -/
  | compile (e : CompileError)
  /-- The runtime values do not fit. -/
  | bind (e : BindError)
  /-- The store refused a request. -/
  | backend (e : BackendError)
  /-- The settings cannot be used. -/
  | config (e : ConfigError)
  /-- The lists of a batch have different lengths. -/
  | batchLength (part : BatchPart) (expected found : Nat)
  /-- A fault that is described by its class, origin and wording only. -/
  | plain (errorClass : ErrorClass) (origin : ErrorOrigin) (message : String)
  deriving DecidableEq, Repr

namespace TableError

/-- The class of an error. -/
def errorClass : TableError → ErrorClass
  | .compile e => if e.isUnsupported then .unsupported else .compile
  | .bind _ => .binding
  | .backend _ => .backend
  | .config _ => .config
  | .batchLength _ _ _ => .invariantViolation
  | .plain errorClass _ _ => errorClass

/-- The origin of an error. -/
def origin : TableError → ErrorOrigin
  | .compile _ => .compiler
  | .bind _ => .resolver
  | .backend _ | .batchLength _ _ _ => .table
  | .config _ => .config
  | .plain _ origin _ => origin

/-- The wording of an error. -/
def message : TableError → String
  | .compile e => e.message
  | .bind e => e.message
  | .backend e => e.message
  | .config e => e.message
  | .batchLength part expected found =>
    s!"batch has {expected} records but {found} {part.name}"
  | .plain _ _ message => message

/-- The wording of the cause, if the error has one. -/
def detail? (e : TableError) : Option String :=
  match e with
  | .compile _ | .bind _ | .backend _ | .config _ => some e.message
  | .batchLength _ _ _ | .plain _ _ _ => none

/-- The error is about runtime values. -/
def isBinding (e : TableError) : Bool := e.errorClass = .binding

/-- The error is about the compilation of an expression or a selection. -/
def isCompile (e : TableError) : Bool := e.errorClass = .compile ∨ e.errorClass = .unsupported

/-- The wording of an error with its origin and class. -/
def display (e : TableError) : String :=
  e.origin.name ++ ":" ++ e.errorClass.name ++ ": " ++ e.message

end TableError

end StreamTable
