import StreamTable.Condition.Compile
import StreamTable.Condition.Resolve
import StreamTable.Definition
import StreamTable.Selection.Compile
import StreamTable.Table.Operation

/-!
# Document tables

A table is a definition bound to one container of a store.  `Table.connect` checks that the name of
the table can stand in a query and that the settings can be used.  Expressions and selections are
compiled for the table before they are used; each success is reported.
-/

namespace StreamTable

/-- A table whose documents are in a store with states `σ`. -/
structure Table (σ : Type) where
  /-- The name and the schema. -/
  definition : TableDefinition
  /-- The name of the collection. -/
  collection : String
  /-- The path of the collection in the store. -/
  container : String
  /-- The store. -/
  backend : Backend σ
  /-- The identifiers that are generated for documents, one after the other. -/
  freshIds : Nat → String

/-- An assignment of an update: the attribute, and the compiled value it gets. -/
structure SetClause where
  /-- The name of the attribute. -/
  name : String
  /-- The value. -/
  value : CompiledCondition

namespace SetClause

/-- The attributes with their values, for some runtime values. -/
def evaluate (clauses : List SetClause) (values : Values) :
    Except BindError (List (String × Value)) :=
  clauses.mapM fun c => do return (c.name, ← c.value.scalar values)

end SetClause

namespace Table

variable {σ : Type}

/-- The name of the table. -/
def id (t : Table σ) : String := t.definition.id

/-- The attributes of the table. -/
def schema (t : Table σ) : Schema := t.definition.schema

/-- Bind a definition to a store. -/
def connect (definition : TableDefinition) (config : StoreConfig) (backend : Backend σ)
    (freshIds : Nat → String) : Except TableError (Table σ) := do
  (checkIdentifier definition.id).mapError .compile
  config.validate.mapError .config
  let collection ← (config.collectionFor definition.id).mapError .config
  return {
    definition, collection, backend, freshIds
    container := config.containerLink collection }

/-! ### Compilation -/

/-- Report a successful compilation. -/
def reportCompiled {α : Type} (t : Table σ) (kind : CompileKind) :
    Except CompileError α → Operation σ (Except TableError α)
  | .error e => return .error (.compile e)
  | .ok a => do
    .emit (.compiled kind t.id)
    return .ok a

/-- Compile a condition on the records of the table. -/
def compileCondition (t : Table σ) (e : Expr) : Operation σ (Except TableError CompiledCondition) :=
  t.reportCompiled .condition (compile t.id .condition e)

/-- Compile the value of an attribute of the table. -/
def setClause (t : Table σ) (name : String) (e : Expr) : Except CompileError SetClause :=
  if (t.schema.attribute? name).isNone then .error (.unknownAttribute name)
  else do return ⟨name, ← compile t.id .setAttribute e⟩

/-- Compile an assignment to an attribute of the table. -/
def compileSetAttribute (t : Table σ) (name : String) (e : Expr) :
    Operation σ (Except TableError SetClause) :=
  t.reportCompiled .setAttribute (t.setClause name e)

/-- Compile a selection from the table. -/
def compileSelection (t : Table σ) (s : Selection) :
    Operation σ (Except TableError CompiledSelection) :=
  t.reportCompiled .selection (s.compile t.id)

end Table

end StreamTable
