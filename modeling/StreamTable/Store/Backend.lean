import StreamTable.Document

/-!
# Document stores

A `Backend σ` is what a table asks of the store that holds its documents, as transitions of the
store's state: it answers a query text with documents, and creates, replaces and deletes single
documents.  Every request names the container that it is about, and every request can fail.
-/

namespace StreamTable

/-- Why a store refuses a request. -/
inductive BackendError where
  /-- There is no document of the address. -/
  | notFound (id : String)
  /-- There is a document of the address already. -/
  | conflict (id : String)
  /-- The document has no address. -/
  | missingId
  /-- The store does not understand the request. -/
  | rejected (message : String)
  /-- The store cannot be reached. -/
  | unavailable (message : String)
  deriving DecidableEq, Repr

namespace BackendError

/-- The wording of a store's error. -/
def message : BackendError → String
  | .notFound id => s!"document '{id}' not found"
  | .conflict id => s!"document '{id}' already exists"
  | .missingId => "document has no '" ++ Document.idField ++ "' field"
  | .rejected message => s!"query rejected: {message}"
  | .unavailable message => s!"backend unavailable: {message}"

end BackendError

/-- A store with states `σ`. -/
structure Backend (σ : Type) where
  /-- The documents that a query text asks for. -/
  query : (container text : String) → σ → Except BackendError (List Document) × σ
  /-- Add a document. -/
  create : (container : String) → Document → σ → Except BackendError Unit × σ
  /-- Put a document in the place of the one with its address. -/
  replace : (container : String) → Document → σ → Except BackendError Unit × σ
  /-- Remove the document of an address. -/
  delete : (container id : String) → σ → Except BackendError Unit × σ

end StreamTable
