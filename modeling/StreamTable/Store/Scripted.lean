import StreamTable.Store.Backend
import StreamTable.Store.EqualityFilter

/-!
# Scripted stores

A store for trying out tables.  It can be told what to answer to a query and which requests to
refuse.  In memory mode it also keeps documents and answers queries with an equality filter itself;
otherwise it accepts every request and finds nothing.
-/

namespace StreamTable

/-- Requests that are refused, by what identifies them. -/
abbrev Faults (κ : Type) := List (κ × BackendError)

namespace Faults

/-- Refuse a request from now on, or do not refuse it any more. -/
def set {κ : Type} [BEq κ] (faults : Faults κ) (key : κ) (error : Option BackendError) : Faults κ :=
  let others := faults.filter fun f => !(f.1 == key)
  match error with
  | some e => (key, e) :: others
  | none => others

/-- Change the refusal of some requests. -/
def setAll {κ : Type} [BEq κ] (faults : Faults κ) (changes : List (κ × Option BackendError)) :
    Faults κ :=
  changes.foldl (fun faults (key, error) => faults.set key error) faults

end Faults

/-- A store for trying out tables. -/
structure ScriptedStore where
  /-- The store keeps documents. -/
  memory : Bool := false
  /-- The documents in the order of their creation. -/
  documents : List Document := []
  /-- The answers to queries that are laid down. -/
  responses : List (String × List Document) := []
  /-- The query texts that are refused. -/
  failQueries : Faults String := []
  /-- The creations that are refused, counted from zero over the life of the store. -/
  failCreates : Faults Nat := []
  /-- The addresses of documents that are not replaced. -/
  failReplaces : Faults String := []
  /-- The addresses of documents that are not deleted. -/
  failDeletes : Faults String := []
  /-- The number of creations that were asked for so far. -/
  creations : Nat := 0

/-- Instructions for a scripted store. -/
structure Script where
  /-- Whether the store keeps documents. -/
  memory : Option Bool := none
  /-- Documents that are put into the store. -/
  documents : List Document := []
  /-- Answers to queries. -/
  responses : List (String × List Document) := []
  /-- Query texts to refuse, or not to refuse any more. -/
  failQueries : List (String × Option BackendError) := []
  /-- Creations to refuse, or not to refuse any more. -/
  failCreates : List (Nat × Option BackendError) := []
  /-- Replacements to refuse, or not to refuse any more. -/
  failReplaces : List (String × Option BackendError) := []
  /-- Deletions to refuse, or not to refuse any more. -/
  failDeletes : List (String × Option BackendError) := []

namespace ScriptedStore

/-- Follow instructions. -/
def follow (s : ScriptedStore) (script : Script) : ScriptedStore :=
  { s with
    memory := script.memory.getD s.memory
    documents := s.documents ++ script.documents
    responses := script.responses.reverse ++ s.responses
    failQueries := s.failQueries.setAll script.failQueries
    failCreates := s.failCreates.setAll script.failCreates
    failReplaces := s.failReplaces.setAll script.failReplaces
    failDeletes := s.failDeletes.setAll script.failDeletes }

/-- The error for a filter that the store does not understand. -/
def unsupportedFilter (filter : String) : BackendError :=
  .rejected s!"unsupported filter '{filter}'"

/-- The documents that a query asks the memory for. -/
def search (s : ScriptedStore) (text : String) : Except BackendError (List Document) :=
  match SimpleQuery.read text with
  | .ok q => .ok (q.run s.documents)
  | .error filter => .error (unsupportedFilter filter)

/-- The answer to a query. -/
def query (s : ScriptedStore) (text : String) : Except BackendError (List Document) :=
  match s.failQueries.lookup text with
  | some e => .error e
  | none =>
    match s.responses.lookup text with
    | some documents => .ok documents
    | none => if s.memory then s.search text else .ok []

/-- Put a document into the memory unless its address is taken; having no address counts as one. -/
def insert (s : ScriptedStore) (d : Document) : Except BackendError Unit × ScriptedStore :=
  if s.documents.any (·.id? = d.id?) then (.error (.conflict (d.id?.getD "")), s)
  else (.ok (), { s with documents := s.documents ++ [d] })

/-- Add a document. -/
def create (s : ScriptedStore) (d : Document) : Except BackendError Unit × ScriptedStore :=
  let counted := { s with creations := s.creations + 1 }
  match s.failCreates.lookup s.creations with
  | some e => (.error e, counted)
  | none => if s.memory then counted.insert d else (.ok (), counted)

/-- Put a document in the place of the first one of an address. -/
def replaceFirst (id : String) (d : Document) : List Document → List Document
  | [] => []
  | e :: es => if e.id? = some id then d :: es else e :: replaceFirst id d es

/-- A document in memory has the address. -/
def holds (s : ScriptedStore) (id : String) : Bool := s.documents.any (·.id? = some id)

/-- Put a document in the place of the one with its address. -/
def replace (s : ScriptedStore) (d : Document) : Except BackendError Unit × ScriptedStore :=
  match d.id? with
  | none => (.error .missingId, s)
  | some id =>
    match s.failReplaces.lookup id with
    | some e => (.error e, s)
    | none =>
      if !s.memory then (.ok (), s)
      else if s.holds id then (.ok (), { s with documents := replaceFirst id d s.documents })
      else (.error (.notFound id), s)

/-- Remove the documents of an address. -/
def delete (s : ScriptedStore) (id : String) : Except BackendError Unit × ScriptedStore :=
  match s.failDeletes.lookup id with
  | some e => (.error e, s)
  | none =>
    if !s.memory then (.ok (), s)
    else if s.holds id then
      (.ok (), { s with documents := s.documents.filter fun d => !(d.id? = some id : Bool) })
    else (.error (.notFound id), s)

/-- Scripted stores as a backend; a store serves a single container. -/
def backend : Backend ScriptedStore where
  query _ text s := (s.query text, s)
  create _ d s := s.create d
  replace _ d s := s.replace d
  delete _ id s := s.delete id

end ScriptedStore

end StreamTable
