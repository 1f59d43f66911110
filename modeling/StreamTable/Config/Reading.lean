import StreamTable.Config.Basic
import StreamTable.Json.Printer
import StreamTable.Json.Record
import StreamTable.Toml.Document

/-!
# Reading store settings

Settings are read from JSON, or from the table `store` of a TOML document that has no other entry.
Both formats admit the settings by name, none of them twice and none besides, and as a sequence in
their order.  Settings of a TOML document are checked, those of a JSON text are taken as they are.
-/

namespace StreamTable.StoreConfig

/-- The settings of four texts, of which only the last one may be absent. -/
def ofFields? : List (Option String) → Option StoreConfig
  | [some uri, some accessKey, some database, collectionName] =>
    some ⟨uri, accessKey, database, collectionName⟩
  | _ => none

/-- The text of a field that is present. -/
def requiredText? : Option Json.Tree → Option (Option String)
  | none => some none
  | some t => t.text?.map some

/-- The text of a field that may be null. -/
def nullableText? : Option Json.Tree → Option (Option String)
  | some .null => some none
  | field => requiredText? field

/-- Read settings from a JSON tree. -/
def ofTree? (t : Json.Tree) : Option StoreConfig :=
  match t.fields? fieldNames true with
  | some [uri, accessKey, database, collectionName] => do
    ofFields? [← requiredText? uri, ← requiredText? accessKey, ← requiredText? database,
      ← nullableText? collectionName]
  | _ => none

/-- Read settings from a JSON text. -/
def readJson? (s : String) : Option StoreConfig := do ofTree? (← Json.Tree.read? s)

/-- The written form of settings. -/
def toJson (c : StoreConfig) : Json :=
  .object [("uri", .string c.uri), ("access_key", .string c.accessKey),
    ("database", .string c.database),
    ("collection_name", (c.collectionName.map Json.string).getD .null)]

/-- The text of a TOML field, if it is present. -/
def tomlText? : Option Toml.Value → Option (Option String)
  | none => some none
  | some (.text s) => some (some s)
  | some _ => none

/-- The fields of a TOML datum that holds settings.  A sequence may have further items, which are
not looked at. -/
def tomlFields? : Toml.Value → Option (List (Option Toml.Value))
  | .table _ es => Record.select? fieldNames true es
  | .array xs => some (Record.padded fieldNames xs)
  | .text _ | .scalar _ => none

/-- Read settings from the root table of a TOML document. -/
def ofToml? : Toml.Entries → Option StoreConfig
  | [("store", v)] => do ofFields? (← (← tomlFields? v).mapM tomlText?)
  | _ => none

/-- Read settings from a TOML document and check them. -/
def readToml (s : String) : Except ConfigError StoreConfig := do
  let some c := (Toml.read? s).bind ofToml? | throw .unreadable
  c.validate
  return c

end StreamTable.StoreConfig
