import StreamTable.Text.Blank
import StreamTable.Text.Escaped
import StreamTable.Text.Replace

/-!
# Store settings

How a table reaches the store: the address and the access key of the store, the database, and the
name of the collection that holds the table's documents.  Without a name of its own a table's
collection is named like the table.

`StoreConfig.containerLink` is the path of a collection, and `StoreConfig.shown` shows the settings
without the access key.
-/

namespace StreamTable

/-- The settings that a table needs to reach the store. -/
structure StoreConfig where
  /-- The address of the store. -/
  uri : String
  /-- The access key. -/
  accessKey : String
  /-- The database. -/
  database : String
  /-- The name of the collection, if it is not the table's. -/
  collectionName : Option String := none
  deriving DecidableEq

/-- Why settings cannot be used. -/
inductive ConfigError where
  /-- The text of the settings cannot be read. -/
  | unreadable
  /-- A setting that is needed is blank. -/
  | emptyField (name : String)
  /-- A collection cannot have the name. -/
  | invalidCollection (name : String)
  deriving DecidableEq, Repr

namespace ConfigError

/-- The wording of a configuration error. -/
def message : ConfigError → String
  | .unreadable => "failed to parse store config"
  | .emptyField name => s!"store config field '{name}' must not be empty"
  | .invalidCollection name => s!"invalid collection name '{name}'"

end ConfigError

namespace StoreConfig

/-- The names of the settings in their order. -/
def fieldNames : List String := ["uri", "access_key", "database", "collection_name"]

/-- The characters that the name of a collection cannot have. -/
def forbiddenChars : List Char := ['/', '\\', '?', '#']

/-- Refuse a name that a collection cannot have. -/
def checkCollection (name : String) : Except ConfigError Unit :=
  if Text.isBlankText name || name.toList.any forbiddenChars.contains then
    .error (.invalidCollection name)
  else .ok ()

/-- Refuse a blank setting. -/
def checkField (name value : String) : Except ConfigError Unit :=
  if Text.isBlankText value then .error (.emptyField name) else .ok ()

/-- Refuse settings that cannot be used; the first fault in their order is reported. -/
def validate (c : StoreConfig) : Except ConfigError Unit := do
  checkField "uri" c.uri
  checkField "access_key" c.accessKey
  checkField "database" c.database
  match c.collectionName with
  | some name => checkCollection name
  | none => return

/-- The name of a table's collection. -/
def collectionFor (c : StoreConfig) (table : String) : Except ConfigError String := do
  let name := c.collectionName.getD table
  checkCollection name
  return name

/-- Stands for the database in `linkPattern`. -/
def databaseMark : String := "\x7b\x7bDATABASE\x7d\x7d"

/-- Stands for the collection in `linkPattern`. -/
def collectionMark : String := "\x7b\x7bCOLLECTION\x7d\x7d"

/-- The path of a collection, with marks for the names. -/
def linkPattern : String := "/dbs/" ++ databaseMark ++ "/colls/" ++ collectionMark

/-- The path of a collection in the database.  The name of the database is put in first, so a mark
of the collection in it is filled as well. -/
def containerLink (c : StoreConfig) (collection : String) : String :=
  Text.replaceAll collectionMark collection (Text.replaceAll databaseMark c.database linkPattern)

/-- What is shown in the place of the access key. -/
def redacted : String := "<redacted>"

/-- An optional text as it is shown. -/
def shownOption : Option String → String
  | some s => "Some(" ++ Text.escaped s ++ ")"
  | none => "None"

/-- The settings as they are shown, the access key hidden. -/
def shown (c : StoreConfig) : String :=
  "StoreConfig \x7b uri: " ++ Text.escaped c.uri ++ ", access_key: " ++ Text.escaped redacted
    ++ ", database: " ++ Text.escaped c.database
    ++ ", collection_name: " ++ shownOption c.collectionName ++ " \x7d"

end StoreConfig

end StreamTable
