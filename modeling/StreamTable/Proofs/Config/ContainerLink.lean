import StreamTable.Config.Basic
import StreamTable.Proofs.Text.Replace
import StreamTable.Text.Split

/-!
# Paths of collections

The path of a collection names the database and the collection between slashes, except that the mark
of the collection is filled in the name of the database as well (`StoreConfig.containerLink_eq`).
Where that name keeps (`StoreConfig.KeepsDatabase`), the path tells both names, because the name of
a collection has no slash: different names never share a path
(`StoreConfig.containerLink_injective`).

A database that has the mark in its name can share the path of another database
(`StoreConfig.containerLink_marked`).
-/

namespace StreamTable.StoreConfig

open Text (replaceAll replaceAll_pattern replaceFrom replaceFrom_append_cons
  replaceFrom_of_notInfix)

/-- The path of a collection with the names as they are. -/
def path (database collection : String) : String :=
  "/dbs/" ++ database ++ "/colls/" ++ collection

/-- The name of the database is not changed by the name of the collection: it does not have the mark
in it, or the collection is called like the mark. -/
def KeepsDatabase (c : StoreConfig) (collection : String) : Prop :=
  ¬ collectionMark.toList <:+: c.database.toList ∨ collection = collectionMark

/-! ### The text of a path -/

theorem toList_path (database collection : String) :
    (path database collection).toList =
      "/dbs".toList ++ '/' :: (database.toList ++ '/' :: ("colls".toList ++ '/' ::
        collection.toList)) := by
  simp [path]

/-- A mark without a slash is filled in both names, each on its own. -/
theorem replaceAll_path {mark : String} (nonempty : mark ≠ "") (slash : '/' ∉ mark.toList)
    (fixed : ¬ mark.toList <:+: "/dbs".toList ∧ ¬ mark.toList <:+: "colls".toList)
    (new database collection : String) :
    replaceAll mark new (path database collection) =
      path (replaceAll mark new database) (replaceAll mark new collection) := by
  have hm : mark.toList ≠ [] := fun h => nonempty (String.toList_eq_nil_iff.1 h)
  -- No occurrence of the mark goes over a slash, so the parts between slashes are replaced in alone.
  have divided (cs ds : List Char) : replaceFrom mark.toList new.toList 0 (cs ++ '/' :: ds) = _ :=
    replaceFrom_append_cons hm slash (Nat.zero_le cs.length) ds
  have text (s : String) : (replaceAll mark new s).toList =
      replaceFrom mark.toList new.toList 0 s.toList := String.toList_ofList
  rw [← String.toList_inj, text, toList_path, toList_path, divided, divided, divided, text, text,
    replaceFrom_of_notInfix fixed.1, replaceFrom_of_notInfix fixed.2]

/-- The name of the collection is put in the place of its mark, wherever that stands. -/
theorem containerLink_eq (c : StoreConfig) (collection : String) :
    c.containerLink collection =
      path (replaceAll collectionMark collection c.database) collection := by
  -- The first replacement leaves the mark that the second one looks for.
  have noDatabaseMark : replaceAll databaseMark c.database collectionMark = collectionMark :=
    (Text.replaceAll_eq_self_iff (by decide)).2 (.inl (by decide))
  have database : replaceAll databaseMark c.database linkPattern =
      path c.database collectionMark := by
    have pattern : linkPattern = path databaseMark collectionMark := by decide
    rw [pattern, replaceAll_path (by decide) (by decide) (by decide), noDatabaseMark,
      replaceAll_pattern (by decide)]
  rw [containerLink, database, replaceAll_path (by decide) (by decide) (by decide),
    replaceAll_pattern (by decide)]

/-! ### Different names -/

theorem notMem_of_checkCollection {name : String} (h : checkCollection name = .ok ()) {c : Char}
    (hc : c ∈ forbiddenChars) : c ∉ name.toList := by
  intro hn
  have refused : (Text.isBlankText name || name.toList.any forbiddenChars.contains) = true := by
    rw [Bool.or_eq_true, List.any_eq_true]
    exact .inr ⟨c, hn, List.contains_iff_mem.2 hc⟩
  rw [checkCollection, if_pos refused] at h
  cases h

theorem checkCollection_of_collectionFor {c : StoreConfig} {table collection : String}
    (h : c.collectionFor table = .ok collection) : checkCollection collection = .ok () := by
  simp only [collectionFor] at h
  cases hc : checkCollection (c.collectionName.getD table) with
  | error e =>
    rw [hc] at h
    cases h
  | ok u =>
    rw [hc] at h
    cases h
    exact hc

/-- The name of a collection without a slash is what stands after the last slash of its path. -/
theorem path_inj {database database' collection collection' : String}
    (h : '/' ∉ collection.toList) (h' : '/' ∉ collection'.toList)
    (same : path database collection = path database' collection') :
    database = database' ∧ collection = collection' := by
  have text (database collection : String) : (path database collection).toList =
      ("/dbs/".toList ++ database.toList ++ "/colls".toList) ++ '/' :: collection.toList := by
    simp [path]
  rw [← String.toList_inj, text, text] at same
  -- The database may have slashes in its name, the collection has none: the last slash divides them.
  have last := congrArg (Text.afterLast '/') same
  rw [Text.afterLast_append_cons h, Text.afterLast_append_cons h'] at last
  rw [last] at same
  have first := List.append_cancel_left (List.append_cancel_right (List.append_cancel_right same))
  exact ⟨String.toList_inj.1 first, String.toList_inj.1 last⟩

theorem containerLink_eq_path_iff {c : StoreConfig} {collection : String} :
    c.containerLink collection = path c.database collection ↔ c.KeepsDatabase collection := by
  have kept : replaceAll collectionMark collection c.database = c.database ↔
      c.KeepsDatabase collection := Text.replaceAll_eq_self_iff (by decide)
  rw [containerLink_eq, ← kept]
  constructor
  · intro same
    have texts := String.toList_inj.2 same
    rw [toList_path, toList_path] at texts
    have tail := List.cons.inj (List.append_cancel_left texts)
    exact String.toList_inj.1 (List.append_cancel_right tail.2)
  · intro same
    rw [same]

/-- The path of a collection is made of the names as they are just if the name of the database
keeps.  Then collections of different names, or in databases of different names, have different
paths. -/
theorem containerLink_injective {c c' : StoreConfig} {table table' collection collection' : String}
    (named : c.collectionFor table = .ok collection)
    (named' : c'.collectionFor table' = .ok collection') :
    (c.containerLink collection = path c.database collection ↔ c.KeepsDatabase collection) ∧
      (c.KeepsDatabase collection → c'.KeepsDatabase collection' →
        c.containerLink collection = c'.containerLink collection' →
          c.database = c'.database ∧ collection = collection') := by
  refine ⟨containerLink_eq_path_iff, fun keeps keeps' same => ?_⟩
  rw [containerLink_eq_path_iff.2 keeps, containerLink_eq_path_iff.2 keeps'] at same
  have slash : '/' ∈ forbiddenChars := by decide
  exact path_inj (notMem_of_checkCollection (checkCollection_of_collectionFor named) slash)
    (notMem_of_checkCollection (checkCollection_of_collectionFor named') slash) same

/-- Settings for a database. -/
def ofDatabase (database : String) : StoreConfig :=
  { uri := "https://localhost:8081", accessKey := "secret", database }

/-- A name with slashes is not taken for the names of a database and a collection. -/
theorem containerLink_injective_slashes :
    (ofDatabase "stocks/colls/trades").collectionFor "trades" = .ok "trades" ∧
      (ofDatabase "stocks").collectionFor "trades" = .ok "trades" ∧
      (ofDatabase "stocks/colls/trades").containerLink "trades" =
        path "stocks/colls/trades" "trades" ∧
      (ofDatabase "stocks/colls/trades").containerLink "trades" ≠
        (ofDatabase "stocks").containerLink "trades" := by
  have named : (ofDatabase "stocks/colls/trades").collectionFor "trades" = .ok "trades" := rfl
  have named' : (ofDatabase "stocks").collectionFor "trades" = .ok "trades" := rfl
  have keeps : (ofDatabase "stocks/colls/trades").KeepsDatabase "trades" := .inl (by decide)
  have keeps' : (ofDatabase "stocks").KeepsDatabase "trades" := .inl (by decide)
  obtain ⟨text, injective⟩ := containerLink_injective named named'
  refine ⟨named, named', text.2 keeps, fun same => ?_⟩
  have databases : "stocks/colls/trades" = "stocks" := (injective keeps keeps' same).1
  revert databases
  decide

/-- Settings whose database has the mark of the collection in its name. -/
def marked : StoreConfig := ofDatabase ("stocks-" ++ collectionMark)

/-- The mark is filled with the name of the collection, and the path is then that of a collection in
another database. -/
theorem containerLink_marked :
    marked.validate = .ok () ∧ marked.collectionFor "trades" = .ok "trades" ∧
      (ofDatabase "stocks-trades").validate = .ok () ∧
      (ofDatabase "stocks-trades").collectionFor "trades" = .ok "trades" ∧
      marked.containerLink "trades" ≠ path marked.database "trades" ∧
      marked.database ≠ "stocks-trades" ∧
      marked.containerLink "trades" = (ofDatabase "stocks-trades").containerLink "trades" := by
  have link : marked.containerLink "trades" = "/dbs/stocks-trades/colls/trades" := by
    rw [containerLink_eq]
    decide
  have link' : (ofDatabase "stocks-trades").containerLink "trades" =
      "/dbs/stocks-trades/colls/trades" := by
    rw [containerLink_eq]
    decide
  have apart : "/dbs/stocks-trades/colls/trades" ≠ path marked.database "trades" := by decide
  refine ⟨rfl, rfl, rfl, rfl, ?_, by decide, link.trans link'.symm⟩
  rw [link]
  exact apart

end StreamTable.StoreConfig
