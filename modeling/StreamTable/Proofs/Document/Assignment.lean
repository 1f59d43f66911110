import StreamTable.Table.Write

/-!
# Assignments to documents

Assigning values to a document and making a document from values can be exchanged
(`Table.assign_ofValues`), as long as the field `id` is not assigned: this is why a row that waits
for its insertion can be updated in memory.  Fields that are not assigned keep their data, the
address among them.
-/

namespace StreamTable

namespace Members

variable {α : Type}

/-- Data are put under different names in any order. -/
theorem insert_comm {j k : String} (h : j ≠ k) (v w : α) (ms : Members α) :
    (ms.insert k w).insert j v = (ms.insert j v).insert k w := by
  have total : j < k ∨ k < j := by
    by_cases lt : j < k
    · exact .inl lt
    · exact .inr (Std.lt_of_le_of_ne (String.not_lt.1 lt) h.symm)
  have irrefl (s : String) : ¬ s < s := String.lt_irrefl s
  have trans {a b c : String} : a < b → b < c → a < c := String.lt_trans
  -- The smaller name comes to stand first or replaces a datum; it never moves the other one.
  induction ms with
  | nil => grind [insert]
  | cons m ms ih =>
    obtain ⟨l, x⟩ := m
    grind [insert]

/-- Values with other values put under some of the names, one after the other. -/
def insertAll (ms : Members α) (ps : List (String × α)) : Members α :=
  ps.foldl (fun ms p => ms.insert p.1 p.2) ms

/-- Data under names fall apart at the last datum of a name. -/
theorem exists_last_of_mem {ps : List (String × α)} {k : String} (h : k ∈ ps.map (·.1)) :
    ∃ before v after, ps = before ++ (k, v) :: after ∧ k ∉ after.map (·.1) := by
  induction ps with
  | nil => cases h
  | cons p ps ih =>
    by_cases later : k ∈ ps.map (·.1)
    · obtain ⟨before, v, after, split, apart⟩ := ih later
      exact ⟨p :: before, v, after, congrArg (p :: ·) split, apart⟩
    · have same : k = p.1 := (List.mem_cons.1 h).resolve_right later
      exact ⟨[], p.2, ps, by rw [same]; rfl, later⟩

theorem insertAll_append (ms : Members α) (ps qs : List (String × α)) :
    ms.insertAll (ps ++ qs) = (ms.insertAll ps).insertAll qs :=
  List.foldl_append

theorem get?_insertAll_of_notMem {ps : List (String × α)} {k : String} (h : k ∉ ps.map (·.1))
    (ms : Members α) : (ms.insertAll ps).get? k = ms.get? k := by
  induction ps generalizing ms with
  | nil => rfl
  | cons p ps ih =>
    obtain ⟨first, rest⟩ : k ≠ p.1 ∧ k ∉ ps.map (·.1) := by simpa using h
    show ((ms.insert p.1 p.2).insertAll ps).get? k = _
    rw [ih rest, get?_insert_of_ne first]

/-- The only pair of a name tells what is under the name afterwards. -/
theorem get?_insertAll_of_mem {ps : List (String × α)} {k : String} {v : α}
    (nodup : (ps.map (·.1)).Nodup) (h : (k, v) ∈ ps) (ms : Members α) :
    (ms.insertAll ps).get? k = some v := by
  induction ps generalizing ms with
  | nil => cases h
  | cons p ps ih =>
    obtain ⟨apart, nodup⟩ := List.nodup_cons.1 nodup
    show ((ms.insert p.1 p.2).insertAll ps).get? k = _
    rcases List.mem_cons.1 h with rfl | h
    · rw [get?_insertAll_of_notMem apart, get?_insert_self]
    · exact ih nodup h _

end Members

namespace Document

theorem storedFields_insert (values : Values) (name : String) (v : Value) :
    storedFields (values.insert name v) = (storedFields values).insert name v.toJson := by
  induction values with
  | nil => rfl
  | cons m values ih =>
    obtain ⟨k, x⟩ := m
    simp only [Members.insert, storedFields, List.map_cons]
    split
    · rfl
    · split
      · rfl
      · exact congrArg ((k, x.toJson) :: ·) ih

theorem get?_storedFields (values : Values) (name : String) :
    (storedFields values).get? name = (values.get? name).map Value.toJson := by
  induction values with
  | nil => rfl
  | cons m values ih =>
    obtain ⟨k, x⟩ := m
    show (if name = k then some x.toJson else (storedFields values).get? name) = _
    rw [ih, Members.get?]
    split <;> rfl

variable {name : String} (h : name ≠ idField)

include h

theorem hasId_insert (values : Values) (v : Value) :
    hasId (values.insert name v) = hasId values := by
  rw [hasId, hasId, storedFields_insert, Members.get?_insert_of_ne h.symm]

/-- A field other than the address can be set before or after the document is made. -/
theorem set_ofValues (values : Values) (fresh : String) (v : Value) :
    (ofValues values fresh).set name v = ofValues (values.insert name v) fresh := by
  rw [ofValues, ofValues, hasId_insert h, storedFields_insert]
  split
  · rfl
  · exact congrArg Document.mk (Members.insert_comm h _ _ _)

theorem get?_ofValues (values : Values) (fresh : String) :
    (ofValues values fresh).get? name = (values.get? name).map Value.toJson := by
  rw [← get?_storedFields, ofValues]
  split
  · rfl
  · exact Members.get?_insert_of_ne h _ _

end Document

namespace Table

theorem assign_append (d : Document) (ps qs : List (String × Value)) :
    assign d (ps ++ qs) = assign (assign d ps) qs :=
  List.foldl_append

variable {assignments : List (String × Value)}

theorem get?_assign {name : String} (h : name ∉ assignments.map (·.1)) (d : Document) :
    (assign d assignments).get? name = d.get? name := by
  induction assignments generalizing d with
  | nil => rfl
  | cons a assignments ih =>
    obtain ⟨first, rest⟩ : name ≠ a.1 ∧ name ∉ assignments.map (·.1) := by simpa using h
    show (assign (d.set a.1 a.2) assignments).get? name = _
    rw [ih rest, Document.get?_set_of_ne first]

/-- The last assignment to a field decides what it holds. -/
theorem get?_assign_last {before after : List (String × Value)} {name : String} {v : Value}
    (last : name ∉ after.map (·.1)) (d : Document) :
    (assign d (before ++ (name, v) :: after)).get? name = some v.toJson := by
  rw [assign_append]
  show (assign ((assign d before).set name v) after).get? name = _
  rw [get?_assign last, Document.get?_set_self]

/-- Assignments leave a document at its address. -/
theorem id?_assign (h : Document.idField ∉ assignments.map (·.1)) (d : Document) :
    (assign d assignments).id? = d.id? := by
  rw [Document.id?, get?_assign h, Document.id?]

theorem assign_ofValues (h : Document.idField ∉ assignments.map (·.1)) (values : Values)
    (fresh : String) :
    assign (.ofValues values fresh) assignments =
      .ofValues (values.insertAll assignments) fresh := by
  induction assignments generalizing values with
  | nil => rfl
  | cons a assignments ih =>
    obtain ⟨first, rest⟩ : Document.idField ≠ a.1 ∧ Document.idField ∉ assignments.map (·.1) := by
      simpa using h
    show assign ((Document.ofValues values fresh).set a.1 a.2) assignments = _
    rw [Document.set_ofValues first.symm, ih rest]
    rfl

theorem hasId_insertAll (h : Document.idField ∉ assignments.map (·.1)) (values : Values) :
    Document.hasId (values.insertAll assignments) = Document.hasId values := by
  induction assignments generalizing values with
  | nil => rfl
  | cons a assignments ih =>
    obtain ⟨first, rest⟩ : Document.idField ≠ a.1 ∧ Document.idField ∉ assignments.map (·.1) := by
      simpa using h
    show Document.hasId ((values.insert a.1 a.2).insertAll assignments) = _
    rw [ih rest, Document.hasId_insert first.symm]

end Table

end StreamTable
