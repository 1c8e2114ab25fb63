import ContentSchema.External.Load

/-!
# Names to take and to leave out

Which tables of a file count.  By what the two lists of names mean, a table counts or not by its name
alone (`Table.counts`).  The filter takes a list without names for one that is not there
(`filterTables_eq_filter`), which makes no difference to the names to leave out.  To those to take it
does: none of the tables should count, and all do (`filterTables_eq_filter_iff`).
-/

namespace ContentSchema

variable {tables : List Table} {taken leftOut : Option (List String)}

/-- Whether the table has one of the names to take, if such a list is there, and none of those to
leave out, if such a list is there. -/
def Table.counts (taken leftOut : Option (List String)) (t : Table) : Bool :=
  taken.all (·.contains t.name) && leftOut.all fun names => !names.contains t.name

/-- A list of names that has names in it. -/
def listed? (names : Option (List String)) : Option (List String) := names.filter (!·.isEmpty)

theorem listed?_of_ne_some_nil {names : Option (List String)} (h : names ≠ some []) :
    listed? names = names := by
  cases names with
  | none => rfl
  | some names =>
    cases names with
    | nil => exact absurd rfl h
    | cons name names => rfl

/-- A filter by a list of names that is passed over if it holds none. -/
theorem filter_listed (p : List String → Table → Bool) (names : Option (List String))
    (tables : List Table) :
    (match names with
      | some names => if names.isEmpty then tables else tables.filter (p names)
      | none => tables) = tables.filter fun t => (listed? names).all (p · t) := by
  cases names with
  | none => exact (List.filter_eq_self.2 fun _ _ => rfl).symm
  | some names =>
    cases names with
    | nil => exact (List.filter_eq_self.2 fun _ _ => rfl).symm
    | cons name names => rfl

/-- The filter keeps the tables that count once a list without names to take is passed over. -/
theorem filterTables_eq_filter (tables : List Table) (taken leftOut : Option (List String)) :
    filterTables tables taken leftOut = tables.filter (Table.counts (listed? taken) leftOut) := by
  -- no name is in an empty list, so that it leaves nothing out
  have hleft : ∀ t : Table, (listed? leftOut).all (fun names => !names.contains t.name) =
      leftOut.all fun names => !names.contains t.name := by
    intro t
    cases leftOut with
    | none => rfl
    | some names => cases names <;> rfl
  calc filterTables tables taken leftOut
      = (tables.filter fun t => (listed? taken).all (·.contains t.name)).filter fun t =>
          (listed? leftOut).all fun names => !names.contains t.name := by
        rw [← filter_listed (fun names t => names.contains t.name)]
        exact filter_listed (fun names t => !names.contains t.name) leftOut _
    _ = tables.filter (Table.counts (listed? taken) leftOut) := by
        rw [List.filter_filter]
        refine List.filter_congr fun t _ => ?_
        rw [hleft, Bool.and_comm, Table.counts]

/-- Parts of a list are filtered apart. -/
theorem filterTables_append (before after : List Table) :
    filterTables (before ++ after) taken leftOut =
      filterTables before taken leftOut ++ filterTables after taken leftOut := by
  simp only [filterTables_eq_filter, List.filter_append]

/-- What the filter has kept, it keeps. -/
theorem filterTables_filterTables :
    filterTables (filterTables tables taken leftOut) taken leftOut =
      filterTables tables taken leftOut := by
  simp only [filterTables_eq_filter, List.filter_filter, Bool.and_self]

/-- The filter keeps just the tables that count, unless the list of names to take is there without
names and some table is not left out.  In any case parts are filtered apart, and filtering twice is
filtering once. -/
theorem filterTables_eq_filter_iff (taken leftOut : Option (List String)) :
    (∀ tables, filterTables tables taken leftOut = tables.filter (Table.counts taken leftOut) ↔
      (taken = some [] → ∀ t ∈ tables, ∃ names ∈ leftOut, t.name ∈ names)) ∧
    (∀ before after, filterTables (before ++ after) taken leftOut =
      filterTables before taken leftOut ++ filterTables after taken leftOut) ∧
    ∀ tables, filterTables (filterTables tables taken leftOut) taken leftOut =
      filterTables tables taken leftOut := by
  refine ⟨fun tables => ?_, filterTables_append, fun _ => filterTables_filterTables⟩
  rw [filterTables_eq_filter]
  by_cases htaken : taken = some []
  · subst htaken
    -- no table has one of no names, so all have to be left out
    have hnone : tables.filter (Table.counts (some []) leftOut) = [] := by
      simp [List.filter_eq_nil_iff, Table.counts]
    rw [hnone, List.filter_eq_nil_iff]
    cases leftOut with
    | none => simp [Table.counts, listed?]
    | some names => simp [Table.counts, listed?]
  · rw [listed?_of_ne_some_nil htaken]
    simp [htaken]

/-- A table with one column. -/
def userTable : Table := ⟨"User", [.bare "id" "String"], [], [], none⟩

/-- With no name to take, the table is taken. -/
theorem not_filterTables_nothingTaken :
    filterTables [userTable] (some []) none ≠ [userTable].filter (Table.counts (some []) none) := by
  intro h
  obtain ⟨names, hnames, -⟩ :=
    ((filterTables_eq_filter_iff (some []) none).1 [userTable]).1 h rfl userTable
      List.mem_cons_self
  cases hnames

end ContentSchema
