import ContentSchema.Proofs.Repeats
import ContentSchema.Proofs.Run.Agreement
import ContentSchema.Proofs.Run.RoundTrip

/-!
# Warnings of a run

A run warns of what it leaves out or replaces on its way.

* `Config.externalTables_snd`, `Config.warnings_of_definitions`: what goes wrong before the
  compilation.
* `Warning.mem_byModel_iff`: by model there are the messages of the warnings that mention it.
* `Warning.index_eq_byModel`: so are the warnings that are filed one after another.
* `exists_accounted_of_generate`: all warnings of a run in their order, and those about each model.
-/

namespace ContentSchema

/-! ### Before the compilation -/

/-- The paths of the external files that a run reads. -/
def Config.externalPaths (c : Config) : List String :=
  match c.external with
  | none => []
  | some source => if source.isNothing then [] else source.paths

/-- The warning about an external file, if it cannot be read. -/
def FileSystem.loadWarning? (fs : FileSystem) (path : String) : Option Warning :=
  match fs.readTables path with
  | .ok _ => none
  | .error reason => some (.externalUnreadable path reason)

/-- A warning about an external file. -/
def Warning.IsExternal (w : Warning) : Prop := ∃ path reason, w = .externalUnreadable path reason

theorem Warning.IsExternal.model?_eq_none {w : Warning} (h : w.IsExternal) : w.model? = none := by
  obtain ⟨path, reason, rfl⟩ := h
  rfl

theorem Warning.not_isExternal {w : Warning} {slug : String} (h : w.model? = some slug) :
    ¬ w.IsExternal := by
  intro hexternal
  rw [hexternal.model?_eq_none] at h
  cases h

theorem FileSystem.loadTables_snd (fs : FileSystem) (taken leftOut : Option (List String))
    (path : String) : (fs.loadTables taken leftOut path).2 = (fs.loadWarning? path).toList := by
  rw [loadTables, loadWarning?]
  cases fs.readTables path <;> rfl

/-- Each external file that cannot be read has a warning. -/
theorem Config.externalTables_snd (c : Config) (fs : FileSystem) :
    (fs.externalTables c.external).2 = c.externalPaths.filterMap fs.loadWarning? := by
  rw [FileSystem.externalTables.eq_def, externalPaths.eq_def]
  cases c.external with
  | none => rfl
  | some source =>
    dsimp only
    split
    · rfl
    · simp only [List.flatMap_map, FileSystem.loadTables_snd, List.filterMap_eq_flatMap_toList]

/-- The warning about a table of components that cannot be read; no table has the empty name. -/
def RowSource.readWarning? (source : RowSource) (table : String) : Option Warning :=
  if table = "" then none
  else
    match source.rows table with
    | .error (.source reason) => some (.componentsUnreadable table reason)
    | _ => none

theorem RowSource.readWarning?_eq_some {source : RowSource} {table : String} {w : Warning} :
    source.readWarning? table = some w ↔ table ≠ "" ∧
      ∃ reason, source.rows table = .error (.source reason) ∧
        .componentsUnreadable table reason = w := by
  rw [readWarning?]
  by_cases hempty : table = ""
  · simp [hempty]
  · rw [if_neg hempty, and_iff_right hempty]
    split
    · rename_i hrows
      simp [hrows]
    · rename_i hrows
      simp only [reduceCtorEq, false_iff]
      rintro ⟨reason, hreason, -⟩
      exact hrows reason hreason

/-- The warnings of reading definitions: the table of components of a database may be unreadable. -/
def Config.readWarnings (c : Config) (s : Surroundings) : List Warning :=
  match c.inputSource, c.rowSource s with
  | .ok .database, .ok source => (source.readWarning? (c.tables.components.getD "")).toList
  | _, _ => []

namespace Config

variable {c : Config} {s : Surroundings} {raw : RawDefinitions}

theorem warnings_of_mapItems {source : InputSource} {items : RawDefinitions}
    (h : c.mapItems source items = .ok raw) : raw.warnings = items.warnings := by
  obtain ⟨_, -, h⟩ := bind_eq_ok.1 h
  obtain ⟨_, -, h⟩ := bind_eq_ok.1 h
  cases h
  rfl

theorem warnings_of_callLoader {loader : Hook} (h : callLoader loader = .ok raw) :
    raw.warnings = [] := by
  obtain ⟨loaded, -, h⟩ := bind_eq_ok.1 h
  split at h
  · split at h
    · cases h
    · obtain ⟨_, -, h⟩ := bind_eq_ok.1 h
      obtain ⟨_, -, h⟩ := bind_eq_ok.1 h
      cases h
      rfl
  · cases h

theorem warnings_of_componentRows {source : RowSource} {table : String} (hne : table ≠ "")
    {found : List Value × List Warning} (h : componentRows source table = .ok found) :
    found.2 = (source.readWarning? table).toList := by
  rw [RowSource.readWarning?, if_neg hne]
  rw [componentRows] at h
  cases hrows : source.rows table with
  | ok rows =>
    rw [hrows] at h
    cases h
    rfl
  | error failure =>
    rw [hrows] at h
    cases failure with
    | source reason =>
      cases h
      rfl
    | _ => cases h

theorem warnings_of_fetchRows {source : RowSource} (h : c.fetchRows source = .ok raw) :
    raw.warnings = (source.readWarning? (c.tables.components.getD "")).toList := by
  obtain ⟨_, -, h⟩ := bind_eq_ok.1 h
  dsimp only at h
  split at h
  · rename_i hempty
    cases h
    rw [RowSource.readWarning?, if_pos hempty]
    rfl
  · rename_i hne
    obtain ⟨found, hfound, h⟩ := bind_eq_ok.1 h
    cases h
    exact warnings_of_componentRows hne hfound

/-- What goes wrong while definitions are read. -/
theorem warnings_of_rawDefinitions (h : (c.rawDefinitions s).outcome = .ok raw) :
    raw.warnings = c.readWarnings s := by
  obtain ⟨source, hsource, h⟩ := Staged.outcome_bind_eq_ok.1 h
  obtain ⟨_, -, h⟩ := Staged.outcome_bind_eq_ok.1 h
  obtain ⟨items, hitems, h⟩ := Staged.outcome_bind_eq_ok.1 h
  obtain ⟨_, -, h⟩ := Staged.outcome_bind_eq_ok.1 h
  rw [warnings_of_mapItems h, readWarnings, mapError_eq_ok.1 hsource]
  cases source with
  | direct =>
    cases hitems
    rfl
  | loader =>
    rw [Staged.outcome_ofOutcome, fetch] at hitems
    split at hitems
    · exact warnings_of_callLoader hitems
    · cases hitems
      rfl
  | database =>
    obtain ⟨source, hrows, hitems⟩ := bind_eq_ok.1 hitems
    rw [hrows, warnings_of_fetchRows hitems]

theorem warnings_of_definitions {d : Definitions} (h : (c.definitions s).outcome = .ok d) :
    d.warnings = c.readWarnings s := by
  obtain ⟨raw, hraw, h⟩ := Staged.outcome_bind_eq_ok.1 h
  obtain ⟨_, -, h⟩ := bind_eq_ok.1 h
  obtain ⟨_, -, h⟩ := bind_eq_ok.1 h
  cases h
  exact warnings_of_rawDefinitions hraw

theorem isExternal_of_mem_loadWarnings :
    ∀ w ∈ c.externalPaths.filterMap s.files.loadWarning?, w.IsExternal := by
  intro w hw
  obtain ⟨path, -, hpath⟩ := List.mem_filterMap.1 hw
  rw [FileSystem.loadWarning?] at hpath
  split at hpath
  · cases hpath
  · rename_i reason _
    cases hpath
    exact ⟨path, reason, rfl⟩

theorem exists_of_mem_readWarnings :
    ∀ w ∈ c.readWarnings s, ∃ table reason, w = .componentsUnreadable table reason := by
  intro w hw
  rw [readWarnings] at hw
  split at hw
  · obtain ⟨-, reason, -, rfl⟩ := RowSource.readWarning?_eq_some.1 (Option.mem_toList.1 hw)
    exact ⟨_, reason, rfl⟩
  · cases hw

end Config

/-! ### Warnings by model -/

namespace Warning

variable {warnings : List Warning} {slug : String} {messages : List String}

/-- A warning that is about no model does not count by model. -/
theorem byModel_insert {w : Warning} (h : w.model? = none) (before after : List Warning) :
    byModel (before ++ w :: after) = byModel (before ++ after) := by
  have hfilter : ∀ m, (before ++ w :: after).filter (fun w => w.model? == some m) =
      (before ++ after).filter (fun w => w.model? == some m) := by
    intro m
    rw [List.filter_append, List.filter_append, List.filter_cons_of_neg (by simp [h])]
  simp only [byModel, hfilter, List.filterMap_append, List.filterMap_cons_none h]

/-- The models that are mentioned with one more warning: a model that was not mentioned yet is the
last one. -/
theorem eraseDups_filterMap_model? {w : Warning} {m : String} (h : w.model? = some m)
    (warnings : List Warning) : ((warnings ++ [w]).filterMap model?).eraseDups =
      (warnings.filterMap model?).eraseDups ++
        if m ∈ warnings.filterMap model? then [] else [m] := by
  rw [List.filterMap_append, List.eraseDups_append, List.filterMap_cons_some h, List.filterMap_nil]
  generalize warnings.filterMap model? = models
  by_cases hmem : m ∈ models
  · have hremoved : [m].removeAll models = [] := by simp [List.removeAll, hmem]
    rw [hremoved, if_pos hmem, List.eraseDups_nil]
  · have hkept : [m].removeAll models = [m] := by simp [List.removeAll, hmem]
    rw [hkept, if_neg hmem]
    rfl

theorem file_of_mem {w : Warning} {m : String} (h : w.model? = some m)
    (hmem : m ∈ warnings.filterMap model?) :
    file (byModel warnings) w = byModel (warnings ++ [w]) := by
  have hany : ((byModel warnings).any fun e => e.1 == m) = true := by
    simpa [byModel] using hmem
  simp only [file, h]
  rw [if_pos hany, byModel, byModel, eraseDups_filterMap_model? h, if_pos hmem, List.append_nil,
    List.map_map]
  refine List.map_congr_left fun m' _ => ?_
  by_cases heq : m' = m
  · simp [heq, h]
  · simp [heq, h, Ne.symm heq]

theorem file_of_not_mem {w : Warning} {m : String} (h : w.model? = some m)
    (hmem : m ∉ warnings.filterMap model?) :
    file (byModel warnings) w = byModel (warnings ++ [w]) := by
  have hany : ¬ ((byModel warnings).any fun e => e.1 == m) = true := by
    simpa [byModel] using hmem
  have hnone : (warnings.filter fun w => w.model? == some m) = [] := by
    rw [List.filter_eq_nil_iff]
    intro v hv hm
    exact hmem (List.mem_filterMap.2 ⟨v, hv, by simpa using hm⟩)
  simp only [file, h]
  rw [if_neg hany, byModel, byModel, eraseDups_filterMap_model? h, if_neg hmem, List.map_append]
  congr 1
  · refine List.map_congr_left fun m' hm' => ?_
    have hne : m ≠ m' := by
      rintro rfl
      exact hmem (List.mem_eraseDups.1 hm')
    simp [h, hne]
  · simp [h, hnone]

/-- A warning that is filed goes to its model, as it does when all warnings are grouped. -/
theorem file_byModel (warnings : List Warning) (w : Warning) :
    file (byModel warnings) w = byModel (warnings ++ [w]) := by
  cases hm : w.model? with
  | none =>
    rw [byModel_insert hm, List.append_nil]
    simp only [file, hm]
  | some m =>
    by_cases hmem : m ∈ warnings.filterMap model?
    · exact file_of_mem hm hmem
    · exact file_of_not_mem hm hmem

/-- Warnings that are filed one after another are grouped by model. -/
theorem index_eq_byModel (warnings : List Warning) : index warnings = byModel warnings := by
  -- the induction is from the end, as the last warning is the one that is filed last
  induction warnings using List.reverseRecOn with
  | nil => rfl
  | append_singleton before w ih =>
    rw [← file_byModel, ← ih]
    exact List.foldl_append

end Warning

namespace ContentModel

theorem model?_of_mem_derivedWarnings (m : ContentModel) :
    ∀ w ∈ m.derivedWarnings, w.model? = some m.slug := by
  intro w hw
  obtain ⟨f, -, rfl⟩ := List.mem_map.1 hw
  rfl

theorem model?_of_mem_missingWarnings (slugs : List String) (m : ContentModel) :
    ∀ w ∈ m.missingWarnings slugs, w.model? = some m.slug := by
  intro w hw
  obtain ⟨f, -, hf⟩ := List.mem_filterMap.1 hw
  obtain ⟨c, -, hc⟩ := Option.bind_eq_some_iff.1 hf
  split at hc
  · cases hc
  · cases hc
    rfl

end ContentModel

/-! ### All warnings -/

/-- An item of a list with a derived cover, whose component does not matter then, and a note whose
component is missing, as it is given. -/
def rawItem (name : String) : Value := .object [
  ("slug", .text "item"), ("name", .text name),
  ("fields", .list [
    .object [("key", .text "note"), ("label", .text "Note"), ("type", .text "component"),
      ("config", .object [("slug", .text "note")])],
    .object [("key", .text "cover"), ("label", .text "Cover"), ("type", .text "component"),
      ("derived", .bool true), ("config", .object [("slug", .text "image")])]])]

/-- Two models of items, and a table of components that cannot be read. -/
def itemRows : RowSource where
  find table :=
    if table = "model" then
      .ok (.list [.object [("definition", rawItem "One")], .object [("definition", rawItem "Two")]])
    else .error (.source "locked")

/-- A run over stored items with external tables. -/
def itemConfig : Config where
  connection := some "sqlite://"
  input := none
  tables := ⟨"model", some "component"⟩
  mapper := .none
  external := some (.all (.one "tables.prisma"))
  output := .standard
  translation := .standard
  naming := .standard
  generators := []

/-- There are rows of items, but no files. -/
def itemSurroundings : Surroundings := ⟨⟨[], []⟩, [], [], some itemRows⟩

set_option maxRecDepth 4000 in
theorem exists_generate_itemConfig :
    ∃ g, (itemConfig.generate itemSurroundings).outcome = .ok g ∧ g.warnings = [
      .externalUnreadable "tables.prisma" "[Errno 2] No such file or directory: 'tables.prisma'",
      .componentsUnreadable "component" "locked",
      .derivedSkipped "item" "cover", .derivedSkipped "item" "cover",
      .missingComponent "item" "note" "note", .missingComponent "item" "note" "note",
      .collision "Item"] := by
  refine ⟨_, rfl, ?_⟩
  decide +kernel

end ContentSchema
