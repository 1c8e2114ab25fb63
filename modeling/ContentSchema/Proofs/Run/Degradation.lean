import ContentSchema.Proofs.Run.Warnings

/-!
# Unreadable components

If the table of components cannot be read, a run goes on as if there were no such table, and warns.

* `Config.Unreadable.matching_fetch`: what is fetched is what is fetched without such a table.
* `Config.Unreadable.parallel_run`: the run makes the same of it.
* `Config.Unreadable.parallel_generate`: whole runs are the same but for one warning, which comes
  right after those about external files.
-/

namespace ContentSchema

/-! ### One more warning -/

/-- The first items come with one more warning, in front of the others. -/
def RawDefinitions.Warned (w : Warning) (raw raw' : RawDefinitions) : Prop :=
  raw = { raw' with warnings := w :: raw'.warnings }

/-- The first definitions come with one more warning, in front of the others. -/
def Definitions.Warned (w : Warning) (d d' : Definitions) : Prop :=
  d = { d' with warnings := w :: d'.warnings }

/-- The first generation comes with one more warning, right after those about external files. -/
structure Generation.Warned (w : Warning) (g g' : Generation) : Prop where
  /-- Nothing but the warnings differs. -/
  rest : g = { g' with warnings := g.warnings }
  /-- The warning is the first one that is not about external files. -/
  warnings : ∃ external others, g'.warnings = external ++ others ∧
    g.warnings = external ++ w :: others ∧
    (∀ v ∈ external, v.IsExternal) ∧ ∀ v ∈ others, ¬ v.IsExternal
  /-- The warnings by model do not differ. -/
  byModel : Warning.byModel g.warnings = Warning.byModel g'.warnings

theorem RawDefinitions.Warned.matching_validate {w : Warning} {raw raw' : RawDefinitions}
    (h : raw.Warned w raw') : Matching (Definitions.Warned w) raw.validate raw'.validate := by
  subst h
  exact .bind_same _ fun models => .bind_same _ fun components => .ok rfl

namespace Config

/-- The configuration with no table of components. -/
def withoutComponents (c : Config) : Config :=
  { c with tables := { c.tables with components := none } }

/-- Mapping does not look at warnings. -/
theorem matching_mapItems_of_warned (c : Config) {w : Warning} {items items' : RawDefinitions}
    (h : items.Warned w items') :
    Matching (RawDefinitions.Warned w) (c.mapItems .database items)
      (c.withoutComponents.mapItems .database items') := by
  subst h
  exact .bind_same _ fun models => .bind_same _ fun components => .ok rfl

/-- A run over a database has a table of components that cannot be read; a run in other surroundings
has the same rows of models and the same files. -/
structure Unreadable (c : Config) (s s' : Surroundings) (table reason : String) : Prop where
  /-- Definitions are stored. -/
  database : c.inputSource = .ok .database
  /-- There is a table of components. -/
  configured : c.tables.components = some table
  /-- The table has a name. -/
  named : table ≠ ""
  /-- Its rows cannot be read, and those of models are the same. -/
  rows : ∃ source source', c.rowSource s = .ok source ∧ c.rowSource s' = .ok source' ∧
    source.rows table = .error (.source reason) ∧
    source.rows c.tables.models = source'.rows c.tables.models
  /-- The files are the same. -/
  files : s.files = s'.files

namespace Unreadable

variable {c : Config} {s s' : Surroundings} {table reason : String}
  (h : c.Unreadable s s' table reason)
include h

theorem matching_fetch : Matching (RawDefinitions.Warned (.componentsUnreadable table reason))
    (c.fetch s .database) (c.withoutComponents.fetch s' .database) := by
  obtain ⟨source, source', hsource, hsource', hfail, hmodels⟩ := h.rows
  have hsource' : c.withoutComponents.rowSource s' = .ok source' := hsource'
  rw [fetch, fetch, hsource, hsource']
  show Matching _ (c.fetchRows source) (c.withoutComponents.fetchRows source')
  rw [fetchRows, fetchRows, hmodels, h.configured, Option.getD_some]
  refine .bind_same _ fun models => ?_
  dsimp only
  rw [if_neg h.named, componentRows, hfail]
  exact .ok rfl

theorem parallel_definitions :
    Staged.Parallel (Definitions.Warned (.componentsUnreadable table reason)) (c.definitions s)
      (c.withoutComponents.definitions s') := by
  refine Staged.Parallel.bind (R := RawDefinitions.Warned (.componentsUnreadable table reason)) ?_
    fun raw raw' hraw => .ofOutcome hraw.matching_validate
  have hsource : c.withoutComponents.inputSource = .ok .database := h.database
  rw [rawDefinitions, rawDefinitions, h.database, hsource]
  refine .bind (R := fun source source' => source = .database ∧ source' = .database)
    ⟨rfl, .ok ⟨rfl, rfl⟩⟩ ?_
  rintro _ _ ⟨rfl, rfl⟩
  refine .bind_same _ fun _ => .bind (.ofOutcome h.matching_fetch) fun items items' hitems => ?_
  exact .bind_same _ fun _ => .ofOutcome (c.matching_mapItems_of_warned hitems)

/-- The results of the runs have the same warnings behind those about external files, but for the
one more. -/
theorem parallel_run :
    Staged.Parallel (fun g g' => ∃ others,
        g'.warnings = (s.files.externalTables c.external).2 ++ others ∧
        g = { g' with warnings := (s.files.externalTables c.external).2 ++
          .componentsUnreadable table reason :: others })
      (c.run s) (c.withoutComponents.run s') := by
  have hsource : c.withoutComponents.inputSource = .ok .database := h.database
  rw [run, run, h.database, hsource, ← h.files,
    show c.withoutComponents.external = c.external from rfl]
  obtain ⟨external, unreadable⟩ := s.files.externalTables c.external
  refine .bind_same _ fun _ => .bind_same _ fun _ => ?_
  refine h.parallel_definitions.bind fun d d' hd => ?_
  obtain rfl := hd
  refine .bind_same (c.compile d' _) fun compilation => ?_
  obtain ⟨tables, collisions⟩ := mergeTables external compilation.tables
  refine .bind_same _ fun _ => .bind_same _ fun text => ?_
  refine .ofOutcome (.ok
    ⟨d'.warnings ++ (compilation.warnings ++ collisions.map .collision), ?_, ?_⟩)
  · dsimp only
    rw [List.append_assoc, List.append_assoc]
  · dsimp only
    rw [List.append_assoc, List.append_assoc, List.cons_append]

end Unreadable

/-- Of the warnings of a run, those behind the ones about external files are about other things. -/
theorem exists_others_of_generate {c : Config} {s : Surroundings} {g : Generation}
    (h : (c.generate s).outcome = .ok g) : ∃ others,
      g.warnings = (s.files.externalTables c.external).2 ++ others ∧
        ∀ v ∈ others, ¬ v.IsExternal := by
  obtain ⟨d, compilation, hd, hcompilation, -, -, hwarnings⟩ := exists_parts_of_generate h
  rw [List.append_assoc, List.append_assoc] at hwarnings
  refine ⟨_, hwarnings, ?_⟩
  intro v hv hexternal
  rw [List.mem_append, List.mem_append, warnings_of_definitions hd,
    warnings_of_compileModels hcompilation, List.mem_append] at hv
  rcases hv with hread | (hderived | hmissing) | hcollision
  · obtain ⟨table, reason, rfl⟩ := exists_of_mem_readWarnings v hread
    obtain ⟨_, _, hne⟩ := hexternal
    cases hne
  · obtain ⟨m, -, hm⟩ := List.mem_flatMap.1 hderived
    exact Warning.not_isExternal (m.model?_of_mem_derivedWarnings v hm) hexternal
  · obtain ⟨m, -, hm⟩ := List.mem_flatMap.1 hmissing
    exact Warning.not_isExternal (ContentModel.model?_of_mem_missingWarnings _ m v hm) hexternal
  · obtain ⟨name, -, rfl⟩ := List.mem_map.1 hcollision
    obtain ⟨_, _, hne⟩ := hexternal
    cases hne

end Config

/-- A run whose table of components cannot be read goes through the same stages as the run without
such a table.  It stops at the same failure, or makes the same with one more warning, which comes
right after those about external files. -/
theorem Config.Unreadable.parallel_generate {c : Config} {s s' : Surroundings}
    {table reason : String} (h : c.Unreadable s s' table reason) :
    Staged.Parallel (Generation.Warned (.componentsUnreadable table reason)) (c.generate s)
      (c.withoutComponents.generate s') := by
  refine h.parallel_run.finish.imp_of_ok fun g g' hg' hwarned => ?_
  obtain ⟨others, hothers, rfl⟩ := hwarned
  obtain ⟨others', hothers', hnone⟩ := exists_others_of_generate hg'
  obtain rfl : others = others' := List.append_cancel_left
    (hothers.symm.trans (h.files ▸ hothers'))
  exact {
    rest := rfl
    warnings := ⟨_, others, hothers, rfl, by
      rw [c.externalTables_snd]
      exact isExternal_of_mem_loadWarnings, hnone⟩
    byModel := by rw [hothers, Warning.byModel_insert rfl] }

theorem unreadable_itemConfig :
    itemConfig.Unreadable itemSurroundings itemSurroundings "component" "locked" where
  database := rfl
  configured := rfl
  named := by decide
  rows := ⟨itemRows, itemRows, rfl, rfl, rfl, rfl⟩
  files := rfl

/-- The run over items makes what it makes without components, and warns of them behind the external
file. -/
theorem warned_itemConfig : ∃ g g', (itemConfig.generate itemSurroundings).outcome = .ok g ∧
    (itemConfig.withoutComponents.generate itemSurroundings).outcome = .ok g' ∧
    g.Warned (.componentsUnreadable "component" "locked") g' ∧ g.warnings = [
      .externalUnreadable "tables.prisma" "[Errno 2] No such file or directory: 'tables.prisma'",
      .componentsUnreadable "component" "locked",
      .derivedSkipped "item" "cover", .derivedSkipped "item" "cover",
      .missingComponent "item" "note" "note", .missingComponent "item" "note" "note",
      .collision "Item"] := by
  obtain ⟨g, hg, hwarnings⟩ := exists_generate_itemConfig
  have hrun := (Config.Unreadable.parallel_generate unreadable_itemConfig).outcome
  rw [hg] at hrun
  generalize hother : (itemConfig.withoutComponents.generate itemSurroundings).outcome = other
    at hrun
  cases hrun with
  | @ok _ g' h => exact ⟨g, g', hg, rfl, h, hwarnings⟩

end ContentSchema
