import ContentSchema.Proofs.Compilation.Whole
import ContentSchema.Proofs.Run.Definitions
import ContentSchema.Proofs.Schema.Parsed
import ContentSchema.Run.Generation

/-!
# The schema of a run is read with its shape

If no text of a run ends a line, names are in `PascalCase` or `camelCase` and relations lead to
slugs or external tables, then the schema of the run is read as the run's tables with their shapes,
exactly if each external table among them is readable (`Config.exists_parseTables_generate_iff`).
-/

namespace ContentSchema

open Text

/-! ### What a run shows -/

/-- All fields of the definitions. -/
def Definitions.fields (d : Definitions) : List Field :=
  d.models.flatMap (·.fields) ++ d.components.flatMap (·.2.fields)

/-- The texts of the definitions that a schema shows: those of rules, and the keys by which models
are sorted. -/
def Definitions.shownTexts (d : Definitions) : List String :=
  (d.fields.filterMap (·.rules)).flatMap (·.texts) ++ d.models.filterMap (·.settings.sortField)

/-- The models and the components are writable. -/
structure Definitions.Writable (d : Definitions) (settings : BuildSettings) : Prop where
  /-- The models are writable. -/
  models : ∀ m ∈ d.models, m.Writable settings
  /-- The components are writable. -/
  components : ∀ e ∈ d.components, e.2.Writable settings

/-- Valid definitions are writable if their relations lead to slugs or external tables and their
texts end no line. -/
theorem Definitions.Valid.writable {d : Definitions} {settings : BuildSettings} (hd : d.Valid)
    (htargets : ∀ f ∈ d.fields, ∀ r ∈ f.relation?,
      Reader.isSlug r.target = true ∨ r.target ∈ settings.externalNames)
    (htexts : ∀ text ∈ d.shownTexts, Unbroken text.toList) : d.Writable settings := by
  have hfield : ∀ f ∈ d.fields, f.Valid → f.Writable settings := by
    intro f hf hvalid
    refine ⟨hvalid, htargets f hf, fun r hr text htext => htexts text ?_⟩
    refine List.mem_append_left _ (List.mem_flatMap.2 ⟨r, ?_, htext⟩)
    exact List.mem_filterMap.2 ⟨f, hf, hr⟩
  constructor
  · intro m hm
    have hvalid := hd.models m hm
    refine ⟨hvalid.slug, fun f hf => hfield f ?_ (hvalid.fields f hf),
      fun key hkey => htexts key ?_⟩
    · exact List.mem_append_left _ (List.mem_flatMap.2 ⟨m, hm, hf⟩)
    · exact List.mem_append_right _ (List.mem_filterMap.2 ⟨m, hm, hkey⟩)
  · intro e he f hf
    refine hfield f ?_ ((hd.components e he).1.fields f hf)
    exact List.mem_append_right _ (List.mem_flatMap.2 ⟨e, he, hf⟩)

namespace Config

/-- The texts of a configuration that a schema shows. -/
def shownTexts (c : Config) : List String :=
  c.translation.pattern :: (⟨c.output.datasource, c.allGenerators, []⟩ : Schema).headTexts

/-- The external tables of a run. -/
def externalTables (c : Config) (s : Surroundings) : List Table :=
  (s.files.externalTables c.external).1

variable {c : Config} {s : Surroundings} {g : Generation} {d : Definitions}

theorem schemaText_eq_ok {schema : Schema} {text : List Char} (h : schemaText schema = .ok text) :
    schema.holdsOversized = false ∧ text = schema.print := by
  rw [schemaText] at h
  split at h
  · cases h
  · rename_i hsize
    cases h
    exact ⟨by simpa using hsize, rfl⟩

/-- The parts of a run: its definitions, their compilation, what is merged of it with the external
tables, and the text and the warnings that come of this. -/
theorem exists_parts_of_generate (h : (c.generate s).outcome = .ok g) :
    ∃ d compilation, (c.definitions s).outcome = .ok d ∧
      compileModels d.models d.components
        (c.buildSettings ((c.externalTables s).map (·.name))) = .ok compilation ∧
      g.tables = (mergeTables (c.externalTables s) compilation.tables).1 ∧
      schemaText ⟨c.output.datasource, c.allGenerators, g.tables⟩ = .ok g.schema ∧
      g.warnings = (s.files.externalTables c.external).2 ++ d.warnings ++ compilation.warnings ++
        (mergeTables (c.externalTables s) compilation.tables).2.map .collision := by
  obtain ⟨_, -, h⟩ := Staged.outcome_bind_eq_ok.1 h
  obtain ⟨_, -, h⟩ := Staged.outcome_bind_eq_ok.1 h
  obtain ⟨d, hd, h⟩ := Staged.outcome_bind_eq_ok.1 h
  obtain ⟨compilation, hcompilation, h⟩ := Staged.outcome_bind_eq_ok.1 h
  obtain ⟨_, -, h⟩ := Staged.outcome_bind_eq_ok.1 h
  obtain ⟨text, htext, h⟩ := Staged.outcome_bind_eq_ok.1 h
  cases h
  refine ⟨d, compilation, hd, ?_, rfl, htext, rfl⟩
  obtain ⟨_, -, hcompilation⟩ := Staged.outcome_bind_eq_ok.1 hcompilation
  obtain ⟨own, hown, hcompilation⟩ := Staged.outcome_bind_eq_ok.1 hcompilation
  obtain ⟨_, -, hcompilation⟩ := Staged.outcome_bind_eq_ok.1 hcompilation
  obtain ⟨additions, hadditions, hcompilation⟩ := Staged.outcome_bind_eq_ok.1 hcompilation
  cases hcompilation
  exact compileModels_eq_ok.2
    ⟨own, additions, mapError_eq_ok.1 hown, mapError_eq_ok.1 hadditions, rfl⟩

/-- The tables of a run are the external ones and those compiled from its definitions, and its
schema is the text of these tables. -/
theorem generate_eq_ok (h : (c.generate s).outcome = .ok g) :
    ∃ d compilation, (c.definitions s).outcome = .ok d ∧
      compileModels d.models d.components
        (c.buildSettings ((c.externalTables s).map (·.name))) = .ok compilation ∧
      g.tables = (mergeTables (c.externalTables s) compilation.tables).1 ∧
      (⟨c.output.datasource, c.allGenerators, g.tables⟩ : Schema).holdsOversized = false ∧
      g.schema = (⟨c.output.datasource, c.allGenerators, g.tables⟩ : Schema).print := by
  obtain ⟨d, compilation, hd, hcompilation, htables, htext, -⟩ := exists_parts_of_generate h
  exact ⟨d, compilation, hd, hcompilation, htables, schemaText_eq_ok htext⟩

/-! ### Tables of a run -/

theorem wordy_of_isAlphanum_or {cs : List Char}
    (h : ∀ c ∈ cs, c.isAlphanum = true ∨ c = '_') : Wordy cs := by
  intro c hc
  rcases h c hc with halnum | rfl
  · exact isWordChar_of_isAlphanum halnum
  · exact isWordChar_underscore

/-- The settings of a run build names of words. -/
theorem plain_buildSettings (hconvention : c.naming.convention ≠ .snakeCase)
    (hlead : ∀ lead ∈ c.naming.lead, ∀ ch ∈ lead.toList, ch.isAlphanum = true ∨ ch = '_') :
    (c.buildSettings ((c.externalTables s).map (·.name))).Plain where
  convention := hconvention
  lead := fun lead hl => wordy_of_isAlphanum_or (hlead lead hl)
  external := by
    intro name hname
    obtain ⟨t, ht, rfl⟩ := List.mem_map.1 hname
    exact (FileSystem.legible_of_mem_externalTables ht).wordy

/-- Each table that is made for writable definitions is regular. -/
theorem regular_of_made {settings : BuildSettings} (hs : settings.Plain)
    (hpattern : Unbroken settings.pattern.toList) (hd : d.Writable settings) {t : Table}
    (h : Made d.models d.components settings t) : t.Regular := by
  have howner : ∀ m ∈ d.models, Wordy (m.tableName settings).toList := fun m hm =>
    BuildSettings.wordy_tableName (hs.effectiveSettings m).lead (hd.models m hm).slug
  have hfield : ∀ m ∈ d.models, ∀ f ∈ m.storedFields, f.Writable (m.effectiveSettings settings) :=
    fun m hm f hf => ((hd.models m hm).fields f (List.mem_filter.1 hf).1).effectiveSettings m
  cases h with
  | model hm hts ht => exact (hd.models _ hm).regular_of_tables hs hpattern hts t ht
  | @component m f _ component _ _ hm hf _ hfind hts ht =>
    have hwritable : component.Writable (m.effectiveSettings settings) := fun f' hf' =>
      (hd.components _ (Components.mem_of_find?_eq_some hfind) f' hf').effectiveSettings m
    refine hwritable.regular_of_tables (hs.effectiveSettings m) ?_ ?_ hts t ht
    · exact howner m hm
    · exact (hfield m hm f hf).valid.slug
  | @junction m f _ hm hf ht =>
    exact (hfield m hm f hf).regular_junctionTable (hs.effectiveSettings m) (howner m hm) ht

/-- A regular table of a schema without overlong numbers is readable. -/
theorem readable_of_regular {schema : Schema} (hsize : schema.holdsOversized = false) {t : Table}
    (ht : t ∈ schema.tables) (h : t.Regular) : t.Readable := by
  refine h.readable fun col hcol => ?_
  rw [Schema.holdsOversized, Bool.or_eq_false_iff] at hsize
  have hcolumns := List.any_eq_false.1 hsize.2 t ht
  rw [Bool.not_eq_true] at hcolumns
  simpa using List.any_eq_false.1 hcolumns col hcol

/-- If no text of a run ends a line, names are in `PascalCase` or `camelCase` and relations lead to
slugs or external tables, then the schema of the run is read with the shapes of its tables, exactly
if each external table among them is readable. -/
theorem exists_parseTables_generate_iff (hg : (c.generate s).outcome = .ok g)
    (hd : (c.definitions s).outcome = .ok d) (hconvention : c.naming.convention ≠ .snakeCase)
    (hlead : ∀ lead ∈ c.naming.lead, ∀ ch ∈ lead.toList, ch.isAlphanum = true ∨ ch = '_')
    (htargets : ∀ f ∈ d.fields, ∀ r ∈ f.relation?,
      Reader.isSlug r.target = true ∨ r.target ∈ (c.externalTables s).map (·.name))
    (htexts : ∀ text ∈ c.shownTexts ++ d.shownTexts, Unbroken text.toList) :
    (∃ ts, parseTables g.schema = .ok ts ∧ ts.map (·.shape) = g.tables.map (·.shape)) ↔
      ∀ t ∈ g.tables, t ∈ c.externalTables s → t.Readable := by
  obtain ⟨d', compilation, hd', hcompilation, htables, hsize, hschema⟩ := generate_eq_ok hg
  rw [hd] at hd'
  cases hd'
  have hpattern : Unbroken c.translation.pattern.toList := htexts _ (by simp [shownTexts])
  have hwritable : d.Writable (c.buildSettings ((c.externalTables s).map (·.name))) :=
    (valid_of_definitions hd).writable htargets fun text htext =>
      htexts text (List.mem_append_right _ htext)
  have hregular : ∀ t ∈ compilation.tables, t.Regular := fun t ht =>
    regular_of_made (plain_buildSettings hconvention hlead) hpattern hwritable
      (made_of_mem_tables hcompilation ht)
  have hcases : ∀ t ∈ g.tables, t ∈ c.externalTables s ∨ t.Regular := by
    intro t ht
    rw [htables] at ht
    exact (mem_of_mem_mergeTables ht).imp_right (hregular t)
  have hlegible : ∀ t ∈ g.tables, t.Legible := by
    intro t ht
    rcases hcases t ht with hexternal | hgenerated
    · exact FileSystem.legible_of_mem_externalTables hexternal
    · exact hgenerated.legible
  have hhead : ∀ text ∈ (⟨c.output.datasource, c.allGenerators, g.tables⟩ : Schema).headTexts,
      '\n' ∉ text.toList := fun text htext =>
    (htexts text (List.mem_append_left _ (List.mem_cons_of_mem _ htext))).not_mem_newline
  -- generated tables are readable, as the run checks its numbers before it writes them
  have hall : (∀ t ∈ g.tables, t ∈ c.externalTables s → t.Readable) ↔
      ∀ t ∈ g.tables, t.Readable := by
    refine forall₂_congr fun t ht => ⟨fun h => ?_, fun h _ => h⟩
    rcases hcases t ht with hexternal | hgenerated
    · exact h hexternal
    · exact readable_of_regular hsize ht hgenerated
  rw [hall, hschema, ← exists_parseTables_print_iff hhead hlegible]
  constructor
  · rintro ⟨ts, hts, -⟩
    exact ⟨ts, hts⟩
  · rintro ⟨ts, hts⟩
    exact ⟨ts, hts, shape_parseTables_print hhead hlegible hts⟩

/-! ### A run over notes -/

/-- Notes with a title and with notes as their parts, as they are given. -/
def rawNote : Value := .object [
  ("slug", .text "note"), ("name", .text "Note"),
  ("fields", .list [
    .object [("key", .text "title"), ("label", .text "Title"), ("type", .text "text"),
      ("validation", .object [("pattern", .text "^[A-Z]")])],
    .object [("key", .text "parts"), ("label", .text "Parts"), ("type", .text "relation"),
      ("config", .object [("relationType", .text "manyToMany"), ("targetModel", .text "note")])]])]

/-- A configuration that gives the notes as its only model. -/
def noteConfig : Config where
  connection := none
  input := some ⟨some [rawNote], none, none⟩
  tables := .standard
  mapper := .none
  external := none
  output := .standard
  translation := .standard
  naming := .standard
  generators := []

/-- No files around a run. -/
def noFiles : Surroundings := ⟨⟨[], []⟩, [], [], none⟩

set_option maxRecDepth 4000 in
/-- The notes are a definition whose relations lead to slugs and whose texts end no line. -/
theorem definitions_noteConfig :
    ∃ d, (noteConfig.definitions noFiles).outcome = .ok d ∧
      (∀ f ∈ d.fields, ∀ r ∈ f.relation?, Reader.isSlug r.target = true ∨
        r.target ∈ (noteConfig.externalTables noFiles).map (·.name)) ∧
      ∀ text ∈ noteConfig.shownTexts ++ d.shownTexts, Unbroken text.toList := by
  refine ⟨_, rfl, ?_, ?_⟩
  · decide +kernel
  · decide +kernel

/-- The schema of the notes is read with the shapes of its tables. -/
theorem exists_parseTables_generate_noteConfig :
    ∃ g ts, (noteConfig.generate noFiles).outcome = .ok g ∧ parseTables g.schema = .ok ts ∧
      ts.map (·.shape) = g.tables.map (·.shape) := by
  obtain ⟨d, hd, htargets, htexts⟩ := definitions_noteConfig
  have hok : (noteConfig.generate noFiles).outcome.isOk = true := by decide +kernel
  obtain ⟨g, hg⟩ : ∃ g, (noteConfig.generate noFiles).outcome = .ok g := by
    cases hrun : (noteConfig.generate noFiles).outcome with
    | ok g => exact ⟨g, rfl⟩
    | error e => rw [hrun] at hok; cases hok
  have hexternal : noteConfig.externalTables noFiles = [] := by decide +kernel
  obtain ⟨ts, hts, hshape⟩ :=
    (exists_parseTables_generate_iff hg hd (by decide) (by decide) htargets htexts).2
      fun t _ ht => absurd ht (by rw [hexternal]; exact List.not_mem_nil)
  exact ⟨g, ts, hg, hts, hshape⟩

end Config

end ContentSchema
