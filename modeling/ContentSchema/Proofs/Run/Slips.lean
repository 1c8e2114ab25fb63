import ContentSchema.Config.Reading
import ContentSchema.Proofs.Compilation.Success
import ContentSchema.Proofs.Run.Order
import ContentSchema.Proofs.Run.Sources
import ContentSchema.Proofs.Run.Stages
import ContentSchema.Proofs.Source.Columns

/-!
# Failures that nobody expects

Most failures of a run are told to users in words.  The others are traced back here to what is
behind them, step by step, apart from documents that hold something that no value expresses.

* `Config.misread_iff`: a configuration is loaded, or fails to be in words, unless it is misread.
* `Config.trips_of_rawDefinitions`: a reading fails in words unless a hook, what a loader gives or
  the address of a database is behind it.
* `Definitions.Valid.succeedsIff_compileModels`: definitions compile if their fields have all names
  that they ask for, and otherwise fail without words.
* `Config.generate_eq_error_iff`: a run fails where its definitions, their compilation or the text
  of the schema do.
-/

namespace ContentSchema

/-! ### Configurations -/

namespace Config

variable {library : Library} {entries : Entries} {fs : FileSystem} {path : String} {f : Failure}

/-- A configuration is misread. -/
inductive Misread (library : Library) (fs : FileSystem) (path : String) : Prop where
  /-- A scalar in its file is not what its tag says. -/
  | tag {scalar : Yaml.Mistagged} (h : fs.readObject (.ofText path) = .error (.mistagged scalar))
  /-- A hook is referred to in a module that is relative to no other one, or that breaks off. -/
  | reference {entries : Entries} {reference : String} {fault : ImportFault} {found : Slip}
    (hentries : fs.readObject (.ofText path) = .ok entries)
    (hmem : reference ∈ hookReferences entries)
    (hresolve : library.resolve reference = .error fault) (hslip : fault.slip? = some found)

theorem mem_hookSlips {found : Slip} : found ∈ hookSlips library entries ↔
    ∃ reference ∈ hookReferences entries, ∃ fault,
      library.resolve reference = .error fault ∧ fault.slip? = some found := by
  rw [hookSlips, List.mem_filterMap]
  refine exists_congr fun reference => and_congr_right fun _ => ?_
  cases library.resolve reference <;> simp

/-- A configuration whose references to hooks can be followed, or fail in words, is refused in
words. -/
theorem isExpected_of_ofEntries (h : ofEntries library entries = .error f)
    (hslips : hookSlips library entries = []) : f.isExpected = true := by
  rw [ofEntries, hslips] at h
  dsimp only at h
  split at h
  · cases h
  · cases h
    rfl

theorem exists_slip_of_mem_hookSlips {found : Slip} (h : found ∈ hookSlips library entries) :
    ∃ first ∈ hookSlips library entries, ofEntries library entries = .error (.slip first) := by
  unfold ofEntries
  cases hslips : hookSlips library entries with
  | nil => simp [hslips] at h
  | cons first rest => exact ⟨first, List.mem_cons_self, rfl⟩

theorem ne_inexpressible_of_slip? {fault : ImportFault} {found : Slip}
    (h : fault.slip? = some found) : found ≠ .inexpressible := by
  rintro rfl
  unfold ImportFault.slip? at h
  split at h <;> simp at h

/-- A configuration is misread exactly if it fails to be loaded in a way that is not expected, other
than by something that no value expresses. -/
theorem misread_iff : Misread library fs path ↔
    ∃ f, load library fs path = .error f ∧ f.isExpected = false ∧ f ≠ .slip .inexpressible := by
  unfold load
  constructor
  · rintro (⟨h⟩ | ⟨hentries, hmem, hresolve, hslip⟩)
    · simp only [h]
      exact ⟨_, rfl, rfl, by simp⟩
    · simp only [hentries]
      obtain ⟨first, hfirst, hfound⟩ :=
        exists_slip_of_mem_hookSlips (mem_hookSlips.2 ⟨_, hmem, _, hresolve, hslip⟩)
      obtain ⟨_, -, _, -, hslip⟩ := mem_hookSlips.1 hfirst
      exact ⟨_, hfound, rfl, by simpa using ne_inexpressible_of_slip? hslip⟩
  · rintro ⟨f, h, hf, hne⟩
    dsimp only at h
    split at h
    · rename_i entries hentries
      by_contra hread
      have hslips : hookSlips library entries = [] := by
        rw [List.eq_nil_iff_forall_not_mem]
        intro found hfound
        obtain ⟨reference, hmem, fault, hresolve, hslip⟩ := mem_hookSlips.1 hfound
        exact hread (.reference hentries hmem hresolve hslip)
      have hexpected := isExpected_of_ofEntries h hslips
      rw [hf] at hexpected
      cases hexpected
    · cases h
      cases hf
    · rename_i scalar hscalar
      exact .tag hscalar
    · cases h
      exact absurd rfl hne
    · cases h
      cases hf

end Config

/-! ### Readings -/

/-- The rows of a database are those of the table with the name, if there is one. -/
theorem Databases.rows_source (dbs : Databases) (here : Location) (url table : String) :
    (dbs.source here url).rows table =
      match dbs.atAddress here url with
      | .error fault => .error (fault.failure table)
      | .ok db =>
        match db.table? table with
        | some t => .ok (t.rows.map t.rowValue)
        | none => .error (unreadableRows table table) := by
  rw [RowSource.rows, source]
  cases dbs.atAddress here url with
  | error fault => rfl
  | ok db =>
    dsimp only
    cases db.table? table with
    | none => rfl
    | some t => exact Value.members_list _

namespace Config

/-- The hooks of a configuration. -/
def hooks (c : Config) : List Hook :=
  (c.input.bind (·.loader)).toList ++ c.mapper.model.toList ++ c.mapper.component.toList

/-- What is behind a failure that a reading does not expect. -/
inductive Trips (c : Config) (s : Surroundings) (f : Failure) : Prop where
  /-- A hook fails with it. -/
  | hook {h : Hook} {role : String} {shown : Outcome Value} {given : Option Value}
    (hmem : h ∈ c.hooks) (hrun : h.run role shown given = .error f)
  /-- The definitions of one kind that the loader gives are no collection. -/
  | collection {h : Hook} {entries : Entries} {key : String} {v : Value}
    (hloader : c.input.bind (·.loader) = some h) (hcall : h.call none = .ok (.object entries))
    (hfind : Entries.find? entries key = some v) (hmembers : v.members = .error f)
  /-- The address leads to no database. -/
  | address {url table : String} {fault : AddressFault}
    (hurl : c.connectionUrl s.environment = .ok url)
    (haddress : s.databases.atAddress s.files.here url = .error fault)
    (hfault : fault.failure table = f)

variable {c : Config} {s : Surroundings} {f : Failure}

theorem loader_mem_hooks {h : Hook} (hloader : c.input.bind (·.loader) = some h) : h ∈ c.hooks := by
  simp [hooks, hloader]

theorem mapperOf_mem_hooks {h : Hook} {kind : DefinitionKind} (hmapper : c.mapperOf kind = some h) :
    h ∈ c.hooks := by
  cases kind with
  | model => simp [hooks, show c.mapper.model = some h from hmapper]
  | component => simp [hooks, show c.mapper.component = some h from hmapper]

/-- Users are told about a failure in words, or something trips the reading, unless a document holds
something that no value expresses. -/
def Accounts (c : Config) (s : Surroundings) (f : Failure) : Prop :=
  f.isExpected = true ∨ c.Trips s f ∨ f = .slip .inexpressible

/-- What a loader gives is taken as it is, but for values that are no collections. -/
theorem failsOnly_callLoader {h : Hook} (hloader : c.input.bind (·.loader) = some h) :
    FailsOnly (c.Accounts s) (callLoader h) := by
  unfold callLoader
  refine .bind (fun f hrun => .inr (.inl (.hook (loader_mem_hooks hloader) hrun)))
    fun given hrun => ?_
  have hgiven : h.call none = .ok given := mapError_eq_ok.1 hrun
  cases given with
  | object entries =>
    dsimp only
    cases hmodels : Entries.find? entries "models" with
    | none => exact .error (.inl rfl)
    | some models =>
      refine .bind (fun f hf => .inr (.inl (.collection hloader hgiven hmodels hf))) fun _ _ => ?_
      refine .bind (fun f hf => ?_) fun _ _ => .ok _
      cases hcomponents : Entries.find? entries "components" with
      | none =>
        rw [hcomponents] at hf
        cases hf
      | some components =>
        rw [hcomponents] at hf
        exact .inr (.inl (.collection hloader hgiven hcomponents hf))
  | _ => exact .error (.inl rfl)

/-- The rows of a database are there, or the address leads to none. -/
theorem failsOnly_rows {url table : String} (hurl : c.connectionUrl s.environment = .ok url) :
    FailsOnly (c.Accounts s) ((s.databases.source s.files.here url).rows table) := by
  rw [Databases.rows_source]
  split
  · rename_i fault haddress
    exact .error (.inr (.inl (.address hurl haddress rfl)))
  · split
    · exact .ok _
    · exact .error (.inl rfl)

/-- A row is an object whose columns can be written. -/
def IsWritten (row : Value) : Prop := (∃ entries, row = .object entries) ∧ ∀ key, Row.Shows key row

/-- The rows of a table of texts can be written. -/
theorem isWritten_rowValue (t : StoredTable) (cells : List (Option String)) :
    IsWritten (t.rowValue cells) := by
  refine ⟨⟨_, rfl⟩, fun key v hget => ?_⟩
  obtain ⟨e, he, rfl⟩ := Option.map_eq_some_iff.1 hget
  obtain ⟨⟨column, cell⟩, -, rfl⟩ := List.mem_map.1 (List.mem_of_find?_eq_some he)
  exact Value.holdsOversized_ofText? cell

theorem isWritten_of_mem_rows {dbs : Databases} {here : Location} {url table : String}
    {rows : List Value} (hrows : (dbs.source here url).rows table = .ok rows) {row : Value}
    (hrow : row ∈ rows) : IsWritten row := by
  rw [Databases.rows_source] at hrows
  split at hrows
  · cases hrows
  · split at hrows
    · cases hrows
      obtain ⟨cells, -, rfl⟩ := List.mem_map.1 hrow
      exact isWritten_rowValue _ cells
    · cases hrows

/-- Rows of components that cannot be read are none. -/
theorem failsOnly_componentRows {source : RowSource} {table : String}
    (h : FailsOnly (c.Accounts s) (source.rows table)) :
    FailsOnly (c.Accounts s) (componentRows source table) := by
  rw [componentRows]
  split
  · exact .ok _
  · exact .ok _
  · rename_i hrows
    exact .error (h _ hrows)

theorem failsOnly_rowSource : FailsOnly (c.Accounts s) (c.rowSource s) := by
  rw [rowSource]
  split
  · exact .ok _
  · split
    · exact .ok _
    · exact .error (.inl rfl)

/-- Rows are those of the database at the address, unless there are rows in its place. -/
theorem exists_url_of_rowSource (hinjected : s.injected = none) {source : RowSource}
    (h : c.rowSource s = .ok source) : ∃ url, c.connectionUrl s.environment = .ok url ∧
      source = s.databases.source s.files.here url := by
  rw [rowSource, hinjected] at h
  dsimp only at h
  split at h
  · rename_i url hurl
    cases h
    exact ⟨url, hurl, rfl⟩
  · cases h

theorem failsOnly_fetch (hinjected : s.injected = none) (source : InputSource) :
    FailsOnly (c.Accounts s) (c.fetch s source) := by
  cases source with
  | direct => exact .ok _
  | loader =>
    rw [fetch]
    split
    · rename_i h hloader
      exact failsOnly_callLoader hloader
    · exact .ok _
  | database =>
    refine .bind failsOnly_rowSource fun source hsource => ?_
    obtain ⟨url, hurl, rfl⟩ := exists_url_of_rowSource hinjected hsource
    refine .bind (failsOnly_rows hurl) fun models _ => ?_
    dsimp only
    split
    · exact .ok _
    · exact .bind (failsOnly_componentRows (failsOnly_rows hurl)) fun _ _ => .ok _

/-- What is read in a database can be written. -/
theorem isWritten_of_fetch (hinjected : s.injected = none) {items : RawDefinitions}
    (hfetch : c.fetch s .database = .ok items) {item : Value}
    (hitem : item ∈ items.models ∨ item ∈ items.components) : IsWritten item := by
  obtain ⟨source, hsource, hfetch⟩ := bind_eq_ok.1 hfetch
  obtain ⟨url, -, rfl⟩ := exists_url_of_rowSource hinjected hsource
  obtain ⟨models, hmodels, hrest⟩ := bind_eq_ok.1 hfetch
  dsimp only at hrest
  split at hrest
  · cases hrest
    rcases hitem with hitem | hitem
    · exact isWritten_of_mem_rows hmodels hitem
    · cases hitem
  · obtain ⟨⟨components, warnings⟩, hcomponents, hrest⟩ := bind_eq_ok.1 hrest
    cases hrest
    rcases hitem with hitem | hitem
    · exact isWritten_of_mem_rows hmodels hitem
    · rw [componentRows] at hcomponents
      cases hrows : (s.databases.source s.files.here url).rows (c.tables.components.getD "") with
      | ok rows =>
        rw [hrows] at hcomponents
        cases hcomponents
        exact isWritten_of_mem_rows hrows hitem
      | error fault =>
        rw [hrows] at hcomponents
        cases fault <;> cases hcomponents
        cases hitem

/-- A row that can be written is decoded, or it is told by its columns why it is not. -/
theorem failsOnly_decode {row : Value} (h : IsWritten row) :
    FailsOnly (c.Accounts s) (Row.decode row) := by
  obtain ⟨⟨entries, rfl⟩, hshows⟩ := h
  unfold Row.decode
  dsimp only
  split
  · exact .ok _
  · exact .error (.inr (.inr rfl))
  · rename_i fault _ _
    obtain ⟨slug, id, hnamed⟩ := Row.exists_payloadFailure_eq (hshows "slug") (hshows "id") fault
    exact .error (.inl (by rw [hnamed]; rfl))

/-- An item is mapped or decoded, where only rows that can be written are decoded. -/
theorem failsOnly_rawDefinition {source : InputSource} {kind : DefinitionKind} {item : Value}
    (hwritten : source = .database → IsWritten item) :
    FailsOnly (c.Accounts s) (c.rawDefinition source kind item) := by
  unfold rawDefinition
  cases hmapper : c.mapperOf kind with
  | some mapper =>
    cases source <;> exact fun f hrun => .inr (.inl (.hook (mapperOf_mem_hooks hmapper) hrun))
  | none =>
    cases source with
    | database => exact failsOnly_decode (hwritten rfl)
    | direct => exact .ok item
    | loader => exact .ok item

theorem failsOnly_rawDefinitions (hinjected : s.injected = none) :
    FailsOnly (c.Accounts s) (c.rawDefinitions s).outcome := by
  cases hsource : c.inputSource with
  | error fault =>
    rw [rawDefinitions, hsource]
    exact .error (.inl rfl)
  | ok source =>
    rw [outcome_rawDefinitions hsource]
    refine .bind (failsOnly_fetch hinjected source) fun items hfetch => ?_
    have hwritten : ∀ item, item ∈ items.models ∨ item ∈ items.components →
        source = .database → IsWritten item := by
      rintro item hitem rfl
      exact isWritten_of_fetch hinjected hfetch hitem
    refine .bind (.mapM fun item hitem => ?_) fun _ _ => .bind (.mapM fun item hitem => ?_)
      fun _ _ => .ok _
    · exact failsOnly_rawDefinition (hwritten item (.inl hitem))
    · exact failsOnly_rawDefinition (hwritten item (.inr hitem))

/-- A reading fails as expected unless a hook, a loader or a database is behind it, or something
that no value expresses. -/
theorem trips_of_rawDefinitions (hinjected : s.injected = none) (hf : f.isExpected = false)
    (hne : f ≠ .slip .inexpressible) (h : (c.rawDefinitions s).outcome = .error f) :
    c.Trips s f := by
  rcases failsOnly_rawDefinitions hinjected f h with hexpected | htrips | hslip
  · simp [hf] at hexpected
  · exact htrips
  · exact absurd hslip hne

end Config

/-! ### Definitions and runs -/

/-- Definitions that are not valid are refused in words. -/
theorem RawDefinitions.failsOnly_validate (raw : RawDefinitions) :
    FailsOnly (fun f => f.isExpected = true) raw.validate :=
  .bind (.mapM fun _ _ => .mapError fun _ => rfl) fun _ _ =>
    .bind (.mapM fun _ _ => .mapError fun _ => rfl) fun _ _ => .ok _

/-- All names that the fields of definitions ask for are there: those of the tables that relations
lead to, also in components that are embedded, and those of the ways back of junctions. -/
def Definitions.Named (d : Definitions) (settings : BuildSettings) : Prop :=
  (∀ m ∈ d.models, ∀ f ∈ m.storedFields, f.NamesTable settings) ∧
    ∀ m ∈ d.models, ∀ f ∈ m.storedFields, f.NamesAdditions settings d.components

theorem Definitions.Valid.succeedsIff_compileModels {d : Definitions} (hd : d.Valid)
    (settings : BuildSettings) :
    SucceedsIff (compileModels d.models d.components settings) (d.Named settings) :=
  ContentSchema.succeedsIff_compileModels hd.models fun e he => (hd.components e he).1

theorem Staged.outcome_bind_eq_error {α β : Type} {x : Staged α} {next : α → Staged β}
    {f : Failure} : (x >>= next).outcome = .error f ↔
      x.outcome = .error f ∨ ∃ a, x.outcome = .ok a ∧ (next a).outcome = .error f := by
  rw [outcome_bind]
  exact bind_eq_error

namespace Config

variable {c : Config} {s : Surroundings} {f : Failure}

theorem schemaText_eq_error {schema : Schema} :
    schemaText schema = .error f ↔ schema.holdsOversized = true ∧ f = .slip .oversizedNumber := by
  unfold schemaText
  cases schema.holdsOversized <;> simp [eq_comm]

/-- A reading of definitions that fails without words does so before they are validated. -/
theorem rawDefinitions_eq_error_of_definitions (hf : f.isExpected = false)
    (h : (c.definitions s).outcome = .error f) : (c.rawDefinitions s).outcome = .error f := by
  rcases Staged.outcome_bind_eq_error.1 h with hraw | ⟨raw, -, hvalidate⟩
  · exact hraw
  · rw [raw.failsOnly_validate f hvalidate] at hf
    cases hf

/-- A run fails where its definitions, their compilation or the text of the schema do. -/
theorem generate_eq_error_iff : (c.generate s).outcome = .error f ↔
    (c.definitions s).outcome = .error f ∨
      ∃ d, (c.definitions s).outcome = .ok d ∧
        ((∃ e, compileModels d.models d.components (c.runSettings s) = .error e ∧
          f = .compile e) ∨
        ∃ compilation, compileModels d.models d.components (c.runSettings s) = .ok compilation ∧
          schemaText (c.schemaOf s compilation) = .error f) := by
  show (c.run s).outcome = _ ↔ _
  constructor
  · intro h
    rcases Staged.outcome_bind_eq_error.1 h with hsource | ⟨_, -, h⟩
    · have hraw : (c.rawDefinitions s).outcome = .error f :=
        Staged.outcome_bind_eq_error.2 (.inl hsource)
      exact .inl (Staged.outcome_bind_eq_error.2 (.inl hraw))
    rcases Staged.outcome_bind_eq_error.1 h with hstage | ⟨_, -, h⟩
    · cases hstage
    rcases Staged.outcome_bind_eq_error.1 h with hd | ⟨d, hd, h⟩
    · exact .inl hd
    refine .inr ⟨d, hd, ?_⟩
    rcases Staged.outcome_bind_eq_error.1 h with hcompile | ⟨compilation, hcompile, h⟩
    · obtain ⟨e, he, rfl⟩ := mapError_eq_error.1 ((outcome_compile c d _).symm.trans hcompile)
      exact .inl ⟨e, he, rfl⟩
    refine .inr ⟨compilation, mapError_eq_ok.1 ((outcome_compile c d _).symm.trans hcompile), ?_⟩
    rcases Staged.outcome_bind_eq_error.1 h with hstage | ⟨_, -, h⟩
    · cases hstage
    rcases Staged.outcome_bind_eq_error.1 h with htext | ⟨_, -, h⟩
    · exact htext
    · cases h
  · rintro (h | ⟨d, hd, ⟨e, he, rfl⟩ | ⟨compilation, hcompilation, htext⟩⟩)
    · cases hsource : c.inputSource with
      | error fault =>
        simpa [run, definitions, rawDefinitions, hsource] using h
      | ok source =>
        rw [run, hsource, Staged.outcome_bind_eq_error]
        refine .inr ⟨source, rfl, Staged.outcome_bind_eq_error.2 (.inr ⟨(), rfl, ?_⟩)⟩
        exact Staged.outcome_bind_eq_error.2 (.inl h)
    · rcases bind_eq_error.1 he with hown | ⟨own, hown, h⟩
      · exact congrArg Staged.outcome (StopsAt.own hd hown).run_eq
      rcases bind_eq_error.1 h with hadditions | ⟨_, -, h⟩
      · exact congrArg Staged.outcome (StopsAt.additions hd hown hadditions).run_eq
      · cases h
    · exact congrArg Staged.outcome (StopsAt.text hd hcompilation htext).run_eq

end Config

end ContentSchema
