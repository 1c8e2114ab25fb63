import ContentSchema.Proofs.Run.Indifference

/-!
# Sources of definitions

The same definitions may be given in a configuration, come from a loader or be stored in the rows of
two tables.

* `Row.Holds.decode_eq`: a row holds a definition as it is or as a text that reads as it.
* `Config.Supplies.rawDefinitions_eq`: without mappers, a source hands over what it supplies, in
  order.
* `generate_eq_of_supplies`: what a run makes of definitions does not depend on their source.
-/

namespace ContentSchema

/-- A row holds a definition: its column has the object itself, or a text that reads as it. -/
inductive Row.Holds : Value → Value → Prop where
  /-- The column has the object. -/
  | object {row definition : Entries} (h : row.find? definitionColumn = some (.object definition)) :
    Holds (.object row) (.object definition)
  /-- The column has a text. -/
  | text {row : Entries} {s : String} {v : Value} (h : row.find? definitionColumn = some (.text s))
    (hread : Json.read s.toList = .ok v) : Holds (.object row) v

theorem Row.Holds.decode_eq {row v : Value} (h : Row.Holds row v) : Row.decode row = .ok v := by
  cases h with
  | object h =>
    rw [decode, Value.get?, h]
    rfl
  | text h hread =>
    rw [decode, Value.get?, h]
    simp only [Option.getD_some, readPayload, hread]
    rfl

/-- A list has its items as members, also if it has none. -/
theorem Value.members_list (items : List Value) : (Value.list items).members = .ok items := by
  cases items <;> rfl

theorem RowSource.rows_eq_ok {source : RowSource} {table : String} {rows : List Value}
    (h : source.find table = .ok (.list rows)) : source.rows table = .ok rows :=
  bind_eq_ok.2 ⟨_, h, Value.members_list rows⟩

/-! ### What a source supplies -/

/-- A configuration supplies models and components from one of the three sources. -/
inductive Config.Supplies (c : Config) (s : Surroundings) (models components : List Value) :
    Prop where
  /-- They are given. -/
  | given {input : InputSection} (hsource : c.inputSource = .ok .direct)
    (hinput : c.input = some input) (hmodels : input.models = some models)
    (hcomponents : input.components.getD [] = components)
  /-- A loader gives them. -/
  | loaded {input : InputSection} {loader : Hook} {entries : Entries}
    (hsource : c.inputSource = .ok .loader) (hinput : c.input = some input)
    (hloader : input.loader = some loader) (hcall : loader.call none = .ok (.object entries))
    (hmodels : entries.find? "models" = some (.list models))
    (hcomponents : entries.find? "components" = some (.list components))
  /-- The rows of two tables hold them. -/
  | stored {source : RowSource} {table : String} {rows more : List Value}
    (hsource : c.inputSource = .ok .database) (hrows : c.rowSource s = .ok source)
    (hmodels : source.find c.tables.models = .ok (.list rows))
    (hheld : List.Forall₂ Row.Holds rows models)
    (htable : c.tables.components = some table) (hne : table ≠ "")
    (hcomponents : source.find table = .ok (.list more))
    (hmore : List.Forall₂ Row.Holds more components)

namespace Config

variable {c c' : Config} {s s' : Surroundings} {models components : List Value}

/-- Items that stand for themselves go through unchanged. -/
theorem mapItems_of_ne_database (hmapper : c.mapper = .none) {source : InputSource}
    (hsource : source ≠ .database) (items : RawDefinitions) :
    c.mapItems source items = .ok items := by
  have hall : ∀ kind (l : List Value), l.mapM (c.rawDefinition source kind) = .ok l :=
    fun kind l => mapM_eq_ok.2
      (List.forall₂_same.2 fun v _ => rawDefinition_of_ne_database hmapper hsource kind v)
  rw [mapItems, hall, hall]
  rfl

/-- Rows go through as what they hold. -/
theorem mapItems_database (hmapper : c.mapper = .none) {rows more : List Value}
    (hheld : List.Forall₂ Row.Holds rows models) (hmore : List.Forall₂ Row.Holds more components)
    (warnings : List Warning) :
    c.mapItems .database ⟨rows, more, warnings⟩ = .ok ⟨models, components, warnings⟩ := by
  have hall : ∀ kind {rows vs : List Value}, List.Forall₂ Row.Holds rows vs →
      rows.mapM (c.rawDefinition .database kind) = .ok vs :=
    fun kind rows vs h => mapM_eq_ok.2 (h.imp fun row v hv => by
      rw [rawDefinition_database hmapper, hv.decode_eq])
  rw [mapItems, hall _ hheld, hall _ hmore]
  rfl

/-- What is fetched and mapped with success is what the stages of reading lead to. -/
theorem rawDefinitions_eq_of_fetch {source : InputSource} {items raw : RawDefinitions}
    (hsource : c.inputSource = .ok source) (hfetch : c.fetch s source = .ok items)
    (hmap : c.mapItems source items = .ok raw) :
    c.rawDefinitions s = ⟨[.readingSource, .applyingMapper], .ok raw⟩ := by
  rw [rawDefinitions, hsource]
  show (Staged.enter .readingSource >>= fun _ => Staged.ofOutcome (c.fetch s source) >>=
    fun items => Staged.enter .applyingMapper >>= fun _ =>
      Staged.ofOutcome (c.mapItems source items)) = _
  rw [hfetch]
  show (Staged.enter .readingSource >>= fun _ => Staged.enter .applyingMapper >>= fun _ =>
    Staged.ofOutcome (c.mapItems source items)) = _
  rw [hmap]
  rfl

/-- Without mappers, a source hands over what it supplies, and nothing goes wrong on the way. -/
theorem Supplies.rawDefinitions_eq (h : c.Supplies s models components)
    (hmapper : c.mapper = .none) : c.rawDefinitions s =
      ⟨[.readingSource, .applyingMapper], .ok ⟨models, components, []⟩⟩ := by
  cases h with
  | given hsource hinput hmodels hcomponents =>
    refine rawDefinitions_eq_of_fetch hsource ?_ (mapItems_of_ne_database hmapper (by decide) _)
    rw [fetch, hinput]
    dsimp only [Option.bind_some]
    rw [hmodels, hcomponents, Option.getD_some]
  | loaded hsource hinput hloader hcall hmodels hcomponents =>
    refine rawDefinitions_eq_of_fetch hsource ?_ (mapItems_of_ne_database hmapper (by decide) _)
    rw [fetch, hinput, Option.bind_some, hloader]
    refine bind_eq_ok.2 ⟨_, mapError_eq_ok.2 hcall, ?_⟩
    dsimp only
    rw [hmodels, hcomponents]
    exact bind_eq_ok.2 ⟨_, Value.members_list models,
      bind_eq_ok.2 ⟨_, Value.members_list components, rfl⟩⟩
  | stored hsource hrows hmodels hheld htable hne hcomponents hmore =>
    refine rawDefinitions_eq_of_fetch hsource ?_ (mapItems_database hmapper hheld hmore [])
    refine bind_eq_ok.2 ⟨_, hrows, bind_eq_ok.2 ⟨_, RowSource.rows_eq_ok hmodels, ?_⟩⟩
    dsimp only
    rw [htable, Option.getD_some, if_neg hne]
    refine bind_eq_ok.2 ⟨(_, []), ?_, rfl⟩
    rw [componentRows, RowSource.rows_eq_ok hcomponents]

theorem Supplies.exists_inputSource (h : c.Supplies s models components) :
    ∃ source, c.inputSource = .ok source := by
  cases h with
  | given hsource | loaded hsource | stored hsource => exact ⟨_, hsource⟩

/-- Runs without mappers over the same definitions and files go through the same stages to the same
outcome, whether the definitions are given, loaded or stored. -/
theorem generate_eq_of_supplies (h : c.Supplies s models components)
    (h' : c'.Supplies s' models components)
    (hrest : c' = { c with connection := c'.connection, input := c'.input, tables := c'.tables })
    (hfiles : s'.files = s.files) (hmapper : c.mapper = .none) :
    c.generate s = c'.generate s' := by
  obtain ⟨connection, input, tables, rfl⟩ : ∃ connection input tables,
      c' = { c with connection := connection, input := input, tables := tables } :=
    ⟨_, _, _, hrest⟩
  obtain ⟨source, hsource⟩ := h.exists_inputSource
  obtain ⟨source', hsource'⟩ := h'.exists_inputSource
  have hraw := (h.rawDefinitions_eq hmapper).trans (h'.rawDefinitions_eq hmapper).symm
  have hfound : c.definitions s = definitions _ s' := congrArg (· >>= _) hraw
  rw [generate, generate, run, run, hsource, hsource', hfound, hfiles]
  rfl

end Config

/-! ### Articles from three sources -/

/-- A loader of articles. -/
def articleLoader : Hook where
  name := "articles"
  call _ := .ok (.object [
    ("models", .list [rawArticle []]), ("components", .list [rawTeaser []])])

/-- The text of the teaser. -/
def teaserText : String :=
  "\x7b\"slug\": \"teaser\", \"name\": \"Teaser\", \"fields\": [" ++
    "\x7b\"key\": \"text\", \"label\": \"Text\", \"type\": \"text\"\x7d]\x7d"

/-- Rows of articles, which are stored as they are, and of teasers, which are stored as texts. -/
def articleRows : RowSource where
  find table := .ok (.list (
    if table = "model" then [.object [("definition", rawArticle [])]]
    else [.object [("id", .int 7), ("definition", .text teaserText)]]))

/-- The articles are given. -/
def givenArticles : Config := configWith (rawArticle []) (rawTeaser [])

/-- The articles are loaded. -/
def loadedArticles : Config :=
  { givenArticles with input := some ⟨none, none, some articleLoader⟩ }

/-- The articles are stored. -/
def storedArticles : Config :=
  { givenArticles with
    connection := some "sqlite://", input := none, tables := ⟨"model", some "component"⟩ }

set_option maxRecDepth 20000 in
theorem read_teaserText : Json.read teaserText.toList = .ok (rawTeaser []) := by cbv

theorem supplies_storedArticles :
    storedArticles.Supplies { nothing with injected := some articleRows } [rawArticle []]
      [rawTeaser []] :=
  .stored rfl rfl rfl (.cons (.object rfl) .nil) rfl (by decide) rfl
    (.cons (.text rfl read_teaserText) .nil)

/-- The three runs over articles make the same tables. -/
theorem generate_storedArticles :
    givenArticles.generate nothing = loadedArticles.generate nothing ∧
      givenArticles.generate nothing =
        storedArticles.generate { nothing with injected := some articleRows } ∧
      ∃ g, (givenArticles.generate nothing).outcome = .ok g ∧
        g.tableNames = ["Article", "ArticleIntro"] := by
  have hgiven : givenArticles.Supplies nothing [rawArticle []] [rawTeaser []] :=
    .given rfl rfl rfl rfl
  have hloaded : loadedArticles.Supplies nothing [rawArticle []] [rawTeaser []] :=
    .loaded rfl rfl rfl rfl rfl rfl
  refine ⟨?_, ?_, exists_generate_rawArticle⟩
  · exact Config.generate_eq_of_supplies hgiven hloaded rfl rfl rfl
  · exact Config.generate_eq_of_supplies hgiven supplies_storedArticles rfl rfl rfl

end ContentSchema
