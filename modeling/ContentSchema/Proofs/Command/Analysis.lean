import ContentSchema.Command.Run
import ContentSchema.Proofs.Compilation.Merging
import ContentSchema.Proofs.Files.Access
import ContentSchema.Proofs.Run.Sources
import ContentSchema.Proofs.Run.Stages

/-!
# What an analysis foretells

An analysis lists the tables that models compile to, and a run makes these tables as well.  But a
run merges them, so that of several tables with one name the last one takes the place of the first,
and an analysis lists all of them.

* `Command.run_analyze`: what an analysis shows.
* `Command.outlines_generate`: the tables of a run are the listed ones merged, and are the listed
  ones exactly if no name is listed twice.
-/

namespace ContentSchema

/-- What an analysis tells of a table: its name and the number of its columns. -/
def Table.outline (t : Table) : String × Nat := (t.name, t.columns.length)

/-- Merging tables merges their outlines by name. -/
theorem outline_mergeTables (tables : List Table) : (mergeTables [] tables).1.map Table.outline =
    (tables.map Table.outline).foldl (putBy Prod.fst) [] := by
  have hput : (tables.map Table.outline).foldl (putBy Prod.fst) ([].map Table.outline) =
      (tables.foldl (putBy Table.name) []).map Table.outline :=
    foldl_putBy_map (fun _ => rfl) tables []
  exact hput.symm

/-- Tables keep their outlines when they are merged exactly if their names are distinct. -/
theorem outline_mergeTables_eq_iff {tables : List Table} :
    tables.map Table.outline = (mergeTables [] tables).1.map Table.outline ↔
      (tables.map (·.name)).Nodup := by
  constructor
  · intro h
    have hnames := congrArg (List.map Prod.fst) h
    rw [List.map_map, List.map_map] at hnames
    show (tables.map (Prod.fst ∘ Table.outline)).Nodup
    rw [hnames]
    exact nodup_names_mergeTables
  · intro h
    have hmerge : mergeTables [] tables = ([] ++ tables, []) := mergeTables_eq_append_iff.2 h
    rw [hmerge, List.nil_append]

namespace Command

variable {library : Library} {s : Surroundings} {input : List Char} {path : String} {c : Config}

/-- An analysis shows what the definitions of a configuration compile to. -/
theorem run_analyze {d : Definitions} {compilation : Compilation}
    (hc : Config.load library s.files path = .ok c) (hd : (c.definitions s).outcome = .ok d)
    (hcompilation : compileModels d.models d.components (c.runSettings s) = .ok compilation) :
    (analyze path).run library s input =
      ⟨analysisText c d compilation.tables, .finished 0 "", s.files⟩ := by
  have hcompile : (c.compile d (externalNames c s)).outcome = .ok compilation := by
    rw [Config.outcome_compile]
    exact mapError_eq_ok.2 hcompilation
  have hanalysis : analysis library s path = .ok (analysisText c d compilation.tables, 0) := by
    rw [analysis, hc]
    exact bind_eq_ok.2 ⟨c, rfl, bind_eq_ok.2 ⟨d, hd, bind_eq_ok.2 ⟨compilation, hcompile, rfl⟩⟩⟩
  rw [run, hanalysis]
  rfl

end Command

/-- If a run without external tables succeeds, then an analysis lists the tables that the definitions
compile to.  The run makes these tables, but of those with one name the last one takes the place of
the first; it makes what is listed exactly if no name is listed twice. -/
theorem Command.outlines_generate {library : Library} {s : Surroundings} {input : List Char}
    {path : String} {c : Config} {g : Generation} (hc : Config.load library s.files path = .ok c)
    (hexternal : c.externalTables s = []) (hg : (c.generate s).outcome = .ok g) :
    ∃ d compilation, (c.definitions s).outcome = .ok d ∧
      compileModels d.models d.components (c.runSettings s) = .ok compilation ∧
      (analyze path).run library s input =
        ⟨analysisText c d compilation.tables, .finished 0 "", s.files⟩ ∧
      g.tables.map Table.outline =
        (compilation.tables.map Table.outline).foldl (putBy Prod.fst) [] ∧
      (compilation.tables.map Table.outline = g.tables.map Table.outline ↔
        (compilation.tables.map (·.name)).Nodup) := by
  obtain ⟨d, compilation, hd, hcompilation, htables, -⟩ := Config.generate_eq_ok hg
  rw [hexternal] at htables
  refine ⟨d, compilation, hd, hcompilation, run_analyze hc hd hcompilation, ?_, ?_⟩
  · rw [htables, outline_mergeTables]
  · rw [htables, outline_mergeTables_eq_iff]

/-! ### A listing with a name twice -/

/-- A model whose table has the name of the table that the teaser of an article becomes. -/
def rawIntro : Value := .object [
  ("slug", .text "article-intro"), ("name", .text "Intro"),
  ("fields", .list [
    .object [("key", .text "note"), ("label", .text "Note"), ("type", .text "text")]])]

/-- A loader of articles and intros. -/
def introLoader : Hook where
  name := "load"
  call _ := .ok (.object [
    ("models", .list [rawArticle [], rawIntro]), ("components", .list [rawTeaser []])])

/-- The loader is the one hook. -/
def introLibrary : Library := [("hooks", .ok [("load", .hook introLoader)])]

/-- The text of a configuration with the loader. -/
def introText : String := "\x7b\"input\": \x7b\"loader\": \"hooks:load\"\x7d\x7d"

/-- The configuration is in a file, and there are no other files. -/
def introSurroundings : Surroundings :=
  { nothing with files := ⟨[], [(["c.json"], .file introText.toUTF8.toList)]⟩ }

/-- The configuration with the loader. -/
def introConfig : Config := { givenArticles with input := some ⟨none, none, some introLoader⟩ }

set_option maxRecDepth 20000 in
theorem read_introText : Json.read introText.toList =
    .ok (.object [("input", .object [("loader", .text "hooks:load")])]) := by cbv

theorem readObject_introSurroundings : introSurroundings.files.readObject (.ofText "c.json") =
    .ok [("input", .object [("loader", .text "hooks:load")])] :=
  FileSystem.readObject_of_json (by decide +kernel)
    (show _ = Except.ok introText.toList by decide +kernel) read_introText

theorem load_introSurroundings :
    Config.load introLibrary introSurroundings.files "c.json" = .ok introConfig := by
  rw [Config.load, readObject_introSurroundings]
  rfl

set_option maxRecDepth 4000 in
theorem exists_generate_introConfig :
    ∃ g, (introConfig.generate introSurroundings).outcome = .ok g := ⟨_, rfl⟩

set_option maxRecDepth 4000 in
theorem exists_compileModels_introConfig : ∃ d compilation,
    (introConfig.definitions introSurroundings).outcome = .ok d ∧
      compileModels d.models d.components (introConfig.runSettings introSurroundings) =
        .ok compilation ∧
      compilation.tables.map Table.outline =
        [("Article", 6), ("ArticleIntro", 8), ("ArticleIntro", 4)] := by
  refine ⟨_, _, rfl, rfl, ?_⟩
  decide +kernel

/-- An analysis lists the table of the teaser and the one of the intro, which have one name; the run
makes one table of them. -/
theorem outlines_introConfig : ∃ c g d, ∃ compilation : Compilation,
    Config.load introLibrary introSurroundings.files "c.json" = .ok c ∧
    (c.generate introSurroundings).outcome = .ok g ∧
    (Command.analyze "c.json").run introLibrary introSurroundings [] =
      ⟨Command.analysisText c d compilation.tables, .finished 0 "", introSurroundings.files⟩ ∧
    compilation.tables.map Table.outline =
      [("Article", 6), ("ArticleIntro", 8), ("ArticleIntro", 4)] ∧
    g.tables.map Table.outline = [("Article", 6), ("ArticleIntro", 4)] := by
  obtain ⟨g, hg⟩ := exists_generate_introConfig
  obtain ⟨d, compilation, hd, hcompilation, hrun, hmerged, -⟩ :=
    Command.outlines_generate load_introSurroundings rfl hg
  obtain ⟨d', compilation', hd', hcompilation', houtlines⟩ := exists_compileModels_introConfig
  obtain rfl := Except.ok.inj (hd.symm.trans hd')
  obtain rfl := Except.ok.inj (hcompilation.symm.trans hcompilation')
  refine ⟨introConfig, g, d, compilation, load_introSurroundings, hg, hrun, houtlines, ?_⟩
  rw [hmerged, houtlines]
  decide

end ContentSchema
