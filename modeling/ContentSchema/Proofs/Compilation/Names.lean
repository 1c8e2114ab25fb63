import ContentSchema.Proofs.Compilation.Locality
import ContentSchema.Proofs.Definition.Valid
import ContentSchema.Proofs.Naming.Labels
import ContentSchema.Proofs.Run.Definitions

/-!
# Distinct names of tables

Every table of a compilation that is no junction has a label, which models and components tell
(`ContentModel.labels`, `map_name_filter_tables`).  All tables have names of their own exactly if the
stems of their labels are distinct and no junction has the name of another table
(`nodup_names_iff`): names forget the difference of `blog-post` and `blog_post`.
-/

namespace ContentSchema

/-! ### Labels of models -/

/-- The labels of a table and of its translations, if fields move to them. -/
def TableLabel.pair (slug : String) (key : Option String) (moved : List Field) : List TableLabel :=
  ⟨slug, key, false⟩ :: if moved.isEmpty then [] else [⟨slug, key, true⟩]

namespace ContentModel

/-- The labels of the component that a field embeds, if there is one. -/
def embeddedLabels (m : ContentModel) (components : Components) (settings : BuildSettings)
    (f : Field) : List TableLabel :=
  match f.component?.bind fun c => components.find? c.slug with
  | some component =>
    TableLabel.pair m.slug (some f.key) (component.movedFields (m.effectiveSettings settings))
  | none => []

/-- The labels of the tables that a model makes, but for junctions. -/
def labels (m : ContentModel) (components : Components) (settings : BuildSettings) :
    List TableLabel :=
  TableLabel.pair m.slug none (m.movedFields (m.effectiveSettings settings)) ++
    m.storedFields.flatMap (m.embeddedLabels components settings)

variable {m : ContentModel} {components : Components} {settings : BuildSettings} {f : Field}
  {ts : List Table}

theorem spelled_of_mem_labels (h : m.Valid) {l : TableLabel}
    (hl : l ∈ m.labels components settings) : l.Spelled := by
  have hpair : ∀ {key : Option String} {moved : List Field},
      (∀ k ∈ key, Reader.isSlug k = true) → l ∈ TableLabel.pair m.slug key moved → l.Spelled := by
    intro key moved hkey hl
    rcases List.mem_cons.1 hl with rfl | hl
    · exact ⟨h.slug, hkey⟩
    · split at hl
      · cases hl
      · rw [List.mem_singleton.1 hl]
        exact ⟨h.slug, hkey⟩
  rcases List.mem_append.1 hl with hl | hl
  · exact hpair (by simp) hl
  · obtain ⟨f, hf, hl⟩ := List.mem_flatMap.1 hl
    have hkey : Reader.isSlug f.key = true := (h.fields f (List.mem_of_mem_filter hf)).slug
    rw [embeddedLabels] at hl
    split at hl
    · refine hpair (fun k hk => ?_) hl
      cases hk
      exact hkey
    · cases hl

/-- A table with its translations, if there are any, has the names of the pair. -/
theorem map_name_pair {slug : String} {key : Option String} {moved : List Field} {base : Table}
    {settings' : BuildSettings} {mapName : Option String}
    (hbase : base.name = (TableLabel.mk slug key false).name settings)
    (h : (moved = [] ∧ ts = [base]) ∨ (moved ≠ [] ∧ ∃ t,
      translationTable base.name moved settings' mapName = .ok t ∧ ts = [base, t])) :
    ts.map (·.name) = (TableLabel.pair slug key moved).map (·.name settings) := by
  rcases h with ⟨rfl, rfl⟩ | ⟨hmoved, t, ht, rfl⟩
  · exact congrArg (fun name => [name]) hbase
  · obtain ⟨_, _, -, -, rfl⟩ := translationTable_eq_ok ht
    have hempty : moved.isEmpty = false := by simpa using hmoved
    rw [TableLabel.pair, hempty, if_neg Bool.false_ne_true, List.map_cons, List.map_cons,
      List.map_cons, List.map_cons, ← hbase]
    refine congrArg (fun name => [base.name, name]) ?_
    show Naming.translationModelName base.name = Naming.translationModelName _
    rw [hbase]
    rfl

theorem map_name_tables {available : Option (List String)}
    (h : m.tables settings available = .ok ts) :
    ts.map (·.name) = (TableLabel.pair m.slug none
      (m.movedFields (m.effectiveSettings settings))).map (·.name settings) := by
  obtain ⟨-, columns, -, hts⟩ := tables_eq_ok h
  exact map_name_pair (m.tableName_eq settings) hts

theorem map_name_component {c : ComponentConfig} {component : Component}
    (h : component.tables (m.embedding settings f c) (m.effectiveSettings settings) = .ok ts) :
    ts.map (·.name) = (TableLabel.pair m.slug (some f.key)
      (component.movedFields (m.effectiveSettings settings))).map (·.name settings) := by
  obtain ⟨-, columns, toOwner, -, -, hts⟩ := Component.tables_eq_ok h
  refine map_name_pair ?_ hts
  obtain ⟨translated, heq⟩ := m.effectiveSettings_eq settings
  show (m.embedding settings f c).tableName (m.effectiveSettings settings) = _
  rw [Embedding.tableName, embedding, tableName_eq, heq]
  rfl

/-- The tables that a field adds have the names of its labels, but for a junction. -/
theorem map_name_additionOf {addition : Option Addition}
    (h : m.additionOf (m.effectiveSettings settings) components (m.tableName settings) f =
      .ok addition) :
    ((addition.toList.flatMap (·.tables)).filter (!·.isJunction)).map (·.name) =
      (m.embeddedLabels components settings f).map (·.name settings) := by
  rcases additionOf_eq_ok h with
    ⟨hc, -, rfl⟩ | ⟨c, hc, hfind, rfl⟩ | ⟨c, component, ts, hc, hfind, hts, rfl⟩ |
      ⟨hc, table, htable, rfl⟩
  · simp [embeddedLabels, hc]
  · simp [embeddedLabels, hc, hfind, Addition.tables]
  · have hother : ∀ t ∈ ts, t.isJunction = false := fun t ht =>
      Table.isJunction_eq_false_iff.2 (Component.oneSided_of_tables hts t ht)
    have htables : ((some (Addition.component ts)).toList.flatMap (·.tables)).filter
        (!·.isJunction) = ts := by
      rw [Option.toList_some, List.flatMap_singleton]
      exact List.filter_eq_self.2 fun t ht => by rw [hother t ht, Bool.not_false]
    rw [htables, map_name_component (c := c) hts, embeddedLabels, hc, Option.bind_some, hfind]
  · obtain ⟨_, _, _, _, _, _, rfl, -⟩ := Field.junctionTable_eq_ok htable
    simp [embeddedLabels, hc, Addition.tables, Table.isJunction, junctionTableOf]

end ContentModel

/-! ### Labels of a compilation -/

section Compilation

variable {models : List ContentModel} {components : Components} {settings : BuildSettings}
  {compilation : Compilation} {m : ContentModel} {part : Part} {parts : List Part}
  {name : String}

/-- What is told of the additions of a model one by one is told by its fields. -/
theorem flatMap_additions {β : Type} {p : Addition → List β} {q : Field → List β}
    {found : List Addition} (h : m.additions settings components = .ok found)
    (hq : ∀ f addition, m.additionOf (m.effectiveSettings settings) components
      (m.tableName settings) f = .ok addition → addition.toList.flatMap p = q f) :
    found.flatMap p = m.storedFields.flatMap q := by
  obtain ⟨all, hall, h⟩ := bind_eq_ok.1 h
  cases h
  have hfields : all.map (·.toList.flatMap p) = m.storedFields.map q :=
    map_eq_map_of_forall₂ (mapM_eq_ok.1 hall) fun f _ addition h => hq f addition h
  have hfilter : ∀ all : List (Option Addition),
      (all.filterMap id).flatMap p = (all.map (·.toList.flatMap p)).flatten := by
    intro all
    induction all with
    | nil => rfl
    | cons addition all ih =>
      cases addition with
      | none => exact ih
      | some a => simpa using ih
  rw [hfilter, hfields, List.flatMap_def]

/-- The tables of a part that are no junctions have the names of the model's labels. -/
theorem ContentModel.HasPart.map_name (h : m.HasPart components settings part) :
    (((wholeAdditions part).flatMap (·.tables)).filter (!·.isJunction)).map (·.name) =
      (m.labels components settings).map (·.name settings) := by
  have hown : part.1.filter (!·.isJunction) = part.1 := List.filter_eq_self.2 fun t ht => by
    rw [Table.isJunction_eq_false_iff.2 (oneSided_of_tables h.own t ht), Bool.not_false]
  have hadditions : ((part.2.flatMap (·.tables)).filter (!·.isJunction)).map (·.name) =
      (m.storedFields.flatMap (m.embeddedLabels components settings)).map (·.name settings) := by
    rw [List.filter_flatMap, List.map_flatMap, List.map_flatMap]
    refine flatMap_additions h.additions fun f addition haddition => ?_
    rw [← map_name_additionOf haddition, List.filter_flatMap, List.map_flatMap]
  rw [wholeAdditions, List.flatMap_cons, List.filter_append, List.map_append, hadditions, labels,
    List.map_append, ← map_name_tables h.own]
  exact congrArg (· ++ _) (congrArg (List.map _) hown)

/-- The tables that are no junctions have the names of the models' labels, in order. -/
theorem map_name_filter_tables
    (h : compileModels models components settings = .ok compilation) :
    (compilation.tables.filter (!·.isJunction)).map (·.name) =
      (models.flatMap (·.labels components settings)).map (·.name settings) := by
  obtain ⟨parts, hparts, htables⟩ := exists_tables_eq_of_compileModels h
  rw [htables, filter_eraseDupsBy_repeats]
  clear h htables
  induction hparts with
  | nil => rfl
  | cons hm _ ih =>
    rw [List.flatMap_cons, List.flatMap_append, List.filter_append, List.map_append, ih,
      hm.map_name, List.flatMap_cons, List.map_append]

/-- The names of junctions are those that relations of the models ask for. -/
theorem mem_names_junctions_iff
    (h : compileModels models components settings = .ok compilation) :
    name ∈ (compilation.tables.filter (·.isJunction)).map (·.name) ↔
      ∃ j ∈ models.flatMap (·.junctions settings), j.name settings = name := by
  obtain ⟨parts, hparts, htables⟩ := exists_tables_eq_of_compileModels h
  have hmem : ∀ t, t ∈ ((parts.flatMap wholeAdditions).flatMap (·.tables)).filter (·.isJunction) ↔
      ∃ j ∈ models.flatMap (·.junctions settings), j.table settings = t := by
    intro t
    rw [List.mem_filter, ← mem_junctionTables_iff (proper_of_parts hparts),
      junctionTables_of_parts hparts, List.mem_map]
  rw [htables, mem_names_eraseDupsBy_repeats, List.mem_map]
  constructor
  · rintro ⟨t, ht, rfl⟩
    obtain ⟨j, hj, rfl⟩ := (hmem t).1 ht
    exact ⟨j, hj, rfl⟩
  · rintro ⟨j, hj, rfl⟩
    exact ⟨_, (hmem _).2 ⟨j, hj, rfl⟩, rfl⟩

theorem nodup_junctions (h : compileModels models components settings = .ok compilation) :
    ((compilation.tables.filter (·.isJunction)).map (·.name)).Nodup := by
  obtain ⟨_, -, htables⟩ := exists_tables_eq_of_compileModels h
  rw [htables]
  exact nodup_names_eraseDupsBy

/-- Texts made of labels are distinct exactly if their stems are. -/
theorem nodup_map_name_iff {labels : List TableLabel} (h : ∀ l ∈ labels, l.Spelled) :
    (labels.map (·.name settings)).Nodup ↔ (labels.map (·.stem settings)).Nodup := by
  rw [List.Nodup, List.Nodup, List.pairwise_map, List.pairwise_map]
  exact List.Pairwise.iff_of_mem fun hl hk => not_congr ((h _ hl).name_eq_iff (h _ hk))

/-- All tables have names of their own exactly if the stems of their labels are distinct and no
junction has the name of another table; junctions never have one name.  Exactly then merging keeps
all of them, and each table that it loses is a collision. -/
theorem nodup_names_iff (hvalid : ∀ m ∈ models, m.Valid)
    (h : compileModels models components settings = .ok compilation) :
    let labels := models.flatMap (·.labels components settings)
    let junctions := models.flatMap (·.junctions settings)
    ((compilation.tables.map (·.name)).Nodup ↔
      (labels.map (·.stem settings)).Nodup ∧
        ∀ j ∈ junctions, ∀ l ∈ labels, j.name settings ≠ l.name settings) ∧
    ((compilation.tables.map (·.name)).Nodup ↔
      mergeTables [] compilation.tables = (compilation.tables, [])) ∧
    (mergeTables [] compilation.tables).1.length + (mergeTables [] compilation.tables).2.length =
      compilation.tables.length := by
  have hspelled : ∀ l ∈ models.flatMap (·.labels components settings), l.Spelled := by
    intro l hl
    obtain ⟨m, hm, hl⟩ := List.mem_flatMap.1 hl
    exact ContentModel.spelled_of_mem_labels (hvalid m hm) hl
  have hperm : (compilation.tables.map (·.name)).Nodup ↔
      ((compilation.tables.filter (·.isJunction)).map (·.name) ++
        (compilation.tables.filter (!·.isJunction)).map (·.name)).Nodup := by
    rw [← List.map_append]
    exact ((List.filter_append_perm _ _).map _).nodup_iff.symm
  refine ⟨?_, (@mergeTables_eq_append_iff [] compilation.tables).symm, ?_⟩
  · rw [hperm, List.nodup_append, map_name_filter_tables h, nodup_map_name_iff hspelled,
      and_iff_right (nodup_junctions h)]
    refine and_congr_right fun _ => ?_
    simp only [mem_names_junctions_iff h, List.mem_map, forall_exists_index, and_imp,
      forall_apply_eq_imp_iff₂]
  · simpa using @length_mergeTables [] compilation.tables

end Compilation

/-- Posts with tags and with search texts, which are translated like their titles. -/
def rawTagged : RawDefinitions where
  models := [
    .object [
      ("slug", .text "blog-post"), ("name", .text "Post"),
      ("fields", .list [
        .object [("key", .text "title"), ("label", .text "Title"), ("type", .text "text")],
        .object [
          ("key", .text "search-texts"), ("label", .text "Search"), ("type", .text "component"),
          ("config", .object [("slug", .text "search")])],
        .object [("key", .text "tags"), ("label", .text "Tags"), ("type", .text "relation"),
          ("config", .object [
            ("relationType", .text "manyToMany"), ("targetModel", .text "tag")])]])]]
  components := [
    .object [
      ("slug", .text "search"), ("name", .text "Search"),
      ("fields", .list [
        .object [("key", .text "phrase"), ("label", .text "Phrase"), ("type", .text "text")]])]]
  warnings := []

/-- All five kinds of tables, each with a name of its own. -/
theorem nodup_names_rawTagged : ∃ d compilation, rawTagged.validate = .ok d ∧
    (∀ m ∈ d.models, m.Valid) ∧
    compileModels d.models d.components .standard = .ok compilation ∧
    compilation.tables.map (·.name) = ["BlogPost", "BlogPostTranslation", "BlogPostSearchText",
      "BlogPostSearchTextTranslation", "BlogPostTag"] ∧
    (compilation.tables.map (·.name)).Nodup := by
  obtain ⟨d, compilation, hd, hcompilation, hnames, hlabels⟩ : ∃ d compilation,
      rawTagged.validate = .ok d ∧
      compileModels d.models d.components .standard = .ok compilation ∧
      compilation.tables.map (·.name) = ["BlogPost", "BlogPostTranslation", "BlogPostSearchText",
        "BlogPostSearchTextTranslation", "BlogPostTag"] ∧
      ((d.models.flatMap (·.labels d.components .standard)).map (·.stem .standard)).Nodup ∧
        ∀ j ∈ d.models.flatMap (·.junctions .standard),
          ∀ l ∈ d.models.flatMap (·.labels d.components .standard),
            j.name .standard ≠ l.name .standard :=
    ⟨_, _, rfl, rfl, by decide +kernel, by decide +kernel⟩
  have hvalid := (Definitions.valid_of_validate hd).models
  exact ⟨d, compilation, hd, hvalid, hcompilation, hnames,
    (nodup_names_iff hvalid hcompilation).1.2 hlabels⟩

/-- Two models whose slugs differ in their hyphen only. -/
def rawTwins : RawDefinitions where
  models := [
    .object [
      ("slug", .text "blog-post"), ("name", .text "Post"),
      ("fields", .list [
        .object [("key", .text "views"), ("label", .text "Views"), ("type", .text "number")]])],
    .object [
      ("slug", .text "blog_post"), ("name", .text "Old Post"),
      ("fields", .list [
        .object [("key", .text "visits"), ("label", .text "Visits"), ("type", .text "number")]])]]
  components := []
  warnings := []

/-- Different slugs, one name: merging loses a table. -/
theorem not_nodup_names_rawTwins : ∃ d compilation, rawTwins.validate = .ok d ∧
    (d.models.map (·.slug)).Nodup ∧
    compileModels d.models d.components .standard = .ok compilation ∧
    ¬ (compilation.tables.map (·.name)).Nodup ∧
    (mergeTables [] compilation.tables).1.length < compilation.tables.length :=
  ⟨_, _, rfl, by decide +kernel, rfl, by decide +kernel, by decide +kernel⟩

end ContentSchema
