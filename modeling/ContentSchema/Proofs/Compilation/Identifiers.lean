import ContentSchema.Proofs.Compilation.Names
import ContentSchema.Proofs.Schema.Parsed

/-!
# Names that can head a block

The header of a block names a word (`Table.wordy_iff_header?`).  Compiled tables always have a name,
and all of these are words unless a hyphen is left in one (`wordy_names_iff`): `snake_case` keeps
those in the keys of fields that embed components, and an external table that a relation leads to is
taken by its name as it is.
-/

namespace ContentSchema

open Text

/-! ### Names of labels -/

namespace TableLabel.Spelled

variable {l : TableLabel} {settings : BuildSettings}

/-- The name of a table is a word unless a key keeps its hyphen. -/
theorem wordy_name_iff (h : l.Spelled) (hlead : ∀ lead ∈ settings.lead, Wordy lead.toList) :
    Wordy (l.name settings).toList ↔
      (settings.convention = .snakeCase → ∀ key ∈ l.key, '-' ∉ key.toList) := by
  have hbase : Wordy (settings.tableName l.slug).toList :=
    BuildSettings.wordy_tableName hlead h.slug
  have howner : Wordy (l.owner settings).toList ↔
      (settings.convention = .snakeCase → ∀ key ∈ l.key, '-' ∉ key.toList) := by
    rw [owner]
    cases hkey : l.key with
    | none => simpa using hbase
    | some key =>
      have hhandle := Naming.handle_of_isSlug (h.key key hkey)
      rw [Naming.wordy_componentTableName_iff hhandle, and_iff_right hbase]
      simp
  rw [name]
  split
  · rw [Naming.wordy_translationModelName_iff, howner]
  · exact howner

theorem telling_name (h : l.Spelled) : Naming.Telling (l.name settings) := by
  have hbase : Naming.Telling (settings.tableName l.slug) :=
    BuildSettings.telling_tableName h.slug
  have howner : Naming.Telling (l.owner settings) := by
    rw [owner]
    cases l.key with
    | none => exact hbase
    | some key => exact hbase.componentTableName key _
  rw [name]
  split
  · exact howner.append_right _
  · exact howner

end TableLabel.Spelled

theorem BuildSettings.wordy_targetName_iff {settings : BuildSettings} {target : String}
    (hlead : ∀ lead ∈ settings.lead, Wordy lead.toList)
    (h : Reader.isSlug target = true ∨ target ∈ settings.externalNames ∧ Wordy target.toList) :
    Wordy (settings.targetName target).toList ↔
      (target ∈ settings.externalNames → '-' ∉ target.toList) := by
  rw [targetName]
  split
  · rename_i hexternal
    rcases h with hslug | ⟨-, hwordy⟩
    · rw [(Naming.handle_of_isSlug hslug).wordy_iff]
      simp [hexternal]
    · have hhyphen : '-' ∉ target.toList := hwordy.not_mem (isWordChar_eq_false (by decide))
      simp [hwordy, hhyphen]
  · rename_i hexternal
    have hslug := h.resolve_right fun h => hexternal h.1
    simp [hexternal, wordy_tableName hlead hslug]

namespace ContentModel

variable {m : ContentModel} {components : Components} {settings : BuildSettings} {f : Field}
  {P : String → Prop}

/-- What holds of the keys of labels is what holds of those of fields that embed components. -/
theorem forall_key_iff :
    (∀ l ∈ m.labels components settings, ∀ key ∈ l.key, P key) ↔
      ∀ f ∈ m.storedFields, ∀ c ∈ f.component?, c.slug ∈ components.slugs → P f.key := by
  have hpair : ∀ (key? : Option String) (moved : List Field),
      (∀ l ∈ TableLabel.pair m.slug key? moved, ∀ key ∈ l.key, P key) ↔ ∀ key ∈ key?, P key := by
    intro key? moved
    rw [TableLabel.pair, List.forall_mem_cons]
    split <;> simp
  have hfield : ∀ f, (∀ l ∈ m.embeddedLabels components settings f, ∀ key ∈ l.key, P key) ↔
      ∀ c ∈ f.component?, c.slug ∈ components.slugs → P f.key := by
    intro f
    rw [embeddedLabels]
    cases hc : f.component? with
    | none => simp
    | some c =>
      rw [Option.bind_some]
      cases hfind : components.find? c.slug with
      | none => simp [Components.not_mem_slugs_iff.2 hfind]
      | some component =>
        simp only [hpair]
        simp [Components.mem_slugs_iff.2 ⟨component, hfind⟩]
  rw [labels, List.forall_mem_append, hpair, List.forall_mem_flatMap]
  simp only [hfield]
  simp

/-- No hyphen gets into the name of a table that the model makes. -/
structure Unhyphened (m : ContentModel) (components : Components) (settings : BuildSettings) :
    Prop where
  /-- In `snake_case` no field that embeds a component has one in its key. -/
  keys : settings.convention = .snakeCase → ∀ f ∈ m.storedFields, ∀ c ∈ f.component?,
    c.slug ∈ components.slugs → '-' ∉ f.key.toList
  /-- No external table that a relation from many to many leads to has one in its name. -/
  targets : ∀ f ∈ m.storedFields, ∀ r ∈ f.manyToMany?,
    r.target ∈ settings.externalNames → '-' ∉ r.target.toList

theorem wordy_labels_iff (hm : m.Valid) (hlead : ∀ lead ∈ settings.lead, Wordy lead.toList) :
    (∀ l ∈ m.labels components settings, Wordy (l.name settings).toList) ↔
      (settings.convention = .snakeCase → ∀ f ∈ m.storedFields, ∀ c ∈ f.component?,
        c.slug ∈ components.slugs → '-' ∉ f.key.toList) := by
  rw [← forall_key_iff (P := fun key => '-' ∉ key.toList)]
  have hname : ∀ l ∈ m.labels components settings, Wordy (l.name settings).toList ↔
      (settings.convention = .snakeCase → ∀ key ∈ l.key, '-' ∉ key.toList) := fun l hl =>
    (spelled_of_mem_labels hm hl).wordy_name_iff hlead
  exact ⟨fun h hsnake l hl => (hname l hl).1 (h l hl) hsnake,
    fun h l hl => (hname l hl).2 fun hsnake => h hsnake l hl⟩

theorem wordy_junctions_iff (hm : m.Valid) (hlead : ∀ lead ∈ settings.lead, Wordy lead.toList)
    (htargets : ∀ f ∈ m.fields, ∀ r ∈ f.relation?, Reader.isSlug r.target = true ∨
      r.target ∈ settings.externalNames ∧ Wordy r.target.toList) :
    (∀ j ∈ m.junctions settings, Wordy (j.name settings).toList) ↔
      ∀ f ∈ m.storedFields, ∀ r ∈ f.manyToMany?,
        r.target ∈ settings.externalNames → '-' ∉ r.target.toList := by
  have howner : Wordy (m.tableName settings).toList := by
    rw [m.tableName_eq]
    exact BuildSettings.wordy_tableName hlead hm.slug
  have hname : ∀ f ∈ m.storedFields, ∀ r ∈ f.manyToMany?,
      Wordy ((m.junction settings r).name settings).toList ↔
        (r.target ∈ settings.externalNames → '-' ∉ r.target.toList) := by
    intro f hf r hr
    have hrelation := htargets f (List.mem_of_mem_filter hf) r 
      (Field.manyToMany?_eq_some.1 hr).1
    rw [Junction.name, Naming.wordy_junctionTableName_iff, junction, and_iff_right howner,
      BuildSettings.wordy_targetName_iff hlead hrelation]
  constructor
  · exact fun h f hf r hr => (hname f hf r hr).1 (h _ (junction_mem_junctions hf hr))
  · intro h j hj
    obtain ⟨r, hr, rfl⟩ := List.mem_map.1 hj
    obtain ⟨f, hf, hr⟩ := List.mem_filterMap.1 hr
    exact (hname f hf r hr).2 (h f hf r hr)

end ContentModel

/-! ### Names of compiled tables -/

/-- The name of a table is a word exactly if the header of its block is read back. -/
theorem Table.wordy_iff_header? {t : Table} (h : t.name ≠ "") :
    Wordy t.name.toList ↔ ∃ rest, header? t.print = some (t.name.toList, rest) := by
  constructor
  · intro hwordy
    rw [print, block_eq]
    exact ⟨_, header?_model hwordy (by simpa using h)⟩
  · rintro ⟨rest, hrest⟩
    exact (of_header?_eq_some hrest).1

section Compilation

variable {models : List ContentModel} {components : Components} {settings : BuildSettings}
  {compilation : Compilation}

/-- What holds of the names of all tables is what holds of those of labels and junctions. -/
theorem forall_name_iff {P : String → Prop}
    (h : compileModels models components settings = .ok compilation) :
    (∀ t ∈ compilation.tables, P t.name) ↔
      (∀ l ∈ models.flatMap (·.labels components settings), P (l.name settings)) ∧
        ∀ j ∈ models.flatMap (·.junctions settings), P (j.name settings) := by
  have hlabels : (∀ t ∈ compilation.tables, t.isJunction = false → P t.name) ↔
      ∀ l ∈ models.flatMap (·.labels components settings), P (l.name settings) := by
    rw [← List.forall_mem_map (f := (TableLabel.name · settings)), ← map_name_filter_tables h,
      List.forall_mem_map]
    simp
  have hjunctions : (∀ t ∈ compilation.tables, t.isJunction = true → P t.name) ↔
      ∀ j ∈ models.flatMap (·.junctions settings), P (j.name settings) := by
    constructor
    · intro hall j hj
      obtain ⟨t, ht, htj⟩ := List.mem_map.1 ((mem_names_junctions_iff h).2 ⟨j, hj, rfl⟩)
      obtain ⟨ht, hjunction⟩ := List.mem_filter.1 ht
      exact htj ▸ hall t ht hjunction
    · intro hall t ht hjunction
      obtain ⟨j, hj, hname⟩ := (mem_names_junctions_iff h).1
        (List.mem_map_of_mem (List.mem_filter.2 ⟨ht, hjunction⟩))
      exact hname ▸ hall j hj
  rw [← hlabels, ← hjunctions]
  constructor
  · exact fun hall => ⟨fun t ht _ => hall t ht, fun t ht _ => hall t ht⟩
  · rintro ⟨hother, hjunction⟩ t ht
    cases hisJunction : t.isJunction with
    | false => exact hother t ht hisJunction
    | true => exact hjunction t ht hisJunction

/-- The tables of valid models always have a name.  It is a word, which the header of a block can
name, for all tables exactly if no hyphen gets into a name. -/
theorem wordy_names_iff (hvalid : ∀ m ∈ models, ∃ v, ContentModel.check v = .accepted m)
    (hlead : ∀ lead ∈ settings.lead, ∀ c ∈ lead.toList, c.isAlphanum = true ∨ c = '_')
    (htargets : ∀ m ∈ models, ∀ f ∈ m.fields, ∀ r ∈ f.relation?,
      Reader.isSlug r.target = true ∨ r.target ∈ settings.externalNames ∧ Wordy r.target.toList)
    (h : compileModels models components settings = .ok compilation) :
    (∀ t ∈ compilation.tables, t.name ≠ "" ∧
      (Wordy t.name.toList ↔ ∃ rest, header? t.print = some (t.name.toList, rest))) ∧
    ((∀ t ∈ compilation.tables, Wordy t.name.toList) ↔
      ∀ m ∈ models, m.Unhyphened components settings) := by
  have hmodel : ∀ m ∈ models, m.Valid := fun m hm => by
    obtain ⟨v, hv⟩ := hvalid m hm
    exact ContentModel.valid_of_check hv
  have hwordy : ∀ lead ∈ settings.lead, Wordy lead.toList := fun lead hl c hc =>
    (hlead lead hl c hc).elim isWordChar_of_isAlphanum fun hc => hc ▸ isWordChar_underscore
  constructor
  · have hnamed : ∀ t ∈ compilation.tables, t.name ≠ "" := by
      refine (forall_name_iff (P := (· ≠ "")) h).2 ⟨fun l hl => ?_, fun j hj => ?_⟩
      · obtain ⟨m, hm, hl⟩ := List.mem_flatMap.1 hl
        exact (ContentModel.spelled_of_mem_labels (hmodel m hm) hl).telling_name.ne_empty
      · obtain ⟨m, hm, hj⟩ := List.mem_flatMap.1 hj
        obtain ⟨r, -, rfl⟩ := List.mem_map.1 hj
        have howner : Naming.Telling (m.tableName settings) :=
          BuildSettings.telling_tableName (hmodel m hm).slug
        exact (howner.junctionTableName _ _).ne_empty
    exact fun t ht => ⟨hnamed t ht, Table.wordy_iff_header? (hnamed t ht)⟩
  · rw [forall_name_iff (P := fun name => Wordy name.toList) h, List.forall_mem_flatMap,
      List.forall_mem_flatMap]
    have hlabels := fun m hm =>
      @ContentModel.wordy_labels_iff m components settings (hmodel m hm) hwordy
    have hjunctions := fun m hm =>
      ContentModel.wordy_junctions_iff (hmodel m hm) hwordy (htargets m hm)
    constructor
    · rintro ⟨hl, hj⟩ m hm
      exact ⟨(hlabels m hm).1 (hl m hm), (hjunctions m hm).1 (hj m hm)⟩
    · intro hall
      exact ⟨fun m hm => (hlabels m hm).2 (hall m hm).keys,
        fun m hm => (hjunctions m hm).2 (hall m hm).targets⟩

end Compilation

/-- Posts with a component whose key has a hyphen. -/
def rawHyphenated : RawDefinitions where
  models := [
    .object [
      ("slug", .text "blog-post"), ("name", .text "Post"),
      ("fields", .list [
        .object [
          ("key", .text "meta-info"), ("label", .text "Meta"), ("type", .text "component"),
          ("config", .object [("slug", .text "seo")])]])]]
  components := [
    .object [
      ("slug", .text "seo"), ("name", .text "Search"),
      ("fields", .list [
        .object [("key", .text "phrase"), ("label", .text "Phrase"), ("type", .text "text")]])]]
  warnings := []

/-- The hyphen of the slug becomes an underscore, that of the key stays. -/
theorem not_wordy_names_rawHyphenated : ∃ d compilation, rawHyphenated.validate = .ok d ∧
    compileModels d.models d.components { BuildSettings.standard with convention := .snakeCase } =
      .ok compilation ∧
    compilation.tables.map (·.name) =
      ["blog_post", "blog_post_meta-info", "blog_post_meta-infoTranslation"] ∧
    ¬ ∀ t ∈ compilation.tables, Wordy t.name.toList := by
  obtain ⟨d, compilation, hd, hcompilation, hnames, hrelation, hmodel⟩ : ∃ d compilation,
      rawHyphenated.validate = .ok d ∧
      compileModels d.models d.components
        { BuildSettings.standard with convention := .snakeCase } = .ok compilation ∧
      compilation.tables.map (·.name) =
        ["blog_post", "blog_post_meta-info", "blog_post_meta-infoTranslation"] ∧
      (∀ m ∈ d.models, ∀ f ∈ m.fields, f.relation? = none) ∧
      ∃ m ∈ d.models, ∃ f ∈ m.storedFields, ∃ c ∈ f.component?, c.slug ∈ d.components.slugs ∧
        '-' ∈ f.key.toList :=
    ⟨_, _, rfl, rfl, by decide +kernel, by decide +kernel, by decide +kernel⟩
  have hvalid : ∀ m ∈ d.models, ∃ v, ContentModel.check v = .accepted m := by
    intro m hm
    obtain ⟨v, -, hv⟩ := exists_of_mem_right (RawDefinitions.validate_eq_ok hd).1 hm
    exact ⟨v, hv⟩
  obtain ⟨-, hiff⟩ := wordy_names_iff hvalid (by rintro lead ⟨⟩)
    (fun m hm f hf r hr => by rw [hrelation m hm f hf] at hr; cases hr) hcompilation
  obtain ⟨m, hm, f, hf, c, hc, hslug, hhyphen⟩ := hmodel
  exact ⟨d, compilation, hd, hcompilation, hnames,
    fun hall => (hiff.1 hall m hm).keys rfl f hf c hc hslug hhyphen⟩

end ContentSchema
