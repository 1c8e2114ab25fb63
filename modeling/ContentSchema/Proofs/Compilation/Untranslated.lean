import ContentSchema.Proofs.Compilation.Whole
import ContentSchema.Proofs.Run.Definitions

/-!
# Compiling without translation

Fields say whether their content is translated, models whether they take part in translation, and
the settings of a run whether there is any.

* `ContentModel.Reflagged.tables_eq`, `Component.Reflagged.tables_eq`: without translation in the
  settings, what fields say is not looked at.
* `ContentModel.effectiveSettings_of_optedOut`: a model that takes no part is compiled as if there
  were no translation.
* `compileModels_eq_of_untranslated`: both, for all models of a run and their components together.
-/

namespace ContentSchema

/-! ### Definitions with other flags -/

/-- The second field differs from the first one at most in whether it is translatable. -/
def Field.Reflagged (f f' : Field) : Prop :=
  ∃ translatable, f' = { f with translatable := translatable }

/-- The second model differs from the first one at most in which fields are translatable. -/
structure ContentModel.Reflagged (m m' : ContentModel) : Prop where
  /-- The fields differ in this only. -/
  fields : List.Forall₂ Field.Reflagged m.fields m'.fields
  /-- Nothing but the fields differs. -/
  rest : m' = { m with fields := m'.fields }

/-- The second component differs from the first one at most in which fields are translatable. -/
structure Component.Reflagged (c c' : Component) : Prop where
  /-- The fields differ in this only. -/
  fields : List.Forall₂ Field.Reflagged c.fields c'.fields
  /-- Nothing but the fields differs. -/
  rest : c' = { c with fields := c'.fields }

/-- The slugs are the same, and under each of them the components differ at most in which fields are
translatable. -/
def Components.Reflagged (components components' : Components) : Prop :=
  List.Forall₂ (fun e e' => e.1 = e'.1 ∧ e.2.Reflagged e'.2) components components'

/-! ### Fields -/

namespace Field.Reflagged

variable {f f' : Field} (h : f.Reflagged f')
include h

theorem key_eq : f.key = f'.key := by
  obtain ⟨translatable, rfl⟩ := h
  rfl

theorem derived_eq : f.derived = f'.derived := by
  obtain ⟨translatable, rfl⟩ := h
  rfl

theorem component?_eq : f.component? = f'.component? := by
  obtain ⟨translatable, rfl⟩ := h
  rfl

theorem manyToMany?_eq : f.manyToMany? = f'.manyToMany? := by
  obtain ⟨translatable, rfl⟩ := h
  rfl

theorem column_eq (settings : BuildSettings) : f.column settings = f'.column settings := by
  obtain ⟨translatable, rfl⟩ := h
  rfl

theorem junctionTable_eq (owner : String) (settings : BuildSettings) :
    f.junctionTable owner settings = f'.junctionTable owner settings := by
  obtain ⟨translatable, rfl⟩ := h
  rfl

theorem baseColumn?_eq (owner : String) (settings : BuildSettings)
    (available : Option (List String)) (moved : List String) :
    ContentModel.baseColumn? owner settings available moved f =
      ContentModel.baseColumn? owner settings available moved f' := by
  obtain ⟨translatable, rfl⟩ := h
  rfl

end Field.Reflagged

section Lists

variable {fields fields' : List Field} (h : List.Forall₂ Field.Reflagged fields fields')
include h

theorem Field.Reflagged.keys_eq : fields.map (·.key) = fields'.map (·.key) :=
  (map_eq_map_of_forall₂ h fun _ _ _ hf => hf.key_eq.symm).symm

/-- The fields that are stored differ in their flags only, and so do those that are derived. -/
theorem Field.Reflagged.filter {p : Bool → Bool} :
    List.Forall₂ Field.Reflagged (fields.filter (p ·.derived)) (fields'.filter (p ·.derived)) :=
  List.rel_filter (fun f f' hf => by simp [hf.derived_eq]) h

end Lists

/-! ### Tables without translation -/

section Untranslated

variable {settings : BuildSettings} (hoff : settings.translated = false)
include hoff

theorem ContentModel.effectiveSettings_of_untranslated (m : ContentModel) :
    m.effectiveSettings settings = settings := by
  simp [effectiveSettings, hoff]

/-- Without translation a model has one table, with the columns of all its stored fields. -/
theorem ContentModel.tables_of_untranslated (m : ContentModel)
    (available : Option (List String)) : m.tables settings available = do
      let columns ← m.storedFields.mapM
        (baseColumn? (settings.tableName m.slug) settings available [])
      let base ← compiled (m.baseTable settings columns).make
      return [base] := by
  have hmoved : m.movedFields settings = [] := by simp [movedFields, hoff]
  simp only [tables, m.effectiveSettings_of_untranslated hoff, baseTable, hmoved]
  rfl

/-- Without translation an embedded component has one table, with the columns of all its stored
fields. -/
theorem Component.tables_of_untranslated (c : Component) (e : Embedding) :
    c.tables e settings = do
      let columns ← c.storedFields.mapM (·.column settings)
      let toOwner ← Column.backRelation e.owner (Naming.foreignKeyName e.owner) .cascade
      let instances ← compiled (c.instanceTable e settings columns toOwner).make
      return [instances] := by
  have hplace : c.placeFields settings = ([], c.storedFields) := by simp [placeFields, hoff]
  simp only [tables, instanceTable, movedFields, hplace]
  rfl

/-! Definitions with other flags have the same tables. -/

theorem ContentModel.Reflagged.tables_eq {m m' : ContentModel} (h : m.Reflagged m')
    (available : Option (List String)) :
    m.tables settings available = m'.tables settings available := by
  obtain ⟨hfields, hrest⟩ := h
  have hcolumns : m.storedFields.mapM
        (ContentModel.baseColumn? (settings.tableName m.slug) settings available []) =
      m'.storedFields.mapM
        (ContentModel.baseColumn? (settings.tableName m.slug) settings available []) :=
    mapM_eq_of_forall₂ ((Field.Reflagged.filter hfields).imp fun f f' hf =>
      hf.baseColumn?_eq _ _ _ _)
  have hbase : ∀ columns, m.baseTable settings columns = m'.baseTable settings columns := by
    intro columns
    have hindexes : m.indexes = m'.indexes := by
      rw [hrest, indexes, indexes, fieldKeys, Field.Reflagged.keys_eq hfields]
      rfl
    have hmoved : ∀ m : ContentModel, m.movedFields settings = [] := fun m => by
      simp [movedFields, hoff]
    rw [baseTable, baseTable, hindexes, hmoved, hmoved, hrest]
  rw [tables_of_untranslated hoff, tables_of_untranslated hoff, hcolumns]
  simp only [hbase]
  rw [hrest]

theorem Component.Reflagged.tables_eq {c c' : Component} (h : c.Reflagged c') (e : Embedding) :
    c.tables e settings = c'.tables e settings := by
  obtain ⟨hfields, hrest⟩ := h
  have hcolumns : c.storedFields.mapM (·.column settings) =
      c'.storedFields.mapM (·.column settings) :=
    mapM_eq_of_forall₂ ((Field.Reflagged.filter hfields).imp fun f f' hf => hf.column_eq settings)
  have hinstances : ∀ columns toOwner, c.instanceTable e settings columns toOwner =
      c'.instanceTable e settings columns toOwner := by
    intro columns toOwner
    have hmoved : ∀ c : Component, c.movedFields settings = [] := fun c => by
      simp [movedFields, placeFields, hoff]
    rw [instanceTable, instanceTable, hmoved, hmoved]
  rw [tables_of_untranslated hoff, tables_of_untranslated hoff, hcolumns]
  simp only [hinstances]

end Untranslated

/-! ### Components by slug -/

namespace Components.Reflagged

variable {components components' : Components} (h : components.Reflagged components')
include h

theorem slugs_eq : components.slugs = components'.slugs :=
  (map_eq_map_of_forall₂ h fun _ _ _ he => he.1.symm).symm

/-- A slug finds components that differ in their flags only. -/
theorem find? (slug : String) :
    Option.Rel Component.Reflagged (components.find? slug) (components'.find? slug) := by
  unfold Components.find?
  induction h with
  | nil => exact .none
  | @cons e e' _ _ he _ ih =>
    obtain ⟨hslug, hc⟩ := he
    rw [List.lookup_cons, List.lookup_cons, ← hslug]
    cases slug == e.1 with
    | true => exact .some hc
    | false => exact ih

end Components.Reflagged

/-! ### Additions without translation -/

namespace ContentModel

section Untranslated

variable {settings : BuildSettings} (hoff : settings.translated = false)
  {components components' : Components} (hcomponents : components.Reflagged components')
include hoff hcomponents

theorem additionOf_eq_of_reflagged {m m' : ContentModel} (hslug : m.slug = m'.slug)
    {f f' : Field} (hf : f.Reflagged f') (owner : String) :
    m.additionOf settings components owner f = m'.additionOf settings components' owner f' := by
  rw [additionOf, additionOf, hf.component?_eq, hf.manyToMany?_eq, hf.junctionTable_eq, hf.key_eq,
    hslug]
  cases f'.component? with
  | none => rfl
  | some config =>
    dsimp only
    have hfind := hcomponents.find? config.slug
    generalize components.find? config.slug = found, components'.find? config.slug = found'
      at hfind ⊢
    cases hfind with
    | none => rfl
    | some hc =>
      dsimp only
      rw [hc.tables_eq hoff]

/-- Without translation the fields add the same tables, whatever flags they and the fields of
components have. -/
theorem Reflagged.additions_eq {m m' : ContentModel} (h : m.Reflagged m') :
    m.additions settings components = m'.additions settings components' := by
  obtain ⟨hfields, hrest⟩ := h
  have hslug : m.slug = m'.slug := by rw [hrest]
  have hfound : ∀ owner, m.storedFields.mapM (m.additionOf settings components owner) =
      m'.storedFields.mapM (m'.additionOf settings components' owner) := fun owner =>
    mapM_eq_of_forall₂ ((Field.Reflagged.filter hfields).imp fun f f' hf =>
      additionOf_eq_of_reflagged hoff hcomponents hslug hf owner)
  simp only [additions, effectiveSettings_of_untranslated hoff, hslug, hfound]

end Untranslated

theorem Reflagged.derivedWarnings_eq {m m' : ContentModel} (h : m.Reflagged m') :
    m.derivedWarnings = m'.derivedWarnings := by
  obtain ⟨hfields, hrest⟩ := h
  have hslug : m.slug = m'.slug := by rw [hrest]
  rw [derivedWarnings, derivedWarnings, hslug]
  exact (map_eq_map_of_forall₂ (Field.Reflagged.filter (p := id) hfields)
    fun _ _ _ hf => by rw [hf.key_eq]).symm

/-! ### Models that take no part in translation -/

variable {m : ContentModel} {settings settings' : BuildSettings}

/-- A model that takes no part in translation is compiled with settings without it. -/
theorem effectiveSettings_of_optedOut (h : m.settings.translated = some false)
    (settings : BuildSettings) : m.effectiveSettings settings = settings.withoutTranslation := by
  cases hon : settings.translated with
  | true => simp [effectiveSettings, hon, h]
  | false =>
    rw [effectiveSettings_of_untranslated hon, BuildSettings.withoutTranslation, ← hon]

/-- Settings matter to a model by what they come down to for it. -/
theorem tables_congr (h : m.effectiveSettings settings = m.effectiveSettings settings')
    (available : Option (List String)) :
    m.tables settings available = m.tables settings' available := by
  rw [tables, tables, h]

theorem additions_congr (h : m.effectiveSettings settings = m.effectiveSettings settings')
    (components : Components) :
    m.additions settings components = m.additions settings' components := by
  rw [additions, additions, h]

end ContentModel

/-! ### The whole compilation -/

/-- Without translation in the settings, the flags of fields in models and components do not matter:
the compilation makes the same tables with the same warnings, or stops at the same error.  And if no
model takes part in translation, it does not matter whether the settings have it. -/
theorem compileModels_eq_of_untranslated :
    (∀ (models models' : List ContentModel) (components components' : Components)
      (settings : BuildSettings), List.Forall₂ ContentModel.Reflagged models models' →
      components.Reflagged components' → settings.translated = false →
      compileModels models components settings = compileModels models' components' settings) ∧
    ∀ (models : List ContentModel) (components : Components) (settings : BuildSettings),
      (∀ m ∈ models, m.settings.translated = some false) →
      compileModels models components settings =
        compileModels models components settings.withoutTranslation := by
  constructor
  · intro models models' components components' settings hmodels hcomponents hoff
    have hown : compileOwn models components settings = compileOwn models' components' settings :=
      mapM_eq_of_forall₂ (hmodels.imp fun m m' hm => by
        rw [hcomponents.slugs_eq, hm.tables_eq hoff])
    have hadditions : compileAdditions models components settings =
        compileAdditions models' components' settings :=
      mapM_eq_of_forall₂ (hmodels.imp fun m m' hm => hm.additions_eq hoff hcomponents)
    have hparts : Compilation.ofParts models = Compilation.ofParts models' := by
      have hderived : models.flatMap (·.derivedWarnings) = models'.flatMap (·.derivedWarnings) := by
        rw [List.flatMap_def, List.flatMap_def,
          map_eq_map_of_forall₂ hmodels fun _ _ _ hm => hm.derivedWarnings_eq.symm]
      funext own additions
      rw [Compilation.ofParts, Compilation.ofParts, hderived]
    rw [compileModels, compileModels, hown, hadditions, hparts]
  · intro models components settings hout
    have hused : ∀ m ∈ models, m.effectiveSettings settings =
        m.effectiveSettings settings.withoutTranslation := fun m hm => by
      rw [m.effectiveSettings_of_optedOut (hout m hm), m.effectiveSettings_of_optedOut (hout m hm)]
      rfl
    have hown : compileOwn models components settings =
        compileOwn models components settings.withoutTranslation :=
      mapM_congr fun m hm => m.tables_congr (hused m hm) _
    have hadditions : compileAdditions models components settings =
        compileAdditions models components settings.withoutTranslation :=
      mapM_congr fun m hm => m.additions_congr (hused m hm) _
    rw [compileModels, compileModels, hown, hadditions]

/-- Banners with a title and a link that has a caption, where all texts have the given flag, in the
given settings, as they are given. -/
def rawBanners (flag : Bool) (settings : Entries) : RawDefinitions where
  models := [.object [
    ("slug", .text "banner"), ("name", .text "Banner"), ("settings", .object settings),
    ("fields", .list [
      .object [("key", .text "title"), ("label", .text "Title"), ("type", .text "text"),
        ("translatable", .bool flag)],
      .object [("key", .text "link"), ("label", .text "Link"), ("type", .text "component"),
        ("config", .object [("slug", .text "link")])]])]]
  components := [.object [
    ("slug", .text "link"), ("name", .text "Link"),
    ("fields", .list [
      .object [("key", .text "caption"), ("label", .text "Caption"), ("type", .text "text"),
        ("translatable", .bool flag)]])]]
  warnings := []

/-- With translation the flag decides about two tables.  Without translation it does not, and
neither does translation if banners take no part in it. -/
theorem compileModels_rawBanners :
    ∃ d d' out, (rawBanners true []).validate = .ok d ∧ (rawBanners false []).validate = .ok d' ∧
      (rawBanners true [("enableI18n", .bool false)]).validate = .ok out ∧
      (compileModels d.models d.components .standard).map (·.tables.map (·.name)) =
        .ok ["Banner", "BannerTranslation", "BannerLink", "BannerLinkTranslation"] ∧
      (compileModels d'.models d'.components .standard).map (·.tables.map (·.name)) =
        .ok ["Banner", "BannerLink"] ∧
      compileModels d.models d.components BuildSettings.standard.withoutTranslation =
        compileModels d'.models d'.components BuildSettings.standard.withoutTranslation ∧
      compileModels out.models out.components .standard =
        compileModels out.models out.components BuildSettings.standard.withoutTranslation := by
  obtain ⟨d, d', out, hd, hd', hout, hmodels, hcomponents, hopted, hnames, hnames'⟩ :
      ∃ d d' out, (rawBanners true []).validate = .ok d ∧
        (rawBanners false []).validate = .ok d' ∧
        (rawBanners true [("enableI18n", .bool false)]).validate = .ok out ∧
        List.Forall₂ ContentModel.Reflagged d.models d'.models ∧
        d.components.Reflagged d'.components ∧
        (∀ m ∈ out.models, m.settings.translated = some false) ∧
        (compileModels d.models d.components .standard).map (·.tables.map (·.name)) =
          .ok ["Banner", "BannerTranslation", "BannerLink", "BannerLinkTranslation"] ∧
        (compileModels d'.models d'.components .standard).map (·.tables.map (·.name)) =
          .ok ["Banner", "BannerLink"] :=
    ⟨_, _, _, rfl, rfl, rfl, .cons ⟨.cons ⟨_, rfl⟩ (.cons ⟨_, rfl⟩ .nil), rfl⟩ .nil,
      .cons ⟨rfl, .cons ⟨_, rfl⟩ .nil, rfl⟩ .nil, by decide +kernel, by decide +kernel,
      by decide +kernel⟩
  refine ⟨d, d', out, hd, hd', hout, hnames, hnames', ?_, ?_⟩
  · exact compileModels_eq_of_untranslated.1 _ _ _ _ _ hmodels hcomponents rfl
  · exact compileModels_eq_of_untranslated.2 _ _ _ hopted

end ContentSchema
