import ContentSchema.Proofs.Run.Sources

/-!
# Shadowed components

Of several components with one slug the last one counts, and the order of the others is not seen.

* `Components.find?_ofList`: under a slug, the last component that has it is found.
* `Config.compile_congr`: compiling only looks components up.
* `Config.Recomposed.definitions_parallel`: two runs whose components have the same last definitions
  find the same models, and the same component under each slug.
* `Config.Recomposed.generate_eq`: both runs are the same, from stage to stage.
-/

namespace ContentSchema

/-! ### Components with the same last definitions -/

namespace Component

/-- The component that is spelled by the last raw definition of a slug. -/
def last? (raws : List Value) (slug : String) : Option Component :=
  raws.reverse.findSome? fun raw => (check raw).toOption.filter (·.slug == slug)

/-- All raw components are valid, and the last definition of each slug is the same in both lists. -/
structure SameLast (raws raws' : List Value) : Prop where
  /-- The first ones are valid. -/
  valid : ∀ raw ∈ raws, ∃ c, validate raw = .ok c
  /-- The second ones are valid. -/
  valid' : ∀ raw ∈ raws', ∃ c, validate raw = .ok c
  /-- The last definition of each slug is the same. -/
  last : ∀ slug, last? raws slug = last? raws' slug

variable {raws raws' : List Value} {list list' : List Component}

/-- The last definition of a slug is the last one among those that are read. -/
theorem last?_eq_find? (h : List.Forall₂ (fun raw c => check raw = .accepted c) raws list)
    (slug : String) : last? raws slug = list.reverse.find? (·.slug == slug) := by
  have hreverse := List.rel_reverse h
  rw [last?]
  generalize raws.reverse = raws at hreverse ⊢
  generalize list.reverse = list at hreverse ⊢
  induction hreverse with
  | nil => rfl
  | @cons raw c raws list hread _ ih =>
    rw [List.findSome?_cons, List.find?_cons, hread, ih]
    dsimp only [Checked.toOption]
    rw [Option.filter_some]
    cases c.slug == slug <;> rfl

/-- Valid components are read one by one. -/
theorem exists_read (h : ∀ raw ∈ raws, ∃ c, validate raw = .ok c) :
    ∃ list, raws.mapM validComponent = .ok list := by
  refine exists_mapM_eq_ok fun raw hraw => ?_
  obtain ⟨c, hc⟩ := h raw hraw
  exact ⟨c, mapError_eq_ok.2 hc⟩

end Component

namespace Components

variable {components components' : Components} {list list' : List Component}

/-- Under a slug, the last component that has it is found. -/
theorem find?_ofList (list : List Component) (slug : String) :
    (ofList list).find? slug = list.reverse.find? (·.slug == slug) := by
  have hlookup : ∀ l : Components, l.find? slug = (List.find? (·.1 == slug) l).map (·.2) := by
    intro l
    induction l with
    | nil => rfl
    | cons e l ih =>
      rw [find?, List.lookup_cons, List.find?_cons, Bool.beq_comm]
      cases e.1 == slug with
      | true => rfl
      | false => exact ih
  rw [hlookup, ofList_eq_foldl_putBy, find?_foldl_putBy, List.find?_nil, Option.or_none,
    ← List.map_reverse, List.find?_map, Option.map_map]
  exact Option.map_id'

theorem nodup_slugs_ofList (list : List Component) : (ofList list).slugs.Nodup := by
  rw [ofList_eq_foldl_putBy]
  exact nodup_keys_foldl_putBy List.nodup_nil

/-- The same slugs are bound if the same components are found. -/
theorem mem_slugs_congr (h : ∀ slug, components.find? slug = components'.find? slug)
    (slug : String) : slug ∈ components.slugs ↔ slug ∈ components'.slugs := by
  rw [mem_slugs_iff, mem_slugs_iff, h]

theorem length_ofList_congr (h : ∀ slug, (ofList list).find? slug = (ofList list').find? slug) :
    (ofList list).length = (ofList list').length := by
  have hperm : (ofList list).slugs.Perm (ofList list').slugs :=
    (List.perm_ext_iff_of_nodup (nodup_slugs_ofList list) (nodup_slugs_ofList list')).2
      (mem_slugs_congr h)
  simpa [slugs] using hperm.length_eq

end Components

/-! ### Compiling only looks components up -/

section Compile

variable {components components' : Components}

/-- Whether a component is missing depends on which slugs are bound, not on their order. -/
theorem ContentModel.tables_slugs_congr {slugs others : List String}
    (h : ∀ slug, slug ∈ slugs ↔ slug ∈ others) (m : ContentModel) (settings : BuildSettings) :
    m.tables settings (some slugs) = m.tables settings (some others) := by
  have hlacks : ∀ f, lacksComponent (some slugs) f = lacksComponent (some others) f := by
    intro f
    rw [lacksComponent.eq_def, lacksComponent.eq_def]
    cases f.component? with
    | none => rfl
    | some c =>
      refine congrArg (!·) ?_
      rw [Bool.eq_iff_iff, List.contains_iff_mem, List.contains_iff_mem]
      exact h c.slug
  have hcolumn : ∀ owner settings, baseColumn? owner settings (some slugs) =
      baseColumn? owner settings (some others) := by
    intro owner settings
    funext moved f
    rw [baseColumn?, baseColumn?, hlacks]
  rw [tables, tables, hcolumn]

theorem ContentModel.additions_found_congr
    (h : ∀ slug, components.find? slug = components'.find? slug) (m : ContentModel)
    (settings : BuildSettings) :
    m.additions settings components = m.additions settings components' := by
  have hfield : ∀ settings owner, m.additionOf settings components owner =
      m.additionOf settings components' owner := by
    intro settings owner
    funext f
    rw [additionOf.eq_def, additionOf.eq_def]
    split
    · rw [h]
    · rfl
  rw [additions, additions, hfield]

variable (h : ∀ slug, components.find? slug = components'.find? slug) (models : List ContentModel)
  (settings : BuildSettings)
include h

theorem compileOwn_congr :
    compileOwn models components settings = compileOwn models components' settings :=
  mapM_congr fun m _ => m.tables_slugs_congr (Components.mem_slugs_congr h) settings

theorem compileAdditions_congr :
    compileAdditions models components settings = compileAdditions models components' settings :=
  mapM_congr fun m _ => m.additions_found_congr h settings

end Compile

/-! ### Definitions of two runs -/

/-- The models and warnings are the same, and under each slug the same component is found. -/
structure Definitions.SameFound (d d' : Definitions) : Prop where
  /-- The models are the same. -/
  models : d.models = d'.models
  /-- The same went wrong on the way. -/
  warnings : d.warnings = d'.warnings
  /-- The same component is found under each slug. -/
  found : ∀ slug, d.components.find? slug = d'.components.find? slug
  /-- There are as many components. -/
  length : d.components.length = d'.components.length

/-- The models and warnings are the same, and the components have the same last definitions. -/
structure RawDefinitions.SameLast (raw raw' : RawDefinitions) : Prop where
  /-- The models are the same. -/
  models : raw.models = raw'.models
  /-- The same went wrong on the way. -/
  warnings : raw.warnings = raw'.warnings
  /-- The components have the same last definitions. -/
  components : Component.SameLast raw.components raw'.components

/-- Models are validated alike, and of components the last ones are left. -/
theorem RawDefinitions.SameLast.matching_validate {raw raw' : RawDefinitions}
    (h : raw.SameLast raw') : Matching Definitions.SameFound raw.validate raw'.validate := by
  obtain ⟨list, hlist⟩ := Component.exists_read h.components.valid
  obtain ⟨list', hlist'⟩ := Component.exists_read h.components.valid'
  have hread : ∀ {raws list}, raws.mapM validComponent = .ok list → ∀ slug,
      (Components.ofList list).find? slug = Component.last? raws slug := by
    intro raws list hlist slug
    have hchecked := (mapM_eq_ok.1 hlist).imp fun _ _ => validComponent_eq_ok.1
    rw [Components.find?_ofList, Component.last?_eq_find? hchecked]
  have hfound : ∀ slug,
      (Components.ofList list).find? slug = (Components.ofList list').find? slug := by
    intro slug
    rw [hread hlist, hread hlist', h.components.last]
  rw [validate, validate, hlist, hlist', h.models, h.warnings]
  exact .bind_same _ fun models => .ok ⟨rfl, rfl, hfound, Components.length_ofList_congr hfound⟩

namespace Config

variable {c c' : Config} {s s' : Surroundings}

/-- Two runs differ in their components only, which have the same last definitions: those that are
given, those of the loader, or those that are stored. -/
inductive Recomposed (c : Config) (s : Surroundings) : Config → Surroundings → Prop where
  /-- Other components are given. -/
  | given {input : InputSection} {components : List Value} (hinput : c.input = some input)
    (h : Component.SameLast (input.components.getD []) components) :
    Recomposed c s { c with input := some { input with components := some components } } s
  /-- Another loader gives other components. -/
  | loaded {input : InputSection} {loader loader' : Hook} {entries entries' : Entries}
    {raws raws' : List Value} (hinput : c.input = some input) (hloader : input.loader = some loader)
    (hcall : loader.call none = .ok (.object entries))
    (hcall' : loader'.call none = .ok (.object entries'))
    (hmodels : entries.find? "models" = entries'.find? "models")
    (hraws : ((entries.find? "components").getD .null).members = .ok raws)
    (hraws' : ((entries'.find? "components").getD .null).members = .ok raws')
    (h : Component.SameLast raws raws') :
    Recomposed c s { c with input := some { input with loader := some loader' } } s
  /-- Other components are stored. -/
  | stored {s' : Surroundings} {source source' : RowSource} {table : String}
    {rows rows' raws raws' : List Value} (hfiles : s'.files = s.files)
    (hsource : c.rowSource s = .ok source) (hsource' : c.rowSource s' = .ok source')
    (hmodels : source.rows c.tables.models = source'.rows c.tables.models)
    (htable : c.tables.components = some table)
    (hrows : source.rows table = .ok rows) (hrows' : source'.rows table = .ok rows')
    (hraws : rows.mapM Row.decode = .ok raws) (hraws' : rows'.mapM Row.decode = .ok raws')
    (h : Component.SameLast raws raws') : Recomposed c s c s'

/-- Without a mapper, items of a list stand for themselves. -/
theorem mapM_rawDefinition_component (hmapper : c.mapper.component = none) {source : InputSource}
    (hsource : source ≠ .database) (items : List Value) :
    items.mapM (c.rawDefinition source .component) = .ok items := by
  refine mapM_eq_ok.2 (List.forall₂_same.2 fun v _ => ?_)
  cases source with
  | database => exact absurd rfl hsource
  | direct | loader => rw [rawDefinition, mapperOf, hmapper]

/-- Components with the same last definitions may be mapped beside any models. -/
theorem matching_mapItems_of_sameLast {source : InputSource}
    {models items items' raws raws' : List Value} {warnings : List Warning}
    (hraws : items.mapM (c.rawDefinition source .component) = .ok raws)
    (hraws' : items'.mapM (c.rawDefinition source .component) = .ok raws')
    (h : Component.SameLast raws raws') :
    Matching RawDefinitions.SameLast (c.mapItems source ⟨models, items, warnings⟩)
      (c.mapItems source ⟨models, items', warnings⟩) := by
  rw [mapItems, mapItems, hraws, hraws']
  exact .bind_same _ fun models => .ok ⟨rfl, rfl, h⟩

/-- What is fetched is mapped to the same definitions, or to some whose components have the same
last definitions. -/
def MappedAlike (c : Config) (source : InputSource) (items items' : RawDefinitions) : Prop :=
  Matching (fun raw raw' => raw = raw' ∨ raw.SameLast raw') (c.mapItems source items)
    (c.mapItems source items')

theorem MappedAlike.refl (source : InputSource) (items : RawDefinitions) :
    MappedAlike c source items items :=
  Matching.refl (fun _ => .inl rfl) _

/-- Lists of components with the same last definitions need no mapper. -/
theorem mappedAlike_of_sameLast (hmapper : c.mapper.component = none) {source : InputSource}
    (hsource : source ≠ .database) {models raws raws' : List Value} {warnings : List Warning}
    (h : Component.SameLast raws raws') :
    MappedAlike c source ⟨models, raws, warnings⟩ ⟨models, raws', warnings⟩ :=
  (matching_mapItems_of_sameLast (mapM_rawDefinition_component hmapper hsource raws)
    (mapM_rawDefinition_component hmapper hsource raws') h).imp fun _ _ => .inr

/-- A loader that gives other components gives the same models. -/
theorem matching_callLoader {loader loader' : Hook} {entries entries' : Entries}
    {raws raws' : List Value} (hcall : loader.call none = .ok (.object entries))
    (hcall' : loader'.call none = .ok (.object entries'))
    (hmodels : entries.find? "models" = entries'.find? "models")
    (hraws : ((entries.find? "components").getD .null).members = .ok raws)
    (hraws' : ((entries'.find? "components").getD .null).members = .ok raws') :
    Matching (fun items items' => ∃ models, items = ⟨models, raws, []⟩ ∧
      items' = ⟨models, raws', []⟩) (callLoader loader) (callLoader loader') := by
  rw [callLoader, callLoader, Hook.run, Hook.run, hcall, hcall']
  dsimp only [Except.mapError, bind, Except.bind]
  rw [← hmodels]
  cases entries.find? "models" with
  | none => exact .error _
  | some models =>
    refine .bind_same models.members fun models => ?_
    rw [hraws, hraws']
    exact .ok ⟨models, rfl, rfl⟩

theorem Recomposed.matching_fetch (h : c.Recomposed s c' s') (hmapper : c.mapper.component = none)
    (source : InputSource) :
    Matching (MappedAlike c source) (c.fetch s source) (c'.fetch s' source) := by
  cases h with
  | given hinput h =>
    cases source with
    | direct =>
      rw [fetch, fetch, hinput]
      exact .ok (mappedAlike_of_sameLast hmapper (by decide) h)
    | loader =>
      rw [fetch, fetch, hinput]
      exact .refl (.refl _) _
    | database => exact .refl (.refl _) _
  | loaded hinput hloader hcall hcall' hmodels hraws hraws' h =>
    cases source with
    | direct =>
      rw [fetch, fetch, hinput]
      exact .refl (.refl _) _
    | loader =>
      rw [fetch, fetch, hinput, Option.bind_some, Option.bind_some, hloader]
      refine (matching_callLoader hcall hcall' hmodels hraws hraws').imp ?_
      rintro _ _ ⟨models, rfl, rfl⟩
      exact mappedAlike_of_sameLast hmapper (by decide) h
    | database => exact .refl (.refl _) _
  | stored hfiles hsource hsource' hmodels htable hrows hrows' hraws hraws' h =>
    cases source with
    | direct | loader => exact .refl (.refl _) _
    | database =>
      rw [fetch, fetch, hsource, hsource']
      show Matching _ (c.fetchRows _) (c.fetchRows _)
      rw [fetchRows, fetchRows, hmodels, htable, Option.getD_some]
      refine .bind_same _ fun models => ?_
      dsimp only
      split
      · exact .refl (.refl _) _
      · rw [componentRows, componentRows, hrows, hrows']
        have hdecode : c.rawDefinition .database .component = Row.decode := by
          funext row
          rw [rawDefinition, mapperOf, hmapper, Row.rawDefinition]
        refine .ok ((matching_mapItems_of_sameLast ?_ ?_ h).imp fun _ _ => .inr)
        · rw [hdecode, hraws]
        · rw [hdecode, hraws']

/-- Where definitions come from depends on which sources are given, not on what they hold. -/
theorem inputSource_congr {input : Option InputSection}
    (hmodels : (input.bind (·.models)).isSome = (c.input.bind (·.models)).isSome)
    (hloader : (input.bind (·.loader)).isSome = (c.input.bind (·.loader)).isSome) :
    inputSource { c with input := input } = c.inputSource := by
  rw [inputSource, inputSource, hmodels, hloader]

/-- Nothing else differs between the two runs. -/
theorem Recomposed.rest (h : c.Recomposed s c' s') :
    c' = { c with input := c'.input } ∧ s'.files = s.files ∧ c'.inputSource = c.inputSource := by
  cases h with
  | given hinput h =>
    refine ⟨rfl, rfl, inputSource_congr ?_ ?_⟩ <;> rw [hinput] <;> rfl
  | loaded hinput hloader =>
    refine ⟨rfl, rfl, inputSource_congr ?_ ?_⟩ <;> rw [hinput]
    · rfl
    · rw [Option.bind_some, Option.bind_some, hloader]
      rfl
  | stored hfiles => exact ⟨rfl, hfiles, rfl⟩

theorem Recomposed.definitions_parallel (h : c.Recomposed s c' s')
    (hmapper : c.mapper.component = none) :
    Staged.Parallel Definitions.SameFound (c.definitions s) (c'.definitions s') := by
  obtain ⟨hconfig, -, hsource⟩ := h.rest
  have hmap : ∀ source items, c'.mapItems source items = c.mapItems source items := by
    intro source items
    rw [hconfig]
    rfl
  refine Staged.Parallel.bind (R := fun raw raw' => raw = raw' ∨ raw.SameLast raw') ?_
    fun raw raw' hraw => .ofOutcome ?_
  · rw [rawDefinitions, rawDefinitions, hsource]
    refine .bind_same _ fun source => .bind_same _ fun _ => ?_
    refine .bind (.ofOutcome (h.matching_fetch hmapper source)) fun items items' hitems => ?_
    refine .bind_same _ fun _ => .ofOutcome ?_
    rw [hmap]
    exact hitems
  · rcases hraw with rfl | hraw
    · exact .refl (fun d => ⟨rfl, rfl, fun _ => rfl, rfl⟩) _
    · exact hraw.matching_validate

/-- Definitions in which the same components are found are compiled the same. -/
theorem compile_congr {d d' : Definitions} (h : d.SameFound d') (names : List String) :
    c.compile d names = c.compile d' names := by
  rw [compile, compile, ← h.models, compileOwn_congr h.found, compileAdditions_congr h.found]

/-- Only the last definition of each component counts: two runs without a mapper of components,
whose components are valid and have the same last definitions, go through the same stages and make
the same, or stop at the same failure. -/
theorem Recomposed.generate_eq (h : c.Recomposed s c' s') (hmapper : c.mapper.component = none) :
    c.generate s = c'.generate s' := by
  have hfound := h.definitions_parallel hmapper
  obtain ⟨hconfig, hfiles, hsource⟩ := h.rest
  have hexternal : c'.external = c.external := by rw [hconfig]
  have hcompile : ∀ d names, c'.compile d names = c.compile d names := by
    intro d names
    rw [hconfig]
    rfl
  have hheader : c'.output = c.output ∧ c'.allGenerators = c.allGenerators := by
    rw [hconfig]
    exact ⟨rfl, rfl⟩
  refine congrArg Staged.finish ?_
  rw [run, run, hsource, hfiles, hexternal, hheader.1, hheader.2]
  obtain ⟨external, externalWarnings⟩ := s.files.externalTables c.external
  refine congrArg (_ >>= ·) (funext fun _ => congrArg (_ >>= ·) (funext fun _ => ?_))
  refine hfound.bind_eq fun d d' hd => ?_
  rw [hcompile, compile_congr hd, hd.models, hd.warnings, hd.length]

end Config

/-! ### A teaser that is defined twice -/

/-- An older teaser, with a switch. -/
def rawOldTeaser : Value := .object [
  ("slug", .text "teaser"), ("name", .text "Teaser"),
  ("fields", .list [
    .object [("key", .text "wide"), ("label", .text "Wide"), ("type", .text "boolean")]])]

/-- A footer, which no model refers to. -/
def rawFooter : Value := .object [
  ("slug", .text "footer"), ("name", .text "Footer"),
  ("fields", .list [
    .object [("key", .text "note"), ("label", .text "Note"), ("type", .text "text")]])]

/-- A run over articles with some components. -/
def articlesWith (components : List Value) : Config :=
  { givenArticles with input := some ⟨some [rawArticle []], some components, none⟩ }

theorem Component.exists_check_of_slug {raw : Value} {slug : String}
    (h : (check raw).toOption.map (·.slug) = some slug) :
    ∃ c, check raw = .accepted c ∧ c.slug = slug := by
  generalize check raw = x at h ⊢
  cases x with
  | accepted c => exact ⟨c, rfl, Option.some.inj h⟩
  | rejected issues => cases h

/-- The last teaser counts, and the footer may stand anywhere. -/
theorem sameLast_teasers :
    Component.SameLast [rawOldTeaser, rawTeaser [], rawFooter] [rawFooter, rawTeaser []] where
  valid := by
    rintro raw (_ | ⟨_, _ | ⟨_, _ | ⟨_, ⟨⟩⟩⟩⟩) <;> exact ⟨_, rfl⟩
  valid' := by
    rintro raw (_ | ⟨_, _ | ⟨_, ⟨⟩⟩⟩) <;> exact ⟨_, rfl⟩
  last slug := by
    obtain ⟨old, hold, holdSlug⟩ : ∃ c, Component.check rawOldTeaser = .accepted c ∧
        c.slug = "teaser" := Component.exists_check_of_slug rfl
    obtain ⟨teaser, hteaser, hteaserSlug⟩ : ∃ c, Component.check (rawTeaser []) = .accepted c ∧
        c.slug = "teaser" := Component.exists_check_of_slug rfl
    obtain ⟨footer, hfooter, hfooterSlug⟩ : ∃ c, Component.check rawFooter = .accepted c ∧
        c.slug = "footer" := Component.exists_check_of_slug rfl
    rw [Component.last?_eq_find? (.cons hold (.cons hteaser (.cons hfooter .nil))),
      Component.last?_eq_find? (.cons hfooter (.cons hteaser .nil))]
    rw [show [old, teaser, footer].reverse = [footer, teaser, old] from rfl,
      show [footer, teaser].reverse = [teaser, footer] from rfl]
    simp only [List.find?_cons, List.find?_nil, holdSlug, hteaserSlug, hfooterSlug]
    by_cases h : slug = "teaser"
    · subst h
      rfl
    · rw [beq_false_of_ne (Ne.symm h)]

/-- A run is the same without the older teaser and with the footer elsewhere; it makes tables. -/
theorem generate_articlesWith :
    (articlesWith [rawOldTeaser, rawTeaser [], rawFooter]).generate nothing =
        (articlesWith [rawFooter, rawTeaser []]).generate nothing ∧
      ∃ g, ((articlesWith [rawFooter, rawTeaser []]).generate nothing).outcome = .ok g ∧
        g.tableNames = ["Article", "ArticleIntro"] := by
  refine ⟨?_, ?_⟩
  · have hinput : (articlesWith [rawOldTeaser, rawTeaser [], rawFooter]).input =
        some ⟨some [rawArticle []], some [rawOldTeaser, rawTeaser [], rawFooter], none⟩ := rfl
    exact Config.Recomposed.generate_eq (.given hinput sameLast_teasers) rfl
  · refine ⟨_, rfl, ?_⟩
    decide +kernel

end ContentSchema
