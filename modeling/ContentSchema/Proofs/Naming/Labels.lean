import ContentSchema.Proofs.Naming.Stems

/-!
# What table names tell

Tables are named after a slug, the key of a field that embeds a component, and whether they hold
translations (`TableLabel`).  Two labels give one name exactly if they have one stem
(`TableLabel.name_eq_iff`): in `PascalCase` and `camelCase` that of all their parts in a row, in
`snake_case` the slug with underscores for its hyphens, the key with the hyphens that it has, and
whether there are translations.  In every convention the key loses one final `s`.
-/

namespace ContentSchema

open Text

namespace Naming

variable {cs ds l : List Char} {c : Char} {s t : String}

/-! ### Names in `snake_case` -/

/-- A slug with underscores for its hyphens. -/
def underscored (slug : String) : String := .ofList (replaceAll ['-'] ['_'] slug.toList)

/-- The text begins with a small letter and holds no capital ones. -/
def Uncapitalized (cs : List Char) : Prop :=
  (∃ c ds, cs = c :: ds ∧ c.isLower = true) ∧ ∀ c ∈ cs, c.isUpper = false

theorem uncapitalized_append (hcs : Uncapitalized cs) (hds : ∀ d ∈ ds, d.isUpper = false) :
    Uncapitalized (cs ++ ds) := by
  obtain ⟨⟨c, cs, rfl, hc⟩, hall⟩ := hcs
  exact ⟨⟨c, cs ++ ds, List.cons_append, hc⟩, List.forall_mem_append.2 ⟨hall, hds⟩⟩

theorem uncapitalized_underscored (h : Reader.isSlug s = true) :
    Uncapitalized (underscored s).toList := by
  rw [underscored, String.toList_ofList]
  refine ⟨?_, fun c hc => ?_⟩
  · obtain ⟨c, cs, hcs, hc, -⟩ := isSlug_iff_minuscule.1 h
    have hne : '-' ≠ c := by
      rintro rfl
      cases hc
    exact ⟨c, _, by rw [hcs, replaceAll, replaceFrom, if_neg (by simpa using hne)], hc⟩
  · rcases mem_replaceFrom hc with hc | hc
    · rw [List.mem_singleton.1 hc]
      rfl
    · exact isUpper_eq_false_of_minuscule (minuscule_of_isSlug h) hc

theorem flatMap_snakeChar_eq_self (h : ∀ c ∈ cs, c.isUpper = false) :
    cs.flatMap snakeChar = cs := by
  induction cs with
  | nil => rfl
  | cons c cs ih =>
    obtain ⟨hc, hcs⟩ := List.forall_mem_cons.1 h
    rw [List.flatMap_cons, ih hcs, snakeChar, hc]
    rfl

/-- What stands behind the lead-in stays as it is. -/
theorem snakeChars_append (h : Uncapitalized cs) : snakeChars (l ++ cs) = snakeChars l ++ cs := by
  obtain ⟨⟨c, ds, rfl, hc⟩, hall⟩ := h
  have hne : c ≠ '_' := by
    rintro rfl
    cases hc
  rw [snakeChars, snakeChars, List.flatMap_append, flatMap_snakeChar_eq_self hall]
  cases l.flatMap snakeChar with
  | nil =>
    rw [List.nil_append, dropUnderscore.eq_def]
    split
    · rename_i heq
      exact absurd (List.cons.inj heq).1 hne
    · rfl
  | cons d front =>
    rw [List.cons_append]
    by_cases hd : d = '_'
    · rw [hd]
      rfl
    · rw [dropUnderscore.eq_2 _ (by simpa using hd), dropUnderscore.eq_2 _ (by simpa using hd)]
      rfl

theorem snakeCase_append (h : Uncapitalized t.toList) : snakeCase (s ++ t) = snakeCase s ++ t := by
  rw [snakeCase, snakeCase, String.toList_append, snakeChars_append h, String.ofList_append,
    String.ofList_toList]

theorem isUpper_eq_false_of_mem_snakeChars (h : c ∈ snakeChars cs) : c.isUpper = false := by
  have hsub : ∀ {ds : List Char}, c ∈ dropUnderscore ds → c ∈ ds := by
    intro ds hc
    rw [dropUnderscore.eq_def] at hc
    split at hc
    · exact List.mem_cons_of_mem _ hc
    · exact hc
  obtain ⟨d, -, hd⟩ := List.mem_flatMap.1 (hsub h)
  rw [snakeChar] at hd
  split at hd
  · rename_i hupper
    have hall : ∀ n < 128, (Char.ofNat n).isUpper = true →
        (Char.ofNat n).toLower.isUpper = false := by decide
    have hlower : d.toLower.isUpper = false :=
      of_toNat_lt (p := fun d => d.isUpper = true → d.toLower.isUpper = false) hall
        (toNat_lt_of_isAlphanum (by simp [isAlphanum_eq, hupper])) hupper
    simp only [List.mem_cons, List.not_mem_nil, or_false] at hd
    rcases hd with rfl | rfl
    · rfl
    · exact hlower
  · rename_i hupper
    rw [List.mem_singleton.1 hd]
    simpa using hupper

theorem length_le_flatMap_snakeChar (cs : List Char) :
    cs.length ≤ (cs.flatMap snakeChar).length := by
  induction cs with
  | nil => exact Nat.le_refl _
  | cons c cs ih =>
    have hpos : 0 < (snakeChar c).length := List.length_pos_iff.2 (snakeChar_ne_nil c)
    rw [List.flatMap_cons, List.length_append, List.length_cons]
    omega

theorem length_le_dropUnderscore (cs : List Char) : cs.length ≤ (dropUnderscore cs).length + 1 := by
  rw [dropUnderscore.eq_def]
  split
  · exact Nat.le_refl _
  · exact Nat.le_succ _

/-! ### Reading names in `snake_case` -/

/-- The mark of translations, if there is to be one. -/
def mark (translates : Bool) : List Char := if translates then "Translation".toList else []

theorem mark_false : mark false = [] := rfl

theorem mark_true : mark true = 'T' :: "ranslation".toList := rfl

/-- The text before the first capital letter can be read off. -/
theorem eq_of_append_cons_eq {before before' rest rest' : List Char} {u u' : Char}
    (hbefore : ∀ c ∈ before, c.isUpper = false) (hbefore' : ∀ c ∈ before', c.isUpper = false)
    (hu : u.isUpper = true) (hu' : u'.isUpper = true)
    (h : before ++ u :: rest = before' ++ u' :: rest') : before = before' := by
  have hread : ∀ {l r : List Char} {u : Char}, (∀ c ∈ l, c.isUpper = false) → u.isUpper = true →
      (l ++ u :: r).takeWhile (!·.isUpper) = l := by
    intro l r u hl hu
    rw [List.takeWhile_append_of_pos fun c hc => by rw [hl c hc, Bool.not_false],
      List.takeWhile_cons, hu]
    exact List.append_nil l
  rw [← hread hbefore hu, h, hread hbefore' hu']

theorem append_mark_inj (hcs : ∀ c ∈ cs, c.isUpper = false) (hds : ∀ d ∈ ds, d.isUpper = false)
    {t u : Bool} : cs ++ mark t = ds ++ mark u ↔ cs = ds ∧ t = u := by
  have hT : ∀ {es : List Char}, (∀ e ∈ es, e.isUpper = false) → 'T' ∉ es := by
    intro es hes hmem
    cases hes 'T' hmem
  constructor
  · intro h
    cases t <;> cases u
    · exact ⟨by simpa [mark] using h, rfl⟩
    · refine absurd ?_ (hT hcs)
      rw [mark_false, List.append_nil] at h
      rw [h]
      exact List.mem_append_right _ List.mem_cons_self
    · refine absurd ?_ (hT hds)
      rw [mark_false, List.append_nil] at h
      rw [← h]
      exact List.mem_append_right _ List.mem_cons_self
    · exact ⟨List.append_cancel_right h, rfl⟩
  · rintro ⟨rfl, rfl⟩
    rfl

/-- An underscore more in front is never made up for by what follows. -/
theorem underscore_append_ne (hc : c ≠ '_') : '_' :: (l ++ cs) ≠ l ++ c :: ds := by
  induction l with
  | nil => exact fun h => hc (List.cons.inj h).1.symm
  | cons d l ih =>
    intro h
    rw [List.cons_append, List.cons_append] at h
    obtain ⟨rfl, h⟩ := List.cons.inj h
    exact ih h

theorem exists_first_isUpper (h : ¬ ∀ c ∈ cs, c.isUpper = false) :
    ∃ before upper after, cs = before ++ upper :: after ∧ upper.isUpper = true ∧
      ∀ c ∈ before, c.isUpper = false := by
  have hexists : ∃ c ∈ cs, c.isUpper = true := by simpa using h
  obtain ⟨upper, hfind⟩ := Option.isSome_iff_exists.1 (List.find?_isSome.2 hexists)
  obtain ⟨hupper, before, after, rfl, hbefore⟩ := List.find?_eq_some_iff_append.1 hfind
  exact ⟨before, upper, after, rfl, hupper, fun c hc => by simpa using hbefore c hc⟩

/-- Re-casing a capital letter makes up for the underscore that is dropped at the start. -/
theorem length_lt_snakeChars (hc : c.isUpper = true) :
    cs.length < (snakeChars (cs ++ c :: ds)).length := by
  have hdrop := length_le_dropUnderscore ((cs ++ c :: ds).flatMap snakeChar)
  have hflat := length_le_flatMap_snakeChar cs
  have htwo : (snakeChar c).length = 2 := by
    rw [snakeChar, if_pos hc]
    rfl
  rw [List.flatMap_append, List.flatMap_cons, List.length_append, List.length_append, htwo] at hdrop
  rw [snakeChars, List.flatMap_append, List.flatMap_cons]
  omega

/-- A name with the lead-in as it is does not look like one whose lead-in was re-cased, unless this
changes nothing. -/
theorem append_mark_ne (hne : snakeChars l ≠ l) (hcs : Uncapitalized cs) (hds : Uncapitalized ds)
    (t u : Bool) : l ++ (cs ++ mark t) ≠ snakeChars l ++ (ds ++ mark u) := by
  have hsmall : ∀ c ∈ snakeChars l ++ ds, c.isUpper = false :=
    List.forall_mem_append.2 ⟨fun c hc => isUpper_eq_false_of_mem_snakeChars hc, hds.2⟩
  intro h
  rw [← List.append_assoc, ← List.append_assoc] at h
  by_cases hl : ∀ c ∈ l, c.isUpper = false
  · -- then only an underscore at the start was dropped
    obtain ⟨h, -⟩ := (append_mark_inj (List.forall_mem_append.2 ⟨hl, hcs.2⟩) hsmall).1 h
    obtain ⟨⟨d, ds, rfl, hd⟩, -⟩ := hds
    have hdne : d ≠ '_' := by
      rintro rfl
      cases hd
    rw [snakeChars, flatMap_snakeChar_eq_self hl, dropUnderscore.eq_def] at h hne
    split at hne
    · exact underscore_append_ne hdne h
    · exact hne rfl
  · obtain ⟨before, upper, after, rfl, hupper, hbefore⟩ := exists_first_isUpper hl
    cases u with
    | false =>
      rw [mark_false, List.append_nil] at h
      have hmem : upper ∈ snakeChars (before ++ upper :: after) ++ ds := by
        rw [← h]
        simp
      rw [hsmall upper hmem] at hupper
      cases hupper
    | true =>
      -- the first capital letter stands too early
      rw [mark_true, List.append_assoc, List.append_assoc, List.cons_append] at h
      have hlength := congrArg List.length (eq_of_append_cons_eq hbefore hsmall hupper rfl h)
      have hlt : before.length < _ := @length_lt_snakeChars before after upper hupper
      rw [List.length_append] at hlength
      omega

end Naming

/-! ### Labels -/

/-- What a table of a model or of an embedded component is named after. -/
structure TableLabel where
  /-- The slug of the model. -/
  slug : String
  /-- The key of the field that embeds the component. -/
  key : Option String
  /-- Whether the table holds the translations of another one. -/
  translates : Bool
deriving DecidableEq

namespace TableLabel

/-- A name with the key of a field behind it, without one final `s`. -/
def withKey (name : String) : Option String → String
  | none => name
  | some key => name ++ "_" ++ Naming.singular key

/-- The table without its translations. -/
def owner (l : TableLabel) (settings : BuildSettings) : String :=
  match l.key with
  | none => settings.tableName l.slug
  | some key => Naming.componentTableName (settings.tableName l.slug) key settings.convention

/-- The table. -/
def name (l : TableLabel) (settings : BuildSettings) : String :=
  if l.translates then Naming.translationModelName (l.owner settings) else l.owner settings

/-- All parts of the label in a row, the key without one final `s`. -/
def row (l : TableLabel) : String :=
  let parts := withKey l.slug l.key
  if l.translates then parts ++ "_" ++ "translation" else parts

/-- What stands in front of the slug in `snake_case`; components repeat it re-cased. -/
def front (l : TableLabel) (settings : BuildSettings) : String :=
  match l.key with
  | none => settings.lead.getD ""
  | some _ => Naming.snakeCase (settings.lead.getD "")

/-- What the name tells: the stem of all parts, or in `snake_case` the front, the slug with
underscores for its hyphens and the key behind it, and whether there is the mark of translations.
The key is without one final `s`, and in `snake_case` it keeps its hyphens. -/
def stem (l : TableLabel) (settings : BuildSettings) : String × String × Bool :=
  match settings.convention with
  | .snakeCase => (l.front settings, withKey (Naming.underscored l.slug) l.key, l.translates)
  | .camelCase | .pascalCase => ("", Naming.stem l.row, false)

/-- The slug and the key are slugs. -/
structure Spelled (l : TableLabel) : Prop where
  /-- The slug is one. -/
  slug : Reader.isSlug l.slug = true
  /-- The key is one. -/
  key : ∀ key ∈ l.key, Reader.isSlug key = true

variable {l k : TableLabel} {settings : BuildSettings}

theorem Spelled.isSlug_withKey (h : l.Spelled) : Reader.isSlug (withKey l.slug l.key) = true := by
  cases hkey : l.key with
  | none => exact h.slug
  | some key =>
    have hsmall := Naming.minuscule_singular (Naming.minuscule_of_isSlug (h.key key hkey))
    exact Naming.isSlug_append (Naming.isSlug_append h.slug (by decide)) hsmall

theorem Spelled.isSlug_row (h : l.Spelled) : Reader.isSlug l.row = true := by
  rw [row]
  split
  · exact Naming.isSlug_append (Naming.isSlug_append h.isSlug_withKey (by decide)) (by decide)
  · exact h.isSlug_withKey

/-- In `PascalCase` the name is the lead-in and the row. -/
theorem Spelled.name_pascalCase (h : l.Spelled) (hsettings : settings.convention = .pascalCase) :
    l.name settings = settings.lead.getD "" ++ Naming.pascalCase l.row := by
  have hslug := Naming.minuscule_of_isSlug h.slug
  have howner : l.owner settings =
      settings.lead.getD "" ++ Naming.pascalCase (withKey l.slug l.key) := by
    rw [owner, BuildSettings.tableName, Naming.tableName.eq_def, hsettings]
    cases hkey : l.key with
    | none => rfl
    | some key =>
      have hsmall := Naming.minuscule_singular (Naming.minuscule_of_isSlug (h.key key hkey))
      rw [withKey, Naming.pascalCase_append hslug hsmall, ← String.append_assoc]
      rfl
  rw [name, row, howner]
  split
  · rw [Naming.pascalCase_append (Naming.minuscule_of_isSlug h.isSlug_withKey) (by decide),
      Naming.pascalCase_translation, ← String.append_assoc]
    rfl
  · rfl

/-- In `camelCase` the name is the lead-in and the row. -/
theorem Spelled.name_camelCase (h : l.Spelled) (hsettings : settings.convention = .camelCase) :
    l.name settings = settings.lead.getD "" ++ Naming.camelCase l.row := by
  have howner : l.owner settings =
      settings.lead.getD "" ++ Naming.camelCase (withKey l.slug l.key) := by
    rw [owner, BuildSettings.tableName, Naming.tableName.eq_def, hsettings]
    cases hkey : l.key with
    | none => rfl
    | some key =>
      have hsmall := Naming.minuscule_singular (Naming.minuscule_of_isSlug (h.key key hkey))
      rw [withKey, Naming.camelCase_append h.slug hsmall, ← String.append_assoc]
      rfl
  rw [name, row, howner]
  split
  · rw [Naming.camelCase_append h.isSlug_withKey (by decide), Naming.pascalCase_translation,
      ← String.append_assoc]
    rfl
  · rfl

theorem Spelled.uncapitalized_withKey (h : l.Spelled) :
    Naming.Uncapitalized (withKey (Naming.underscored l.slug) l.key).toList := by
  have hslug := Naming.uncapitalized_underscored h.slug
  cases hkey : l.key with
  | none => exact hslug
  | some key =>
    have hsmall := Naming.minuscule_singular (Naming.minuscule_of_isSlug (h.key key hkey))
    rw [withKey, String.toList_append, String.toList_append]
    refine Naming.uncapitalized_append (Naming.uncapitalized_append hslug (by decide)) ?_
    exact fun c hc => Naming.isUpper_eq_false_of_minuscule hsmall hc

/-- In `snake_case` the name is the front, the parts and the mark. -/
theorem Spelled.name_snakeCase (h : l.Spelled) (hsettings : settings.convention = .snakeCase) :
    (l.name settings).toList = (l.front settings).toList ++
      ((withKey (Naming.underscored l.slug) l.key).toList ++ Naming.mark l.translates) := by
  have howner : l.owner settings =
      l.front settings ++ withKey (Naming.underscored l.slug) l.key := by
    rw [owner, front, BuildSettings.tableName, Naming.tableName.eq_def, hsettings]
    cases l.key with
    | none => rfl
    | some key =>
      rw [withKey]
      show Naming.snakeCase (_ ++ Naming.underscored l.slug) ++ "_" ++ _ = _
      rw [Naming.snakeCase_append (Naming.uncapitalized_underscored h.slug)]
      simp only [String.append_assoc]
  rw [name, howner, Naming.mark, ← List.append_assoc, ← String.toList_append]
  split
  · rw [Naming.translationModelName, String.toList_append]
  · rw [List.append_nil]

/-- In `snake_case` names tell fronts, parts and marks apart. -/
theorem name_eq_iff_of_snakeCase (hl : l.Spelled) (hk : k.Spelled)
    (hsettings : settings.convention = .snakeCase) :
    l.name settings = k.name settings ↔ l.front settings = k.front settings ∧
      withKey (Naming.underscored l.slug) l.key = withKey (Naming.underscored k.slug) k.key ∧
      l.translates = k.translates := by
  have hparts := hl.uncapitalized_withKey
  have hparts' := hk.uncapitalized_withKey
  rw [← String.toList_inj, hl.name_snakeCase hsettings, hk.name_snakeCase hsettings]
  by_cases hfront : l.front settings = k.front settings
  · rw [hfront, List.append_right_inj, Naming.append_mark_inj hparts.2 hparts'.2,
      String.toList_inj]
    simp
  · simp only [hfront, false_and, iff_false]
    -- one of the fronts is re-cased, and this made a difference
    have hfronts : ∀ {l : TableLabel}, (l.front settings).toList = (settings.lead.getD "").toList ∨
        (l.front settings).toList = Naming.snakeChars (settings.lead.getD "").toList := by
      intro l
      rw [front]
      split
      · exact Or.inl rfl
      · exact Or.inr (by rw [Naming.snakeCase, String.toList_ofList])
    have hne : (l.front settings).toList ≠ (k.front settings).toList := fun h =>
      hfront (String.toList_inj.1 h)
    rcases @hfronts l with hlead | hlead <;> rcases @hfronts k with hlead' | hlead' <;>
      rw [hlead, hlead'] at hne ⊢
    · exact absurd rfl hne
    · exact Naming.append_mark_ne (Ne.symm hne) hparts hparts' _ _
    · exact Ne.symm (Naming.append_mark_ne hne hparts' hparts _ _)
    · exact absurd rfl hne

/-- Two tables have one name exactly if their labels have one stem. -/
theorem Spelled.name_eq_iff (hl : l.Spelled) (hk : k.Spelled) :
    l.name settings = k.name settings ↔ l.stem settings = k.stem settings := by
  rw [stem, stem]
  cases hsettings : settings.convention with
  | snakeCase =>
    rw [name_eq_iff_of_snakeCase hl hk hsettings, Prod.mk.injEq, Prod.mk.injEq]
  | camelCase =>
    rw [hl.name_camelCase hsettings, hk.name_camelCase hsettings, String.append_right_inj,
      Naming.camelCase_eq_iff hl.isSlug_row hk.isSlug_row]
    simp
  | pascalCase =>
    rw [hl.name_pascalCase hsettings, hk.name_pascalCase hsettings, String.append_right_inj,
      Naming.pascalCase_eq_iff hl.isSlug_row hk.isSlug_row]
    simp

end TableLabel

end ContentSchema
