import ContentSchema.Proofs.Naming.Labels

/-!
# What conventions leave alone

Columns and physical tables are called in `snake_case` in every convention.  For names that are made
of words, each of which begins with a letter, nothing is lost on the way there: the name of a table
is written back to the row of its label, with underscores for hyphens
(`TableLabel.Worded.snakeCase_name`).  So another convention changes the names of tables, and none
that are made of them (`Naming.map_derivedNames_eq`).
-/

namespace ContentSchema

open Text

namespace Naming

variable {cs ds w : List Char} {b c : Char} {s key : String}

/-! ### Texts of words -/

/-- A word begins with a small letter, and small letters and digits follow. -/
def IsWord : List Char → Prop
  | [] => False
  | c :: cs => c.isLower = true ∧ ∀ d ∈ cs, d.isLower = true ∨ d.isDigit = true

instance : DecidablePred IsWord
  | [] => inferInstanceAs (Decidable False)
  | c :: cs => inferInstanceAs
    (Decidable (c.isLower = true ∧ ∀ d ∈ cs, d.isLower = true ∨ d.isDigit = true))

/-- The text is made of words that single hyphens or underscores join. -/
inductive Worded : List Char → Prop where
  /-- A single word. -/
  | word {w : List Char} (hw : IsWord w) : Worded w
  /-- A word, what joins it to the others, and the others. -/
  | join {w cs : List Char} {b : Char} (hw : IsWord w) (hb : isWordBoundary b = true)
    (hcs : Worded cs) : Worded (w ++ b :: cs)

/-- The key is made of words that single underscores join, and the last word is not `s`. -/
structure WordedKey (key : String) : Prop where
  /-- The key is made of words. -/
  words : Worded key.toList
  /-- Only underscores join them. -/
  unhyphened : '-' ∉ key.toList
  /-- The key is not the word `s`. -/
  ne : key ≠ "s"
  /-- The word `s` is not joined to others at the end. -/
  last : ¬ "_s".toList <:+ key.toList

theorem IsWord.exists_cons (h : IsWord w) : ∃ c cs, w = c :: cs ∧ c.isLower = true := by
  cases w with
  | nil => exact h.elim
  | cons c cs => exact ⟨c, cs, rfl, h.1⟩

theorem IsWord.isLower_or_isDigit (h : IsWord w) (hc : c ∈ w) :
    c.isLower = true ∨ c.isDigit = true := by
  cases w with
  | nil => exact h.elim
  | cons d cs =>
    rcases List.mem_cons.1 hc with rfl | hc
    · exact Or.inl h.1
    · exact h.2 c hc

theorem IsWord.isWordBoundary_eq_false (h : IsWord w) (hc : c ∈ w) : isWordBoundary c = false := by
  rw [Bool.eq_false_iff, Ne, isWordBoundary_iff]
  rintro (rfl | rfl) <;> rcases h.isLower_or_isDigit hc with hc | hc <;> cases hc

theorem Worded.exists_cons (h : Worded cs) : ∃ c ds, cs = c :: ds ∧ c.isLower = true := by
  cases h with
  | word hw => exact hw.exists_cons
  | join hw _ _ =>
    obtain ⟨c, ds, rfl, hc⟩ := hw.exists_cons
    exact ⟨c, _, List.cons_append, hc⟩

theorem Worded.minuscule (h : Worded cs) : Minuscule cs := by
  have hword : ∀ {w}, IsWord w → Minuscule w := fun hw c hc =>
    (hw.isLower_or_isDigit hc).imp_right Or.inl
  induction h with
  | word hw => exact hword hw
  | join hw hb _ ih =>
    exact minuscule_append.2 ⟨hword hw, List.forall_mem_cons.2 ⟨Or.inr (Or.inr hb), ih⟩⟩

theorem Worded.isSlug (h : Worded s.toList) : Reader.isSlug s = true := by
  obtain ⟨c, cs, hs, hc⟩ := h.exists_cons
  have hsmall := h.minuscule
  rw [hs] at hsmall
  exact isSlug_iff_minuscule.2 ⟨c, cs, hs, hc, (List.forall_mem_cons.1 hsmall).2⟩

theorem Worded.append (hcs : Worded cs) (hb : isWordBoundary b = true) (hds : Worded ds) :
    Worded (cs ++ b :: ds) := by
  induction hcs with
  | word hw => exact .join hw hb hds
  | join hw hb' _ ih =>
    rw [List.append_assoc, List.cons_append]
    exact .join hw hb' ih

/-- A text of words keeps being one without the `s` at its end, unless this is the whole last
word. -/
theorem Worded.dropLast (h : Worded cs) (hs : cs.getLast? = some 's') (hne : cs ≠ ['s'])
    (hlast : ∀ b, isWordBoundary b = true → ¬ [b, 's'] <:+ cs) : Worded cs.dropLast := by
  induction h with
  | @word w hw =>
    obtain ⟨c, cs, rfl, hc⟩ := hw.exists_cons
    cases cs with
    | nil =>
      cases hs
      exact absurd rfl hne
    | cons d ds => exact .word ⟨hc, fun e he => hw.2 e (List.dropLast_subset _ he)⟩
  | @join w cs b hw hb hcs ih =>
    obtain ⟨c, ds, rfl, -⟩ := hcs.exists_cons
    rw [List.getLast?_append_cons, List.getLast?_cons_cons] at hs
    rw [List.dropLast_append_cons, List.dropLast_cons_cons]
    refine .join hw hb (ih hs ?_ fun b' hb' hsuffix => hlast b' hb' ?_)
    · intro heq
      exact hlast b hb (heq ▸ List.suffix_append w [b, 's'])
    · exact hsuffix.trans ((List.suffix_cons b _).trans (List.suffix_append w _))

theorem WordedKey.singular (h : WordedKey key) : Worded (singular key).toList := by
  rw [Naming.singular]
  split
  · rename_i hs
    rw [String.toList_ofList]
    refine h.words.dropLast hs ?_ fun b hb hsuffix => ?_
    · intro heq
      exact h.ne (String.toList_inj.1 heq)
    · rcases isWordBoundary_iff.1 hb with rfl | rfl
      · exact h.unhyphened (hsuffix.subset List.mem_cons_self)
      · exact h.last hsuffix
  · exact h.words

/-! ### Underscores for hyphens -/

theorem underscored_append (s t : String) :
    underscored (s ++ t) = underscored s ++ underscored t := by
  simp only [underscored, replaceAll_hyphen, String.toList_append, List.map_append,
    String.ofList_append]

theorem underscored_eq_self (h : '-' ∉ s.toList) : underscored s = s := by
  have hkeep : ∀ c ∈ s.toList, unhyphen c = id c := by
    intro c hc
    refine if_neg ?_
    rintro rfl
    exact h hc
  rw [underscored, replaceAll_hyphen, List.map_congr_left hkeep, List.map_id, String.ofList_toList]

/-! ### Back to `snake_case` -/

theorem IsWord.stemChars_append (h : IsWord w) (cs : List Char) :
    stemChars (w ++ cs) = w.map unhyphen ++ stemChars cs := by
  have hinside : ∀ c ∈ w, isWordBoundary c = false := fun c hc => h.isWordBoundary_eq_false hc
  clear h
  induction w with
  | nil => rfl
  | cons c w ih =>
    obtain ⟨hc, hw⟩ := List.forall_mem_cons.1 hinside
    have hne : c ≠ '-' := by
      rintro rfl
      cases hc
    rw [List.cons_append, stemChars, hc, if_neg Bool.false_ne_true, ih hw, List.map_cons,
      unhyphen, if_neg hne, List.cons_append]

/-- Of a text of words, nothing but the kind of its boundaries is lost. -/
theorem Worded.stemChars_eq (h : Worded cs) : stemChars cs = cs.map unhyphen := by
  induction h with
  | @word w hw => simpa [stemChars] using hw.stemChars_append []
  | @join w cs b hw hb hcs ih =>
    -- a small letter follows what joins two words
    have hhead : cs.head?.any (·.isLower) = true := by
      obtain ⟨c, ds, rfl, hc⟩ := hcs.exists_cons
      simpa using hc
    have hunhyphen : unhyphen b = '_' := by
      rcases isWordBoundary_iff.1 hb with rfl | rfl <;> rfl
    rw [hw.stemChars_append, stemChars, if_pos hb, if_pos hhead, ih, List.map_append,
      List.map_cons, hunhyphen]

theorem Worded.stem_eq (h : Worded s.toList) : stem s = underscored s := by
  rw [stem, underscored, h.stemChars_eq, replaceAll_hyphen]

/-- What `PascalCase` tells of a slug is what `snake_case` says of it. -/
theorem snakeCase_pascalCase (h : Reader.isSlug s = true) : snakeCase (pascalCase s) = stem s := by
  obtain ⟨c, cs, hs, hc, -⟩ := isSlug_iff_minuscule.1 h
  have hsmall := minuscule_of_isSlug h
  rw [snakeCase, pascalCase, String.toList_ofList, snakeChars, pascalChars_eq_pascalFrom hsmall,
    flatMap_snakeChar_pascalFrom hsmall, hs, List.head?_cons, Option.any_some, hc, Bool.and_self,
    if_pos rfl, dropUnderscore, stem, hs]

theorem snakeCase_camelCase (h : Reader.isSlug s = true) : snakeCase (camelCase s) = stem s := by
  obtain ⟨c, cs, hs, hc, hcs⟩ := isSlug_iff_minuscule.1 h
  have hupper : c.isUpper = false :=
    isUpper_eq_false_of_minuscule (minuscule_of_isSlug h) (hs ▸ List.mem_cons_self)
  have hne : c ≠ '_' := by
    rintro rfl
    cases hc
  have hkeep : snakeChar c = [c] := by rw [snakeChar, hupper]; rfl
  rw [snakeCase, camelCase, String.toList_ofList, snakeChars, hs, camelChars_cons hc hcs,
    List.flatMap_cons, flatMap_snakeChar_pascalFrom hcs, hkeep, List.singleton_append,
    Bool.false_and, if_neg Bool.false_ne_true, dropUnderscore.eq_2 _ (by simpa using hne), stem, hs,
    stemChars_cons hc]

theorem snakeChars_append_mark (h : Uncapitalized cs) (translates : Bool) :
    snakeChars (cs ++ mark translates) =
      cs ++ if translates then "_translation".toList else [] := by
  obtain ⟨⟨c, ds, rfl, hc⟩, hall⟩ := h
  have hne : c ≠ '_' := by
    rintro rfl
    cases hc
  have hmark : (mark translates).flatMap snakeChar =
      if translates then "_translation".toList else [] := by
    cases translates <;> decide
  rw [snakeChars, List.flatMap_append, flatMap_snakeChar_eq_self hall, hmark]
  generalize (if translates then "_translation".toList else []) = marked
  rw [List.cons_append, dropUnderscore.eq_2 _ (by simpa using hne)]

end Naming

/-! ### Names of labels -/

namespace TableLabel

/-- The slug and the key are made of words. -/
structure Worded (l : TableLabel) : Prop where
  /-- The slug is made of words. -/
  slug : Naming.Worded l.slug.toList
  /-- The key is made of words. -/
  key : ∀ key ∈ l.key, Naming.WordedKey key

namespace Worded

variable {l : TableLabel} {settings : BuildSettings}

theorem spelled (h : l.Worded) : l.Spelled where
  slug := h.slug.isSlug
  key := fun key hkey => (h.key key hkey).words.isSlug

theorem worded_row (h : l.Worded) : Naming.Worded l.row.toList := by
  have happend : ∀ {s t : String}, Naming.Worded s.toList → Naming.Worded t.toList →
      Naming.Worded (s ++ "_" ++ t).toList := by
    intro s t hs ht
    rw [String.toList_append, String.toList_append, List.append_assoc]
    exact hs.append rfl ht
  have hparts : Naming.Worded (withKey l.slug l.key).toList := by
    cases hkey : l.key with
    | none => exact h.slug
    | some key => exact happend h.slug (h.key key hkey).singular
  rw [row]
  split
  · exact happend hparts (.word (by decide))
  · exact hparts

/-- The row with underscores for hyphens: keys have none. -/
theorem underscored_row (h : l.Worded) : Naming.underscored l.row =
    withKey (Naming.underscored l.slug) l.key ++ if l.translates then "_translation" else "" := by
  have hparts : Naming.underscored (withKey l.slug l.key) =
      withKey (Naming.underscored l.slug) l.key := by
    cases hkey : l.key with
    | none => rfl
    | some key =>
      have hsingular : Naming.underscored (Naming.singular key) = Naming.singular key :=
        Naming.underscored_eq_self
          (mt (Naming.mem_singular_iff (by decide)).1 (h.key key hkey).unhyphened)
      rw [withKey, withKey, Naming.underscored_append, Naming.underscored_append, hsingular]
      rfl
  rw [row]
  split
  · rw [Naming.underscored_append, Naming.underscored_append, hparts, String.append_assoc]
    rfl
  · rw [hparts, String.append_empty]

/-- Without a lead-in, the name of a table is written back to the row of its label. -/
theorem snakeCase_name (h : l.Worded) (hlead : settings.lead.getD "" = "") :
    Naming.snakeCase (l.name settings) = Naming.underscored l.row := by
  cases hsettings : settings.convention with
  | pascalCase =>
    rw [h.spelled.name_pascalCase hsettings, hlead, String.empty_append,
      Naming.snakeCase_pascalCase h.spelled.isSlug_row, h.worded_row.stem_eq]
  | camelCase =>
    rw [h.spelled.name_camelCase hsettings, hlead, String.empty_append,
      Naming.snakeCase_camelCase h.spelled.isSlug_row, h.worded_row.stem_eq]
  | snakeCase =>
    have hfront : l.front settings = "" := by
      rw [front, hlead]
      split <;> rfl
    rw [Naming.snakeCase, h.spelled.name_snakeCase hsettings, hfront, String.toList_empty,
      List.nil_append, Naming.snakeChars_append_mark h.spelled.uncapitalized_withKey,
      h.underscored_row, String.ofList_append, String.ofList_toList]
    split <;> rfl

end Worded

end TableLabel

/-! ### Names made of names of tables -/

namespace Naming

/-- The tables that a model and a component it embeds have in a convention, each followed by that of
its translations. -/
def tableNames (slug key : String) (convention : Convention) : List String :=
  let base := tableName slug convention none
  let instances := componentTableName base key convention
  [base, translationModelName base, instances, translationModelName instances]

/-- What is called after a table: the key to it, the way back to it, and the physical table of
translations. -/
def derivedNames (table : String) : List String :=
  [foreignKeyName table, backRelationName table, snakeCase table]

/-- Another convention changes no name that is made of those of tables. -/
theorem map_derivedNames_eq {slug key : String} (hslug : Worded slug.toList) (hkey : WordedKey key)
    (convention other : Convention) :
    (tableNames slug key convention).map derivedNames =
      (tableNames slug key other).map derivedNames := by
  have hlabel : ∀ (key? : Option String) (translates : Bool), (∀ k ∈ key?, k = key) →
      (TableLabel.mk slug key? translates).Worded := fun key? translates hkey? =>
    ⟨hslug, fun k hk => hkey? k hk ▸ hkey⟩
  -- all that is made of the name of a table is made of the row of its label
  have hnames : ∀ c, (tableNames slug key c).map snakeCase =
      ([⟨slug, none, false⟩, ⟨slug, none, true⟩, ⟨slug, some key, false⟩, ⟨slug, some key, true⟩] :
        List TableLabel).map fun l => underscored l.row := by
    intro c
    have hname : ∀ l : TableLabel, l.Worded →
        snakeCase (l.name ⟨c, none, true, defaultPattern, []⟩) = underscored l.row := fun l hl =>
      hl.snakeCase_name rfl
    simp only [List.map_cons, List.map_nil,
      ← hname _ (hlabel none false (by simp)), ← hname _ (hlabel none true (by simp)),
      ← hname _ (hlabel (some key) false (by simp)), ← hname _ (hlabel (some key) true (by simp))]
    rfl
  have hderived : ∀ c, (tableNames slug key c).map derivedNames =
      ((tableNames slug key c).map snakeCase).map fun n => [n ++ "_id", n, n] := fun c => by
    rw [List.map_map]
    rfl
  rw [hderived, hderived, hnames, hnames]

/-- Two words in the slug and in the key, which loses its `s`. -/
theorem map_derivedNames_blogPost :
    Worded "blog-post".toList ∧ WordedKey "meta_tags" ∧
    (tableNames "blog-post" "meta_tags" .pascalCase).map derivedNames =
      (tableNames "blog-post" "meta_tags" .snakeCase).map derivedNames ∧
    tableNames "blog-post" "meta_tags" .pascalCase =
      ["BlogPost", "BlogPostTranslation", "BlogPostMetaTag", "BlogPostMetaTagTranslation"] ∧
    tableNames "blog-post" "meta_tags" .snakeCase =
      ["blog_post", "blog_postTranslation", "blog_post_meta_tag",
        "blog_post_meta_tagTranslation"] := by
  have hjoin : ∀ {s t u : String} {b : Char}, s.toList = t.toList ++ b :: u.toList →
      IsWord t.toList → isWordBoundary b = true → IsWord u.toList → Worded s.toList := by
    intro s t u b hs ht hb hu
    rw [hs]
    exact .join ht hb (.word hu)
  have hslug : Worded "blog-post".toList :=
    @hjoin _ "blog" "post" '-' (by decide) (by decide) rfl (by decide)
  have hkey : WordedKey "meta_tags" :=
    ⟨@hjoin _ "meta" "tags" '_' (by decide) (by decide) rfl (by decide), by decide, by decide,
      by decide⟩
  exact ⟨hslug, hkey, map_derivedNames_eq hslug hkey .pascalCase .snakeCase, by decide +kernel,
    by decide +kernel⟩

end Naming

end ContentSchema
