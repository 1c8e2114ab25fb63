import ContentSchema.Compilation.Field
import ContentSchema.Proofs.Schema.Relations
import ContentSchema.Schema.Size

/-!
# Regular tables

The columns that compilation makes are regular: names are words that may have hyphens in them, types
are words, attributes come from a fixed list, defaults are numbers or truth values and relations are
plain (`Column.Regular`).  Regular tables are legible, and readable if none of their numbers is too
long to be written.
-/

namespace ContentSchema

open Text

/-! ### Columns -/

namespace Column

/-- The attributes that columns of generated tables have. -/
def ownAttributes : List String :=
  ["@id", "@default(cuid())", "@unique", "@default(now())", "@updatedAt"]

/-- The characters of the column are those of generated columns. -/
structure Lettered (c : Column) : Prop where
  /-- The name consists of word characters and hyphens. -/
  name : ∀ d ∈ c.name.toList, isWordChar d = true ∨ d = '-'
  /-- The type is a word. -/
  type : Wordy c.type.toList
  /-- The attributes are those of generated columns. -/
  attributes : ∀ a ∈ c.attributes, a ∈ ownAttributes
  /-- A default is no text. -/
  default : ∀ s, c.default ≠ some (.text s)
  /-- A relation is plain. -/
  relation : ∀ r ∈ c.relation, r.Plain
  /-- There is no physical name. -/
  mapName : c.mapName = none
  /-- The texts of the rules stand on one line each. -/
  rules : ∀ r ∈ c.rules, ∀ s ∈ r.texts, Unbroken s.toList

/-- The column is one of generated tables. -/
structure Regular (c : Column) : Prop extends c.Lettered where
  /-- The name is not empty. -/
  name_ne : c.name ≠ ""
  /-- The type is not empty. -/
  type_ne : c.type ≠ ""
  /-- A list is never nullable. -/
  marks : ¬ (c.nullable = true ∧ c.isList = true)

variable {c c' : Column}

theorem Lettered.regular_of_make (h : c.Lettered) (hmake : compiled c.make = .ok c') :
    c'.Regular := by
  obtain ⟨hname, htype, rfl⟩ := compiled_make_eq_ok.1 hmake
  exact { h with name_ne := hname, type_ne := htype, marks := by simp }

theorem lettered_bare {name type : String}
    (hname : ∀ d ∈ name.toList, isWordChar d = true ∨ d = '-')
    (htype : Wordy type.toList) : (bare name type).Lettered where
  name := hname
  type := htype
  attributes := by simp [bare]
  default := by simp [bare]
  relation := by simp [bare]
  mapName := rfl
  rules := by simp [bare]

/-- A column is legible if its name and its type are words, apart from hyphens in the name. -/
theorem legible_of_words (hname : ∀ d ∈ c.name.toList, isWordChar d = true ∨ d = '-')
    (hname_ne : c.name ≠ "") (htype : Wordy c.type.toList) (htype_ne : c.type ≠ "")
    (hmarks : ¬ (c.nullable = true ∧ c.isList = true)) : c.Legible where
  solid_name := by
    intro d hd
    rcases hname d hd with hw | rfl
    · exact isBlank_of_isWordChar hw
    · decide
  name_ne_nil := by simpa using hname_ne
  not_comment := by
    rw [Bool.eq_false_iff, ne_eq, startsWith_iff]
    intro hp
    have hslash : isWordChar '/' = false := isWordChar_eq_false (by decide)
    rcases hname '/' (hp.subset (by decide)) with hw | hd
    · rw [hslash] at hw
      cases hw
    · cases hd
  not_directive := by
    rw [Bool.eq_false_iff, ne_eq, startsWith_iff]
    intro hp
    have hat : isWordChar '@' = false := isWordChar_eq_false (by decide)
    rcases hname '@' (hp.subset (by decide)) with hw | hd
    · rw [hat] at hw
      cases hw
    · cases hd
  solid_type := htype.solid
  type_ne_nil := by simpa using htype_ne
  splitType_signature := by
    have hquestion : ¬ ['?'] <:+ c.type.toList := fun hs =>
      htype.not_mem (c := '?') (isWordChar_eq_false (by decide)) (hs.subset (by decide))
    have hbrackets : ¬ ['[', ']'] <:+ c.type.toList := fun hs =>
      htype.not_mem (c := '[') (isWordChar_eq_false (by decide)) (hs.subset (by decide))
    exact splitType_typeSignature (fun _ _ => hquestion) (fun _ => hbrackets) hmarks

theorem Regular.legible (h : c.Regular) : c.Legible :=
  legible_of_words h.name h.name_ne h.type h.type_ne h.marks

theorem Regular.at_not_mem (h : c.Regular) : '@' ∉ c.name.toList ∧ '@' ∉ c.type.toList := by
  have hat : isWordChar '@' = false := isWordChar_eq_false (by decide)
  refine ⟨fun hmem => ?_, h.type.not_mem hat⟩
  rcases h.name '@' hmem with hw | hd
  · rw [hat] at hw
    cases hw
  · cases hd

/-! ### Defaults -/

/-- The characters of a literal are those of numbers and truth values. -/
theorem mem_literal {d : ColumnDefault} (hd : ∀ s, d ≠ .text s) {e : Char} (he : e ∈ d.literal) :
    isNumeralChar e = true ∨ e ∈ "truefalse".toList := by
  cases d with
  | bool b =>
    refine Or.inr ?_
    have hall : ∀ b, ∀ e ∈ boolLiteral b, e ∈ "truefalse".toList := by decide
    exact hall b e he
  | int n => exact Or.inl (numeral_intText n e he)
  | float x => exact Or.inl (numeral_doubleLiteral x e he)
  | text s => exact absurd rfl (hd s)

/-- The attribute of a default. -/
def defaultAttribute (d : ColumnDefault) : List Char := "@default(".toList ++ d.literal ++ [')']

theorem isToken_defaultAttribute {d : ColumnDefault} (hd : ∀ s, d ≠ .text s) :
    Attribute.IsToken (defaultAttribute d) := by
  have hparts : defaultAttribute d = '@' :: ("default".toList ++ '(' :: (d.literal ++ [')'])) := rfl
  refine ⟨_, _, hparts, by decide, Or.inr ⟨d.literal, rfl, ?_⟩⟩
  refine Attribute.balanced_of_plain fun e he => ?_
  have hparen : isNumeralChar '(' = false ∧ isNumeralChar ')' = false := by decide
  rcases mem_literal hd he with hn | hmem
  · constructor
    · rintro rfl
      rw [hparen.1] at hn
      cases hn
    · rintro rfl
      rw [hparen.2] at hn
      cases hn
  · have hall : ∀ e ∈ "truefalse".toList, e ≠ '(' ∧ e ≠ ')' := by decide
    exact hall e hmem

theorem solid_literal {d : ColumnDefault} (hd : ∀ s, d ≠ .text s) : Solid d.literal := by
  intro e he
  rcases mem_literal hd he with hn | hmem
  · exact isBlank_of_isNumeralChar hn
  · have hall : ∀ e ∈ "truefalse".toList, isBlank e = false := by decide
    exact hall e hmem

theorem defaultBody?_defaultAttribute (d : ColumnDefault) :
    Attribute.defaultBody? (defaultAttribute d) =
      if d.literal.isEmpty || '\n' ∈ d.literal then none else some d.literal := by
  have hstart : dropStart? "@default(".toList (defaultAttribute d) = some (d.literal ++ [')']) := by
    rw [Attribute.dropStart?_eq_some]
    rfl
  have hreverse : (d.literal ++ [')']).reverse = ')' :: d.literal.reverse := by simp
  rw [Attribute.defaultBody?, hstart]
  simp only [Option.bind_eq_bind, Option.bind_some, hreverse, List.reverse_reverse]

/-- Only an oversized default is written as an overlong attribute. -/
theorem not_isOverlong_defaultAttribute {d : ColumnDefault} (hd : ∀ s, d ≠ .text s)
    (hsize : d.isOversized = false) : ¬ Attribute.IsOverlong (defaultAttribute d) := by
  rintro ⟨body, hbody, hdigits, hlong⟩
  have hliteral : body = d.literal := by
    rw [defaultBody?_defaultAttribute] at hbody
    split at hbody
    · cases hbody
    · exact (Option.some.inj hbody).symm
  rw [hliteral, strip_of_solid (solid_literal hd)] at hdigits hlong
  cases d with
  | bool b =>
    have hall : ∀ b, Attribute.isDigits (Attribute.takeMinus (boolLiteral b)).2 = false := by decide
    rw [ColumnDefault.literal, hall] at hdigits
    cases hdigits
  | int n =>
    rw [ColumnDefault.literal, takeMinus_intText] at hlong
    rw [ColumnDefault.isOversized, isOversized, decide_eq_false_iff_not] at hsize
    exact hsize hlong
  | float x =>
    rw [ColumnDefault.literal, doubleLiteral] at hdigits hlong
    cases hx : x.toInt? with
    | none =>
      simp only [hx] at hdigits
      rw [isDigits_text] at hdigits
      cases hdigits
    | some n =>
      simp only [hx] at hlong
      rw [takeMinus_intText] at hlong
      exact absurd (digits_length_of_toInt? hx) (by omega)
  | text s => exact hd s rfl

/-! ### Attributes -/

/-- The attributes of generated columns are single tokens on one line, and none is overlong. -/
theorem of_mem_ownAttributes {a : String} (ha : a ∈ ownAttributes) :
    Attribute.IsToken a.toList ∧ Unbroken a.toList ∧ ¬ Attribute.IsOverlong a.toList := by
  have hempty : Attribute.Balanced "()".toList := .group .nil .nil
  have hbody : ∀ word : List Char, (∀ c ∈ word, c ≠ '(' ∧ c ≠ ')') →
      Attribute.Balanced (word ++ "()".toList) := fun word hword =>
    (Attribute.balanced_of_plain hword).append hempty
  simp only [ownAttributes, List.mem_cons, List.not_mem_nil, or_false] at ha
  rcases ha with rfl | rfl | rfl | rfl | rfl
  · refine ⟨⟨"id".toList, [], rfl, by decide, Or.inl rfl⟩, by decide, ?_⟩
    exact Attribute.exists_defaultValue?_iff.1 ⟨_, rfl⟩
  · refine ⟨⟨"default".toList, "(cuid())".toList, rfl, by decide,
      Or.inr ⟨"cuid()".toList, rfl, ?_⟩⟩,
      by decide, ?_⟩
    · exact hbody "cuid".toList (by decide)
    · exact Attribute.exists_defaultValue?_iff.1 ⟨_, rfl⟩
  · refine ⟨⟨"unique".toList, [], rfl, by decide, Or.inl rfl⟩, by decide, ?_⟩
    exact Attribute.exists_defaultValue?_iff.1 ⟨_, rfl⟩
  · refine ⟨⟨"default".toList, "(now())".toList, rfl, by decide, Or.inr ⟨"now()".toList, rfl, ?_⟩⟩,
      by decide, ?_⟩
    · exact hbody "now".toList (by decide)
    · exact Attribute.exists_defaultValue?_iff.1 ⟨_, rfl⟩
  · refine ⟨⟨"updatedAt".toList, [], rfl, by decide, Or.inl rfl⟩, by decide, ?_⟩
    exact Attribute.exists_defaultValue?_iff.1 ⟨_, rfl⟩

/-- What a regular column shows behind its type: tokens on one line each, of which none is overlong
if the column holds no number that is too long. -/
theorem Regular.of_mem_modifiers (h : c.Regular) {m : List Char} (hm : m ∈ c.modifiers) :
    Attribute.IsToken m ∧ Unbroken m ∧ (c.holdsOversized = false → ¬ Attribute.IsOverlong m) := by
  rcases Column.of_mem_modifiers hm with ⟨a, ha, rfl⟩ | hm | ⟨r, hr, rfl⟩ | ⟨n, hn, -⟩
  · obtain ⟨htoken, hunbroken, hshort⟩ := of_mem_ownAttributes (h.attributes a ha)
    exact ⟨htoken, hunbroken, fun _ => hshort⟩
  · rw [defaultModifier] at hm
    split at hm
    · rename_i d hd
      have htext : ∀ s, d ≠ .text s := fun s hs => h.default s (by rw [hd, hs])
      split at hm
      · cases hm
      · rename_i hattribute
        rw [List.mem_singleton.1 hm]
        refine ⟨isToken_defaultAttribute htext, ?_, fun hsize => ?_⟩
        · rw [unbroken_append, unbroken_append]
          exact ⟨⟨by decide, (solid_literal htext).unbroken⟩, by decide⟩
        · refine not_isOverlong_defaultAttribute htext ?_
          have hboth : c.rules.any (·.holdsOversized) = false ∧ d.isOversized = false := by
            simpa [holdsOversized, hd, hattribute] using hsize
          exact hboth.2
    · cases hm
  · have hplain := h.relation r hr
    exact ⟨hplain.isToken_print, hplain.unbroken_print, fun _ => r.not_isOverlong_print⟩
  · rw [h.mapName] at hn
    cases hn

end Column

/-! ### Tables -/

namespace Table

/-- The table is one that compilation makes. -/
structure Regular (t : Table) : Prop where
  /-- The name is not empty. -/
  name_ne : t.name ≠ ""
  /-- The name is a word. -/
  name : Wordy t.name.toList
  /-- There are columns. -/
  columns_ne : t.columns ≠ []
  /-- The columns are regular. -/
  columns : ∀ c ∈ t.columns, c.Regular
  /-- The columns that directives list stand on one line each. -/
  sets : ∀ names ∈ t.indexes ++ t.unique, ∀ n ∈ names, Unbroken n.toList
  /-- The physical name stands on one line. -/
  mapName : ∀ n ∈ t.mapName, Unbroken n.toList

variable {t : Table}

theorem Regular.legible (h : t.Regular) : t.Legible := by
  have hframed : t.Framed := by
    refine framed_of h.name (by simpa using h.name_ne) (fun c hc => ?_) h.sets h.mapName
    have hregular := h.columns c hc
    exact ⟨hregular.legible, fun _ hm => (hregular.of_mem_modifiers hm).2.1, hregular.rules⟩
  exact { hframed with
    columns_ne_nil := h.columns_ne
    columns := fun c hc => (h.columns c hc).legible }

/-- A regular table is readable if none of its numbers is too long to be written. -/
theorem Regular.readable (h : t.Regular) (hsize : ∀ c ∈ t.columns, c.holdsOversized = false) :
    t.Readable := by
  intro c hc a ha
  have hregular := h.columns c hc
  obtain ⟨hname, htype⟩ := hregular.at_not_mem
  rw [Column.split_print hregular.legible hname htype
    fun _ hm => (hregular.of_mem_modifiers hm).1] at ha
  exact (hregular.of_mem_modifiers ha).2.2 (hsize c hc)

end Table

end ContentSchema
