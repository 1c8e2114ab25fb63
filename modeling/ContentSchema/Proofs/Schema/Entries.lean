import ContentSchema.Proofs.Schema.Scanner

/-!
# Rows of entries

Text that is a row of entries, each a title and a value with a colon between them.  A reader searches
it for a title with a colon behind it.  Where no other colons occur, the search goes from entry to
entry (`findFirst_entriesText`).  Values that are lists of words are read as they were written
(`names_commaText`).
-/

namespace ContentSchema

open Text Attribute

/-! ### Searching for a title -/

section Search

variable {α : Type} {read? : List Char → Option α} {title k rest : List Char}

theorem eq_of_prefix_colon (htitle : ':' ∉ title) (hk : ':' ∉ k)
    (h : title ++ [':'] <+: k ++ ':' :: rest) : title = k := by
  -- if one were longer, it would hold the colon behind the other
  rcases List.prefix_or_prefix_of_prefix ((List.prefix_append _ _).trans h)
    (List.prefix_append k (':' :: rest)) with ⟨t, rfl⟩ | ⟨t, rfl⟩
  · rw [List.append_assoc, List.prefix_append_right_inj] at h
    cases t with
    | nil => rw [List.append_nil]
    | cons d ds =>
      obtain ⟨rfl, -⟩ := List.cons_prefix_cons.1 h
      exact absurd (List.mem_append_right _ List.mem_cons_self) hk
  · rw [List.append_assoc, List.prefix_append_right_inj] at h
    cases t with
    | nil => rw [List.append_nil]
    | cons d ds =>
      obtain ⟨rfl, -⟩ := List.cons_prefix_cons.1 h
      exact absurd (List.mem_append_right _ List.mem_cons_self) htitle

variable (hread : ∀ cs a, read? cs = some a → title ++ [':'] <+: cs) (htitle : ':' ∉ title)

include hread in
theorem findFirst_eq_none (hk : ':' ∉ k) : findFirst read? k = none := by
  have hnone : ∀ cs, ':' ∉ cs → read? cs = none := by
    intro cs hcs
    cases h : read? cs with
    | none => rfl
    | some a => exact absurd ((hread cs a h).subset (by simp)) hcs
  induction k with
  | nil => rw [findFirst, hnone [] hk]
  | cons c k ih =>
    rw [findFirst, hnone _ hk]
    exact ih fun hmem => hk (List.mem_cons_of_mem _ hmem)

include hread htitle in
/-- A colon behind another title is passed over. -/
theorem findFirst_skip (hk : ':' ∉ k) (hsuffix : ¬ title <:+ k) :
    findFirst read? (k ++ ':' :: rest) = findFirst read? rest := by
  have hnone : ∀ k', ':' ∉ k' → k' <:+ k → read? (k' ++ ':' :: rest) = none := by
    intro k' hk' hsub
    cases h : read? (k' ++ ':' :: rest) with
    | none => rfl
    | some a =>
      rw [← eq_of_prefix_colon htitle hk' (hread _ a h)] at hsub
      exact absurd hsub hsuffix
  clear hsuffix
  induction k with
  | nil =>
    rw [List.nil_append, findFirst]
    have := hnone [] (by simp) (List.nil_suffix)
    rw [List.nil_append] at this
    rw [this]
  | cons c k ih =>
    rw [List.cons_append, findFirst]
    have := hnone (c :: k) hk List.suffix_rfl
    rw [List.cons_append] at this
    rw [this]
    exact ih (fun hmem => hk (List.mem_cons_of_mem _ hmem))
      fun k' hk' hsub => hnone k' hk' (hsub.trans (List.suffix_cons c k))

include hread htitle in
/-- At the title the search takes what is read there, and goes on behind the colon if nothing is. -/
theorem findFirst_title (hk : ':' ∉ k) :
    findFirst read? (k ++ (title ++ ':' :: rest)) =
      (read? (title ++ ':' :: rest)).or (findFirst read? rest) := by
  induction k with
  | nil =>
    rw [List.nil_append]
    cases title with
    | nil =>
      rw [List.nil_append, findFirst]
      cases read? (':' :: rest) <;> rfl
    | cons c t =>
      -- the colon does not stand behind the title for those who begin within it
      have hshort : ¬ c :: t <:+ t := fun h => by simpa using h.length_le
      have hskip : findFirst read? (t ++ ':' :: rest) = findFirst read? rest :=
        findFirst_skip hread htitle (fun hmem => htitle (List.mem_cons_of_mem _ hmem)) hshort
      rw [List.cons_append, findFirst, hskip]
      cases read? (c :: (t ++ ':' :: rest)) <;> rfl
  | cons c k ih =>
    have hnone : read? (c :: (k ++ (title ++ ':' :: rest))) = none := by
      cases h : read? (c :: (k ++ (title ++ ':' :: rest))) with
      | none => rfl
      | some b =>
        have hp := hread _ b h
        rw [← List.append_assoc, ← List.cons_append] at hp
        have hfree : ':' ∉ c :: (k ++ title) := by
          rw [← List.cons_append, List.mem_append, not_or]
          exact ⟨hk, htitle⟩
        have hlen := congrArg List.length (eq_of_prefix_colon htitle hfree hp)
        simp only [List.length_cons, List.length_append] at hlen
        omega
    rw [List.cons_append, findFirst, hnone]
    exact ih fun hmem => hk (List.mem_cons_of_mem _ hmem)

end Search

/-! ### Lists of words -/

/-- Each name is a word. -/
def AllWords (names : List String) : Prop := ∀ f ∈ names, f.toList ≠ [] ∧ Wordy f.toList

instance (names : List String) : Decidable (AllWords names) :=
  inferInstanceAs (Decidable (∀ f ∈ names, f.toList ≠ [] ∧ Wordy f.toList))

/-- The names separated by commas. -/
def commaText (names : List String) : List Char := joinWith [',', ' '] (names.map (·.toList))

section Words

variable {names : List String}

theorem mem_commaText {c : Char} (h : c ∈ commaText names) :
    c = ',' ∨ c = ' ' ∨ ∃ f ∈ names, c ∈ f.toList := by
  rcases mem_joinWith h with h | ⟨t, ht, hc⟩
  · simpa [or_assoc] using Or.inl h
  · obtain ⟨f, hf, rfl⟩ := List.mem_map.1 ht
    exact Or.inr (Or.inr ⟨f, hf, hc⟩)

theorem AllWords.not_mem_commaText (h : AllWords names) {c : Char} (hcomma : c ≠ ',')
    (hspace : c ≠ ' ') (hc : isWordChar c = false) : c ∉ commaText names := by
  intro hmem
  rcases mem_commaText hmem with rfl | rfl | ⟨f, hf, hcf⟩
  · exact hcomma rfl
  · exact hspace rfl
  · exact (h f hf).2.not_mem hc hcf

theorem AllWords.colon_not_mem_bracketed (h : AllWords names) : ':' ∉ bracketed names := by
  have hfree := h.not_mem_commaText (c := ':') (by decide) (by decide)
    (isWordChar_eq_false (by decide))
  rw [commaText] at hfree
  simp [bracketed, hfree]

theorem AllWords.commaText_ne_nil (h : AllWords names) (hne : names ≠ []) :
    commaText names ≠ [] := by
  obtain ⟨f, fs, rfl⟩ := List.exists_cons_of_ne_nil hne
  rw [commaText, List.map_cons, joinWith_cons]
  exact fun hnil => (h f List.mem_cons_self).1 (List.append_eq_nil_iff.1 hnil).1

theorem strip_blanks_word {bs : List Char} {f : String} (hbs : ∀ b ∈ bs, isBlank b = true)
    (hne : f.toList ≠ []) (hf : Wordy f.toList) : strip (bs ++ f.toList) = f.toList := by
  have hsolid := strip_of_solid hf.solid
  obtain ⟨c, cs, hc⟩ := List.exists_cons_of_ne_nil hne
  have hblank : isBlank c = false := hf.solid c (by simp [hc])
  have hempty := @strip_append [] _ (by simp) hblank cs
  rw [hc] at hsolid ⊢
  rw [List.nil_append, hsolid] at hempty
  rw [strip_append hbs hblank, ← hempty]

theorem not_comma_of_word {bs : List Char} {f : String} (hbs : ∀ b ∈ bs, isBlank b = true)
    (hf : Wordy f.toList) : ∀ c ∈ bs ++ f.toList, decide (c = ',') = false := by
  intro c hc
  rw [decide_eq_false_iff_not]
  rintro rfl
  rcases List.mem_append.1 hc with hc | hc
  · exact absurd (hbs _ hc) (by decide)
  · exact hf.not_mem (isWordChar_eq_false (by decide)) hc

theorem names_words {bs : List Char} (hbs : ∀ b ∈ bs, isBlank b = true) {f : String}
    {fs : List String} (h : AllWords (f :: fs)) :
    Attribute.names (bs ++ f.toList ++ fs.flatMap fun g => [',', ' '] ++ g.toList) = f :: fs := by
  obtain ⟨hne, hf⟩ := h f List.mem_cons_self
  have hstrip := strip_blanks_word hbs hne hf
  have hempty : f.toList.isEmpty = false := by simpa using hne
  -- the first name is split off with the blanks in front of it; those of the next is the space
  induction fs generalizing bs f with
  | nil =>
    rw [List.flatMap_nil, List.append_nil, Attribute.names,
      List.splitOnP_eq_singleton (not_comma_of_word hbs hf), List.map_singleton, hstrip,
      List.filterMap_cons, hempty]
    simp
  | cons g fs ih =>
    have hgfs : AllWords (g :: fs) := fun k hk => h k (List.mem_cons_of_mem _ hk)
    obtain ⟨hgne, hg⟩ := hgfs g List.mem_cons_self
    have hrest := @ih [' '] (by decide) _ hgfs hgne hg
      (strip_blanks_word (by decide) hgne hg) (by simpa using hgne)
    have htext : bs ++ f.toList ++ (g :: fs).flatMap (fun k => [',', ' '] ++ k.toList) =
        (bs ++ f.toList) ++
          ',' :: ([' '] ++ g.toList ++ fs.flatMap fun k => [',', ' '] ++ k.toList) := by
      simp
    rw [Attribute.names] at hrest ⊢
    rw [htext, List.splitOnP_append_cons_of_forall_mem (not_comma_of_word hbs hf) ',' (by decide),
      List.map_cons, hstrip, List.filterMap_cons, hrest]
    simp [hempty]

/-- A list of words is read as it was written. -/
theorem names_commaText (h : AllWords names) : Attribute.names (commaText names) = names := by
  cases names with
  | nil => rfl
  | cons f fs =>
    rw [commaText, List.map_cons, joinWith_cons, List.flatMap_map]
    exact @names_words [] (by simp) _ _ h

end Words

/-! ### Entries -/

/-- The text of an entry: its title and its value. -/
def entryText (e : String × List Char) : List Char := e.1.toList ++ ':' :: ' ' :: e.2

/-- The text of entries that follow others, up to the parenthesis that closes the attribute. -/
def moreEntries (es : List (String × List Char)) : List Char :=
  es.flatMap (fun e => [',', ' '] ++ entryText e) ++ [')']

/-- The text of entries, up to the parenthesis that closes the attribute. -/
def entriesText : List (String × List Char) → List Char
  | [] => [')']
  | e :: es => entryText e ++ moreEntries es

theorem head?_moreEntries (es : List (String × List Char)) :
    (moreEntries es).head? = some ',' ∨ (moreEntries es).head? = some ')' := by
  cases es with
  | nil => exact Or.inr rfl
  | cons e es => exact Or.inl rfl

/-- Entries follow others as they stand, behind a separator if there are any. -/
theorem exists_moreEntries_eq (es : List (String × List Char)) :
    ∃ sep, ':' ∉ sep ∧ moreEntries es = sep ++ entriesText es := by
  cases es with
  | nil => exact ⟨[], by simp, rfl⟩
  | cons e es => exact ⟨[',', ' '], by decide, by simp [moreEntries, entriesText]⟩

theorem joinWith_entries (es : List (String × List Char)) :
    joinWith [',', ' '] (es.map entryText) ++ [')'] = entriesText es := by
  cases es with
  | nil => rfl
  | cons e es =>
    rw [List.map_cons, joinWith_cons, List.append_assoc, List.flatMap_map]
    rfl

/-- The title is none of an attribute's other titles, nor an end or a beginning of one. -/
def Distinct (title : String) (e : String × List Char) : Prop :=
  e.1 = title ∨ ¬ title.toList <:+ e.1.toList ∧ ¬ e.1.toList <:+ title.toList

section Entries

variable {α : Type} {read? : List Char → Option α} {title : String}
  {value : String × List Char → Option α}
  (hread : ∀ cs a, read? cs = some a → title.toList ++ [':'] <+: cs) (htitle : ':' ∉ title.toList)

/-- What the search for a title takes from an entry. -/
def entryValue? (title : String) (value : String × List Char → Option α) (e : String × List Char) :
    Option α :=
  if e.1 == title then value e else none

include hread htitle in
/-- The search takes what is read at an entry if the title is its own, and otherwise goes on behind
the colon. -/
theorem findFirst_entry {k rest : List Char} {e : String × List Char} (hk : ':' ∉ k)
    (hcolon : ':' ∉ e.1.toList) (hdistinct : Distinct title e)
    (hvalue : e.1 = title → read? (entryText e ++ rest) = value e) :
    findFirst read? (k ++ (entryText e ++ rest)) =
      (entryValue? title value e).or (findFirst read? ((' ' :: e.2) ++ rest)) := by
  by_cases he : e.1 = title
  · have hhit := hvalue he
    have hentry : entryText e ++ rest = title.toList ++ ':' :: (' ' :: (e.2 ++ rest)) := by
      rw [entryText, he]
      simp
    rw [hentry] at hhit ⊢
    rw [findFirst_title hread htitle hk, hhit, entryValue?, if_pos (beq_iff_eq.2 he)]
    rfl
  · have hne : (e.1 == title) = false := by simpa using he
    have hsuffix : ¬ title.toList <:+ k ++ e.1.toList := by
      intro hs
      obtain ⟨h₁, h₂⟩ := hdistinct.resolve_left he
      rcases List.suffix_or_suffix_of_suffix hs (List.suffix_append _ _) with h | h
      · exact h₁ h
      · exact h₂ h
    have hentry : k ++ (entryText e ++ rest) =
        (k ++ e.1.toList) ++ ':' :: ((' ' :: e.2) ++ rest) := by
      simp [entryText]
    rw [entryValue?, hne, hentry, findFirst_skip hread htitle _ hsuffix]
    · rfl
    · rw [List.mem_append, not_or]
      exact ⟨hk, hcolon⟩

include hread htitle in
/-- The search goes from entry to entry until something is read at one with the title. -/
theorem findFirst_entriesText {k : List Char} (hk : ':' ∉ k) {es : List (String × List Char)}
    (hcolon : ∀ e ∈ es, ':' ∉ e.1.toList ∧ ':' ∉ e.2) (hdistinct : ∀ e ∈ es, Distinct title e)
    (hvalue : ∀ e ∈ es, e.1 = title → ∀ rest, rest.head? = some ',' ∨ rest.head? = some ')' →
      read? (entryText e ++ rest) = value e) :
    findFirst read? (k ++ entriesText es) = es.findSome? (entryValue? title value) := by
  induction es generalizing k with
  | nil =>
    rw [entriesText, findFirst_eq_none hread]
    · rfl
    · simp [hk]
  | cons e es ih =>
    obtain ⟨sep, hsep, hmore⟩ := exists_moreEntries_eq es
    -- past an entry the search goes on with its value
    have htail := ih (k := ' ' :: e.2 ++ sep) (by simp [(hcolon e List.mem_cons_self).2, hsep])
      (fun e' he' => hcolon e' (List.mem_cons_of_mem _ he'))
      (fun e' he' => hdistinct e' (List.mem_cons_of_mem _ he'))
      fun e' he' => hvalue e' (List.mem_cons_of_mem _ he')
    rw [List.append_assoc, ← hmore] at htail
    rw [entriesText, findFirst_entry hread htitle hk (hcolon e List.mem_cons_self).1
      (hdistinct e List.mem_cons_self)
      fun he => hvalue e List.mem_cons_self he _ (head?_moreEntries es), htail,
      List.findSome?_cons]
    cases entryValue? title value e <;> rfl

end Entries

end ContentSchema
