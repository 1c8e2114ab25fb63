import ContentSchema.Proofs.Schema.Parsed

/-!
# Rows of digits

The reader of schema text only fails at a default with too long a row of digits, which stands behind
an opening parenthesis, a minus sign or a blank (`Attribute.not_isOverlong_of_shortNumbers`).  If no
row of digits in a text is too long, none becomes so in the lines of the columns read from it
(`Column.Attributed.shortNumbers_print`): they are put together from parts of the text, with other
characters in between.  Only escapes make digits, and these stand behind a letter.
-/

namespace ContentSchema

open Text

/-- No row of digits in the text is too long for a whole number. -/
def ShortRows (cs : List Char) : Prop :=
  ∀ row, row <:+: cs → (∀ d ∈ row, isDecimal d = true) → row.length ≤ maxDigits

/-- Whether the digits of a default may stand behind the character. -/
def leadsNumber (c : Char) : Bool := c == '(' || c == '-' || isBlank c

/-- No row of digits that stands behind such a character is too long for a whole number. -/
def ShortNumbers (cs : List Char) : Prop :=
  ∀ b row, b :: row <:+: cs → leadsNumber b = true → (∀ d ∈ row, isDecimal d = true) →
    row.length ≤ maxDigits

/-- No row of digits that stands behind such a character or at the start is too long for a whole
number. -/
def ShortWords (cs : List Char) : Prop := ShortNumbers (' ' :: cs)

variable {cs xs ys : List Char} {b c : Char}

/-! ### Rows in joined texts -/

theorem prefix_of_append_cons {row : List Char} (h : row <+: xs ++ c :: ys) (hc : c ∉ row) :
    row <+: xs := by
  rcases List.prefix_or_prefix_of_prefix h (List.prefix_append xs _) with hrow | ⟨rest, rfl⟩
  · exact hrow
  · rw [List.prefix_append_right_inj] at h
    cases rest with
    | nil => rw [List.append_nil]
    | cons d rest =>
      rw [(List.cons_prefix_cons.1 h).1] at hc
      exact absurd (List.mem_append_right _ List.mem_cons_self) hc

/-- What holds a character at most at its start stands on one side of it. -/
theorem infix_of_append_cons {row : List Char} (h : b :: row <:+: xs ++ c :: ys) (hc : c ∉ row) :
    b :: row <:+: xs ∨ b :: row <:+: c :: ys := by
  induction xs with
  | nil => exact Or.inr h
  | cons x xs ih =>
    rcases List.infix_cons_iff.1 h with hfront | h
    · obtain ⟨rfl, hrow⟩ := List.cons_prefix_cons.1 hfront
      exact Or.inl ((List.prefix_cons_inj b).2 (prefix_of_append_cons hrow hc)).isInfix
    · exact (ih h).imp_left fun hpart => hpart.trans (List.suffix_cons x xs).isInfix

theorem not_mem_of_isDecimal {row : List Char} (hc : isDecimal c = false)
    (hrow : ∀ d ∈ row, isDecimal d = true) : c ∉ row := by
  intro hmem
  rw [hrow c hmem] at hc
  cases hc

theorem hereditary_shortRows : Hereditary ShortRows := fun hpart hcs row hrow =>
  hcs row (hrow.trans hpart)

theorem hereditary_shortNumbers : Hereditary ShortNumbers := fun hpart hcs b row hrow =>
  hcs b row (hrow.trans hpart)

theorem ShortRows.shortWords (h : ShortRows cs) : ShortWords cs := by
  intro b row hrow _ hdigits
  rcases List.infix_cons_iff.1 hrow with hfront | hrow
  · exact h row (List.cons_prefix_cons.1 hfront).2.isInfix hdigits
  · exact h row ((List.suffix_cons b row).isInfix.trans hrow) hdigits

theorem ShortWords.shortNumbers (h : ShortWords cs) : ShortNumbers cs :=
  hereditary_shortNumbers (List.suffix_cons _ _).isInfix h

theorem ShortWords.of_prefix (h : ShortWords ys) (hxs : xs <+: ys) : ShortWords xs :=
  hereditary_shortNumbers ((List.prefix_cons_inj ' ').2 hxs).isInfix h

theorem shortWords_nil : ShortWords [] := by
  intro b row hrow _ _
  rcases List.infix_cons_iff.1 hrow with hfront | hrow
  · rw [List.prefix_nil.1 (List.cons_prefix_cons.1 hfront).2]
    exact Nat.zero_le _
  · cases List.infix_nil.1 hrow

/-- No row of digits goes beyond a mark. -/
theorem joinable_shortWords : Joinable ShortWords where
  nil := shortWords_nil
  append_cons {c xs ys} hc hxs hys := by
    have hdecimal : isDecimal c = false := by
      simp only [isMark, Bool.and_eq_true, Bool.not_eq_true'] at hc
      exact hc.1
    intro b row hrow hb hdigits
    rw [← List.cons_append] at hrow
    rcases infix_of_append_cons hrow (not_mem_of_isDecimal hdecimal hdigits) with hrow | hrow
    · exact hxs b row hrow hb hdigits
    · rcases List.infix_cons_iff.1 hrow with hfront | hrow
      · have hrest := (List.cons_prefix_cons.1 hfront).2
        exact hys ' ' row ((List.prefix_cons_inj ' ').2 hrest).isInfix rfl hdigits
      · exact hys.shortNumbers b row hrow hb hdigits

/-! ### Escapes -/

theorem leadsNumber_hexDigit : ∀ n < 16, leadsNumber (hexDigit n) = false := by
  decide

theorem leadsNumber_of_mem_hexDigits {width n : Nat} (h : c ∈ hexDigits width n) :
    leadsNumber c = false := by
  induction width generalizing n with
  | zero => cases h
  | succ width ih =>
    rcases List.mem_append.1 h with h | h
    · exact ih h
    · rw [List.mem_singleton.1 h]
      exact leadsNumber_hexDigit _ (Nat.mod_lt _ (by decide))

/-- A character stands for itself, or it is escaped by characters behind which no number stands. -/
theorem escapeChar_cases (c : Char) : escapeChar c = [c] ∨
    (∃ cs, escapeChar c = '\\' :: cs) ∧ ∀ d ∈ escapeChar c, leadsNumber d = false := by
  rw [escapeChar]
  repeat' split
  iterate 7 exact Or.inr ⟨⟨_, rfl⟩, by decide⟩
  · -- a control character is written with the digits of its number
    refine Or.inr ⟨⟨_, rfl⟩, ?_⟩
    rw [List.forall_mem_cons, List.forall_mem_cons]
    exact ⟨by decide, by decide, fun d hd => leadsNumber_of_mem_hexDigits hd⟩
  · exact Or.inl rfl

/-- A row of digits at the start of an escaped text is none of the escapes. -/
theorem prefix_of_prefix_escaped {row : List Char} (hrow : row <+: cs.flatMap escapeChar)
    (hdigits : ∀ d ∈ row, isDecimal d = true) : row <+: cs := by
  induction cs generalizing row with
  | nil => exact hrow
  | cons c cs ih =>
    cases row with
    | nil => exact List.nil_prefix
    | cons d row =>
      obtain ⟨hd, hrest⟩ := List.forall_mem_cons.1 hdigits
      rw [List.flatMap_cons] at hrow
      rcases escapeChar_cases c with hself | ⟨⟨es, hes⟩, -⟩
      · rw [hself, List.singleton_append] at hrow
        obtain ⟨rfl, hbehind⟩ := List.cons_prefix_cons.1 hrow
        exact (List.prefix_cons_inj d).2 (ih hbehind hrest)
      · rw [hes] at hrow
        rw [(List.cons_prefix_cons.1 hrow).1] at hd
        exact absurd hd (by decide)

theorem infix_of_infix_append {row : List Char} (hb : b ∉ xs) (h : b :: row <:+: xs ++ ys) :
    b :: row <:+: ys := by
  induction xs with
  | nil => exact h
  | cons x xs ih =>
    rw [List.mem_cons, not_or] at hb
    rcases List.infix_cons_iff.1 h with hfront | h
    · exact absurd (List.cons_prefix_cons.1 hfront).1 hb.1
    · exact ih hb.2 h

/-- A number in an escaped text stands in the text itself. -/
theorem infix_of_infix_escaped {row : List Char} (h : b :: row <:+: cs.flatMap escapeChar)
    (hb : leadsNumber b = true) (hdigits : ∀ d ∈ row, isDecimal d = true) : b :: row <:+: cs := by
  induction cs with
  | nil => exact h
  | cons c cs ih =>
    rw [List.flatMap_cons] at h
    rcases escapeChar_cases c with hself | ⟨-, hfree⟩
    · rw [hself] at h
      rcases List.infix_cons_iff.1 h with hfront | h
      · obtain ⟨rfl, hrow⟩ := List.cons_prefix_cons.1 hfront
        exact ((List.prefix_cons_inj b).2 (prefix_of_prefix_escaped hrow hdigits)).isInfix
      · exact (ih h).trans (List.suffix_cons c cs).isInfix
    · have hmem : b ∉ escapeChar c := by
        intro hmem
        rw [hfree b hmem] at hb
        cases hb
      exact (ih (infix_of_infix_append hmem h)).trans (List.suffix_cons c cs).isInfix

theorem ShortRows.quoted (h : ShortRows cs) : ShortWords (quoted cs) := by
  have hescaped : ShortWords (cs.flatMap escapeChar) := by
    intro b row hrow hb hdigits
    rcases List.infix_cons_iff.1 hrow with hfront | hrow
    · have hstart := (List.cons_prefix_cons.1 hfront).2
      exact h row (prefix_of_prefix_escaped hstart hdigits).isInfix hdigits
    · have hsource := infix_of_infix_escaped hrow hb hdigits
      exact h row ((List.suffix_cons b row).isInfix.trans hsource) hdigits
  exact joinable_shortWords.quotes hescaped

/-- The line of a column shows no overlong row of digits behind a parenthesis, a minus sign or a
blank if its texts show none at all. -/
theorem Column.Attributed.shortNumbers_print {c : Column} (hc : c.Attributed ShortRows)
    (nameWidth typeWidth : Nat) : ShortNumbers (c.print nameWidth typeWidth) := by
  have hline : ShortWords (c.print nameWidth typeWidth) :=
    Column.joinable_print joinable_shortWords (fun hstart h => h.of_prefix hstart)
      hc.name.shortWords hc.type.shortWords
      (fun _ => hc.joinable_modifier joinable_shortWords ShortRows.shortWords ShortRows.quoted)
      nameWidth typeWidth
  exact hline.shortNumbers

/-! ### Defaults -/

namespace Attribute

variable {attr body : List Char}

/-- Where blanks are cut off, a blank or what stood in front of them leads what is left. -/
theorem exists_lead_dropWhile (hb : leadsNumber b = true) (cs : List Char) :
    ∃ d, leadsNumber d = true ∧ d :: cs.dropWhile isBlank <:+: b :: cs := by
  induction cs generalizing b with
  | nil => exact ⟨b, hb, List.infix_rfl⟩
  | cons c cs ih =>
    by_cases hc : isBlank c = true
    · rw [List.dropWhile_cons_of_pos hc]
      obtain ⟨d, hd, hpart⟩ := ih (b := c) (by simp [leadsNumber, hc])
      exact ⟨d, hd, hpart.trans (List.suffix_cons b _).isInfix⟩
    · rw [List.dropWhile_cons_of_neg hc]
      exact ⟨b, hb, List.infix_rfl⟩

theorem exists_lead_strip (hb : leadsNumber b = true) (cs : List Char) :
    ∃ d, leadsNumber d = true ∧ d :: strip cs <:+: b :: cs := by
  obtain ⟨d, hd, hpart⟩ := exists_lead_dropWhile hb cs
  exact ⟨d, hd, ((List.prefix_cons_inj d).2 (stripEnd_isPrefix _)).isInfix.trans hpart⟩

theorem exists_lead_takeMinus (hb : leadsNumber b = true) (cs : List Char) :
    ∃ d, leadsNumber d = true ∧ d :: (takeMinus cs).2 <:+: b :: cs := by
  rw [takeMinus.eq_def]
  split
  · exact ⟨'-', rfl, (List.suffix_cons b _).isInfix⟩
  · exact ⟨b, hb, List.infix_rfl⟩

theorem infix_of_defaultBody? (h : defaultBody? attr = some body) : '(' :: body <:+: attr := by
  obtain ⟨rest, hrest, h⟩ := Option.bind_eq_some_iff.1 h
  have hbody : body <+: rest := by
    have hstart : ∀ {s r : List Char}, rest.reverse = s ++ r →
        (if r.reverse.isEmpty || '\n' ∈ r.reverse then none else some r.reverse) = some body →
        body <+: rest := by
      intro s r hr hsome
      split at hsome
      · cases hsome
      · cases hsome
        rw [← List.reverse_suffix, List.reverse_reverse, hr]
        exact List.suffix_append s r
    split at h
    · rename_i r hr
      exact hstart (s := [')']) hr h
    · rename_i r hr
      exact hstart (s := ['\n', ')']) hr h
    · cases h
  rw [dropStart?_eq_some.1 hrest]
  exact ((List.prefix_cons_inj '(').2 hbody).isInfix.trans
    (List.suffix_append "@default".toList _).isInfix

/-- The digits of a default stand behind a parenthesis, a blank or a minus sign. -/
theorem not_isOverlong_of_shortNumbers (h : ShortNumbers attr) : ¬ IsOverlong attr := by
  rintro ⟨body, hbody, hdigits, hlong⟩
  obtain ⟨d, hd, hstrip⟩ := exists_lead_strip (b := '(') rfl body
  obtain ⟨e, he, hminus⟩ := exists_lead_takeMinus hd (strip body)
  have hrow := (hminus.trans hstrip).trans (infix_of_defaultBody? hbody)
  simp only [isDigits, Bool.and_eq_true, List.all_eq_true] at hdigits
  exact absurd (h e _ hrow he hdigits.2) (Nat.not_le.2 hlong)

end Attribute

/-- Tables that were read from a text without overlong rows of digits show no overlong default. -/
theorem Table.readable_of_parseTables {text : List Char} (htext : ShortRows text) {ts : List Table}
    (h : parseTables text = .ok ts) : ∀ t ∈ ts, t.Readable := by
  intro t ht c hc a ha
  obtain ⟨hcollected, -⟩ := collected_of_parseTables hereditary_shortRows
    (fun _ _ hl => hereditary_shortRows hl htext) h t ht
  have hline := (hcollected.columns c hc).2.shortNumbers_print t.nameWidth t.typeWidth
  exact Attribute.not_isOverlong_of_shortNumbers
    (hereditary_shortNumbers (Attribute.infix_of_mem_split ha) hline)

end ContentSchema
