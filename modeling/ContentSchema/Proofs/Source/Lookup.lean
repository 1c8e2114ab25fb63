import ContentSchema.Proofs.Outcomes
import ContentSchema.Proofs.Source.Columns

/-!
# Looking up one definition

A table of stored definitions is read in two ways.  Reading all of them sends every row through the
mapper before the first definition is validated; a lookup stops at the first row with the slug and
reads that row alone.  The lookup writes out the slugs on its way, which reading all definitions
does not do, so a number that is too long to be written stops it.

* `DefinitionTable.definitionIn_of_shown`, `DefinitionTable.definitionIn_of_unshown`: a lookup reads
  the first row with the slug and no other, unless it passes a slug that cannot be written.
* `DefinitionTable.definitions_eq_ok`: all definitions are read if each row can be read on its own.
* `DefinitionTable.definition?_of_definitions`: so where all definitions are read, a lookup finds
  the one at the position of the first row with the slug, if the slugs up to there can be written.
-/

namespace ContentSchema

namespace Row

/-- The row has the slug: its column holds something, and that is written as the slug. -/
def HasSlug (slug : String) (row : Value) : Prop :=
  ∃ v, row.get? "slug" = some v ∧ v ≠ .null ∧ v.holdsOversized = false ∧ v.display = slug

instance (slug : String) : DecidablePred (HasSlug slug) := fun row =>
  decidable_of_iff ((text? "slug" row).toOption = some (some slug)) (by
    rw [HasSlug, ← text?_eq_some_iff]
    cases text? "slug" row <;> simp [Except.toOption])

/-- The rows that a lookup passes before it finds the slug, or all rows if it finds none. -/
def passed (slug : String) (rows : List Value) : List Value :=
  rows.takeWhile fun row => !decide (HasSlug slug row)

theorem passed_cons (slug : String) (row : Value) (rows : List Value) :
    passed slug (row :: rows) = if HasSlug slug row then [] else row :: passed slug rows := by
  by_cases h : HasSlug slug row <;> simp [passed, h]

end Row

namespace DefinitionTable

variable {t : DefinitionTable} {rows : List Value} {ds : List Definition} {slug : String}

/-- The valid definition that a row holds. -/
def definitionOf (t : DefinitionTable) (row : Value) : Outcome Definition :=
  t.rawOf row >>= t.validate

/-- The step of a lookup: the row has the slug and is read, or it is passed. -/
theorem definitionIn_cons {row : Value} {shown : Option String}
    (h : Row.text? "slug" row = .ok shown) : t.definitionIn slug (row :: rows) =
      if Row.HasSlug slug row then some <$> t.definitionOf row else t.definitionIn slug rows := by
  have hslug : Row.HasSlug slug row ↔ shown = some slug := by
    rw [Row.HasSlug, ← Row.text?_eq_some_iff, h, Except.ok.injEq]
  simp only [definitionIn, h, hslug, bind, Except.bind]
  split
  · unfold definitionOf
    cases t.rawOf row with
    | error f => rfl
    | ok raw => cases hraw : t.validate raw <;> simp only [bind, Except.bind, hraw] <;> rfl
  · rfl

/-- A lookup reads the first row with the slug, whatever definitions the others hold. -/
theorem definitionIn_of_shown (h : ∀ row ∈ Row.passed slug rows, Row.Shows "slug" row) :
    t.definitionIn slug rows =
      (rows.find? fun row => decide (Row.HasSlug slug row)).mapM t.definitionOf := by
  induction rows with
  | nil => rfl
  | cons row rest ih =>
    rw [Row.passed_cons] at h
    by_cases hslug : Row.HasSlug slug row
    · rw [definitionIn_cons (Row.text?_eq_some_iff.2 hslug), if_pos hslug, List.find?_cons_of_pos]
      · rfl
      · simpa using hslug
    · rw [if_neg hslug, List.forall_mem_cons] at h
      obtain ⟨shown, hshown⟩ := Row.exists_text?_of_shows h.1
      rw [definitionIn_cons hshown, if_neg hslug, ih h.2, List.find?_cons_of_neg]
      simpa using hslug

/-- A lookup ends where it passes a slug that cannot be written. -/
theorem definitionIn_of_unshown (h : ∃ row ∈ Row.passed slug rows, ¬ Row.Shows "slug" row) :
    t.definitionIn slug rows = .error (.slip .oversizedNumber) := by
  induction rows with
  | nil => simp [Row.passed] at h
  | cons row rest ih =>
    rw [Row.passed_cons] at h
    by_cases hslug : Row.HasSlug slug row
    · simp [hslug] at h
    · rw [if_neg hslug, List.exists_mem_cons_iff] at h
      by_cases hshows : Row.Shows "slug" row
      · obtain ⟨shown, hshown⟩ := Row.exists_text?_of_shows hshows
        rw [definitionIn_cons hshown, if_neg hslug]
        exact ih (h.resolve_left fun hnot => hnot hshows)
      · simp only [definitionIn, Row.text?_of_not_shows hshows]
        rfl

/-- All definitions are read exactly if each row can be read on its own. -/
theorem definitions_eq_ok : t.definitions = .ok ds ↔
    ∃ rows, t.rows = .ok rows ∧ List.Forall₂ (fun row d => t.definitionOf row = .ok d) rows ds := by
  rw [definitions, rawDefinitions, bind_eq_ok]
  constructor
  · rintro ⟨raws, hraws, hds⟩
    obtain ⟨rows, hrows, hmapped⟩ := bind_eq_ok.1 hraws
    refine ⟨rows, hrows, (forall₂_comp (mapM_eq_ok.1 hmapped) (mapM_eq_ok.1 hds)).imp ?_⟩
    exact fun row d h => bind_eq_ok.2 h
  · rintro ⟨rows, hrows, hread⟩
    obtain ⟨raws, hmapped, hvalid⟩ :=
      exists_forall₂_of_comp (hread.imp fun row d h => bind_eq_ok.1 h)
    exact ⟨raws, bind_eq_ok.2 ⟨rows, hrows, mapM_eq_ok.2 hmapped⟩, mapM_eq_ok.2 hvalid⟩

/-- Where all definitions of a table can be read, a lookup gives the one at the position of the
first row with the slug, and nothing if no row has it, provided that the slugs of all rows in front
of that row, or of all rows, can be written.  If one of them cannot, the lookup fails. -/
theorem definition?_of_definitions (h : t.definitions = .ok ds) (slug : String) :
    ∃ rows, t.rows = .ok rows ∧ rows.length = ds.length ∧
      ((∀ row ∈ Row.passed slug rows, Row.Shows "slug" row) → t.definition? slug =
        .ok ((rows.findIdx? fun row => decide (Row.HasSlug slug row)).bind fun i => ds[i]?)) ∧
      ((∃ row ∈ Row.passed slug rows, ¬ Row.Shows "slug" row) →
        t.definition? slug = .error (.slip .oversizedNumber)) := by
  obtain ⟨rows, hrows, hread⟩ := definitions_eq_ok.1 h
  have hlookup : t.definition? slug = t.definitionIn slug rows := by
    rw [definition?, hrows]
    rfl
  refine ⟨rows, hrows, hread.length_eq, fun hshown => ?_, fun hunshown => ?_⟩
  · rw [hlookup, definitionIn_of_shown hshown, mapM_find?_of_forall₂ hread]
  · rw [hlookup, definitionIn_of_unshown hunshown]

/-- A remark of one text, as it is stored. -/
def rawRemark (slug : String) : Value := .object [
  ("slug", .text slug), ("name", .text "Remark"),
  ("fields", .list [
    .object [("key", .text "text"), ("label", .text "Text"), ("type", .text "text")]])]

/-- A remark as it is read. -/
def remark (slug : String) : Definition := .component {
  slug := slug, name := "Remark"
  fields := [{
    key := "text", label := "Text", type := .text, config := none, required := false
    translatable := true, rules := none, derived := false, extras := [] }]
  extras := [] }

/-- Remarks with nothing, a number and twice the text of that number in their slug columns. -/
def remarks : DefinitionTable where
  source := ⟨fun _ => .ok (.list [
    .object [("slug", .null), ("definition", rawRemark "first")],
    .object [("slug", .int 7), ("definition", rawRemark "second")],
    .object [("slug", .text "7"), ("definition", rawRemark "third")],
    .object [("slug", .text "7"), ("definition", rawRemark "fourth")]])⟩
  name := "remark"
  mapper := none
  kind := .component

/-- The number counts as its text, and nothing has no text. -/
theorem definition?_remarks :
    remarks.definitions = .ok [remark "first", remark "second", remark "third", remark "fourth"] ∧
      remarks.definition? "7" = .ok (some (remark "second")) ∧
      remarks.definition? "None" = .ok none := by
  have hread : remarks.definitions =
      .ok [remark "first", remark "second", remark "third", remark "fourth"] := rfl
  obtain ⟨rows, hrows, -, hseven, -⟩ := definition?_of_definitions hread "7"
  obtain ⟨rows', hrows', -, hnone, -⟩ := definition?_of_definitions hread "None"
  cases hrows
  cases hrows'
  exact ⟨hread, hseven (by decide), hnone (by decide)⟩

/-- A stored remark with a number in its slug column. -/
def numberedRow (n : Int) : Value := .object [("slug", .int n), ("definition", rawRemark "first")]

/-- A stored remark with a text in its slug column. -/
def letteredRow : Value := .object [("slug", .text "7"), ("definition", rawRemark "second")]

/-- Remarks of which the first has a number in its slug column. -/
def numberedRemarks (n : Int) : DefinitionTable where
  source := ⟨fun _ => .ok (.list [numberedRow n, letteredRow])⟩
  name := "remark"
  mapper := none
  kind := .component

theorem definitions_numberedRemarks (n : Int) :
    (numberedRemarks n).definitions = .ok [remark "first", remark "second"] := rfl

theorem definition?_numberedRemarks {n : Int} (h : isOversized n = true) :
    (numberedRemarks n).definition? "7" = .error (.slip .oversizedNumber) := by
  have hlong : (Value.int n).holdsOversized ≠ false := by simp [Value.holdsOversized, h]
  have hunshown : ¬ Row.Shows "slug" (numberedRow n) := fun hshows => hlong (hshows _ rfl)
  have hother : ¬ Row.HasSlug "7" (numberedRow n) := by
    rintro ⟨v, hget, -, hshown, -⟩
    cases hget
    exact hlong hshown
  have hpassed : numberedRow n ∈ Row.passed "7" [numberedRow n, letteredRow] := by
    simp [Row.passed_cons, hother]
  exact definitionIn_of_unshown ⟨_, hpassed, hunshown⟩

/-- All remarks can be read, and the second row is the first one with its slug, but a lookup of this
slug fails on its way, where the number in the first row is too long to be written. -/
theorem not_definition?_of_long_number :
    (numberedRemarks (10 ^ maxDigits : Nat)).definitions = .ok [remark "first", remark "second"] ∧
      ¬ ∃ rows, (numberedRemarks (10 ^ maxDigits : Nat)).rows = .ok rows ∧
        (numberedRemarks (10 ^ maxDigits : Nat)).definition? "7" =
          .ok ((rows.findIdx? fun row => decide (Row.HasSlug "7" row)).bind fun i =>
            [remark "first", remark "second"][i]?) := by
  refine ⟨definitions_numberedRemarks _, ?_⟩
  rintro ⟨rows, -, h⟩
  rw [definition?_numberedRemarks isOversized_pow] at h
  cases h

end DefinitionTable

end ContentSchema
