import ContentSchema.Proofs.Run.RoundTrip
import ContentSchema.Proofs.Schema.DigitRows
import ContentSchema.Proofs.Schema.RoundTrip

/-!
# Any text is read with a stable shape

Whatever a text holds, the tables that are read from it can be written, and what is written is read
with the shapes of these tables, exactly if none of them shows an overlong default
(`parseTables_schemaText`).  The reader is far more tolerant than the writer: brackets that do not
match and types with several marks are kept as they are, and lines without a type are passed over
(`brokenText`).
-/

namespace ContentSchema

open Text

variable {text : List Char} {ts : List Table}

/-- Nothing that was read is too long to be written, as a default is written as the attribute that
declares it. -/
theorem Column.Attributed.holdsOversized_eq_false {P : List Char → Prop} {c : Column}
    (hc : c.Attributed P) : c.holdsOversized = false := by
  rw [Column.holdsOversized, hc.rules, Option.any_none, Bool.false_or]
  cases hdefault : c.default with
  | none => rfl
  | some d =>
    rw [hc.default (by simp [hdefault]), Bool.not_true, Bool.and_false]

/-- Tables that were read can be written. -/
theorem schemaText_of_parseTables (h : parseTables text = .ok ts) :
    Config.schemaText (.ofTables ts) = .ok (Schema.ofTables ts).print := by
  have hsize : (Schema.ofTables ts).holdsOversized = false := by
    rw [Schema.holdsOversized, Schema.ofTables, List.any_nil, Bool.false_or, List.any_eq_false]
    intro t ht
    obtain ⟨hcollected, -⟩ :=
      Table.collected_of_parseTables hereditary_unbroken (fun _ hl _ => hl) h t ht
    rw [List.any_eq_true]
    rintro ⟨c, hc, hlong⟩
    rw [(hcollected.columns c hc).2.holdsOversized_eq_false] at hlong
    cases hlong
  rw [Config.schemaText, hsize]
  rfl

/-- The tables that were read from any text can be written.  What is written can be read unless one
of the tables shows an overlong default, and it has the shapes of the tables then.  An overlong
default is only shown if the text itself has an overlong row of digits. -/
theorem parseTables_schemaText (h : parseTables text = .ok ts) :
    ∃ written, Config.schemaText (.ofTables ts) = .ok written ∧
      ((∃ us, parseTables written = .ok us) ↔ ∀ t ∈ ts, t.Readable) ∧
      (∀ us, parseTables written = .ok us → us.map (·.shape) = ts.map (·.shape)) ∧
      (ShortRows text → ∀ t ∈ ts, t.Readable) := by
  have hhead := newline_not_mem_headTexts_ofTables ts
  have hlegible := Table.legible_of_parseTables h
  refine ⟨(Schema.ofTables ts).print, schemaText_of_parseTables h, ?_, ?_, ?_⟩
  · exact exists_parseTables_print_iff hhead hlegible
  · exact fun us hus => shape_parseTables_print hhead hlegible hus
  · exact fun htext => Table.readable_of_parseTables htext h

/-- A block with a name that has no type, a type with two marks and an attribute that is not
closed. -/
def brokenText : List Char :=
  "model Post \x7b\n  id\n  tags Tag?[] @x((a @default(7)\n  author User? @default(7)\n\x7d\n".toList

/-- What is read from the broken text. -/
def brokenTable : Table where
  name := "Post"
  columns := [
    { Column.bare "tags" "Tag?" with isList := true, attributes := ["@x((a @default(7)"] },
    { Column.bare "author" "User" with
      nullable := true
      default := some (.int 7)
      attributes := ["@default(7)"] }]
  indexes := []
  unique := []
  mapName := none

theorem parseTables_brokenText : parseTables brokenText = .ok [brokenTable] := by
  let body := "\n  id\n  tags Tag?[] @x((a @default(7)\n  author User? @default(7)\n".toList
  have hblock : block? brokenText = some (⟨"Post".toList, body⟩, ['\n']) := by decide +kernel
  have hrest : blocksFrom false ['\n'] = [] := by
    have hnewline := @blocksFrom_newline [] [] false (by simp) (by simp)
    rw [List.nil_append] at hnewline
    rw [hnewline, blocksFrom]
  rw [parseTables, blocks, blocksFrom_of_block? hblock, hrest]
  rfl

/-- The broken text is written and read again with the same shape. -/
theorem parseTables_schemaText_brokenText :
    parseTables brokenText = .ok [brokenTable] ∧
      ∃ written us, Config.schemaText (.ofTables [brokenTable]) = .ok written ∧
        parseTables written = .ok us ∧ us.map (·.shape) = [brokenTable.shape] := by
  have hshort : ShortRows brokenText := fun row hrow _ =>
    hrow.length_le.trans (show brokenText.length ≤ maxDigits by decide)
  obtain ⟨written, hwritten, hread, hshape, hreadable⟩ :=
    parseTables_schemaText parseTables_brokenText
  obtain ⟨us, hus⟩ := hread.2 (hreadable hshort)
  exact ⟨parseTables_brokenText, written, us, hwritten, hus, hshape us hus⟩

end ContentSchema
