import ContentSchema.Proofs.Schema.Relations
import ContentSchema.Schema.Size

/-!
# Lines of tables

How many lines the text of a table has.  The texts that are written as they are should hold no line
feed (`Table.plainTexts`).  Then each line feed in the patterns of its rules, and in the rules that
users wrote themselves, adds a line (`Table.length_splitOn_print`), so that the table has the lines
that it should have exactly if there are none (`Table.exists_text_iff`).
-/

namespace ContentSchema

open Text

/-! ### Counting line feeds -/

theorem Text.length_splitOn (c : Char) (cs : List Char) :
    (cs.splitOn c).length = cs.count c + 1 := by
  induction cs with
  | nil => rfl
  | cons d cs ih =>
    rw [List.splitOn_eq_splitOnP] at ih ⊢
    rw [List.splitOnP_cons_eq_if_modifyHead]
    by_cases hd : d = c
    · rw [if_pos (by simpa using hd), List.length_cons, ih, hd, List.count_cons_self]
    · rw [if_neg (by simpa using hd), List.length_modifyHead, ih, List.count_cons_of_ne hd]

theorem Text.count_joinWith (c : Char) (sep t : List Char) (ts : List (List Char)) :
    (joinWith sep (t :: ts)).count c =
      ts.length * sep.count c + ((t :: ts).map (List.count c)).sum := by
  rw [joinWith_cons, List.count_append, List.map_cons, List.sum_cons]
  have hrest : (ts.flatMap (sep ++ ·)).count c =
      ts.length * sep.count c + (ts.map (List.count c)).sum := by
    induction ts with
    | nil => simp
    | cons u us ih =>
      rw [List.flatMap_cons, List.count_append, List.count_append, ih, List.length_cons,
        List.map_cons, List.sum_cons, Nat.succ_mul]
      omega
  omega

/-- Texts without line feeds may be joined at marks. -/
theorem Text.joinable_newline_not_mem : Joinable ('\n' ∉ ·) where
  nil := List.not_mem_nil
  append_cons {c cs ds} hc hcs hds := by
    have hne : '\n' ≠ c := by
      rintro rfl
      exact absurd hc (by decide)
    simp [hcs, hds, hne]

/-! ### Rules -/

namespace FieldRules

/-- The line feeds in the texts that users put into the rules of a field. -/
def lineFeeds (r : FieldRules) : Nat := (r.texts.map (·.toList.count '\n')).sum

theorem sum_count_numberCall {name : String} (hname : '\n' ∉ name.toList) (n : Option Num) :
    ((numberCall name n).map (List.count '\n')).sum = 0 := by
  cases n with
  | none => rfl
  | some n =>
    have hliteral : '\n' ∉ n.literal := n.numeral_literal.newline_not_mem
    simp [numberCall, hname, hliteral, List.count_eq_zero]

theorem sum_count_flagCall {name : String} (hname : '\n' ∉ name.toList) (flag : Option Bool) :
    ((flagCall name flag).map (List.count '\n')).sum = 0 := by
  rw [flagCall]
  split
  · simp [hname, List.count_eq_zero]
  · rfl

theorem sum_count_present (wrap : List Char → List Char)
    (hwrap : ∀ cs, (wrap cs).count '\n' = cs.count '\n') (s : Option String) :
    ((present s wrap).map (List.count '\n')).sum =
      (s.toList.map (·.toList.count '\n')).sum := by
  cases s with
  | none => rfl
  | some s =>
    rw [present]
    split
    · rename_i hempty
      rw [hempty]
      rfl
    · simp [hwrap]

theorem sum_count_calls (r : FieldRules) : (r.calls.map (List.count '\n')).sum = r.lineFeeds := by
  have hpattern := sum_count_present (fun p => "regex(/".toList ++ p ++ "/)".toList)
    (fun cs => by simp) r.pattern
  have hcustom := sum_count_present id (fun _ => rfl) r.custom
  simp only [calls, List.map_append, List.sum_append, hpattern, hcustom, lineFeeds, texts]
  simp [sum_count_numberCall, sum_count_flagCall]

/-- The line feeds of a comment are those in the texts of users. -/
theorem count_comment {r : FieldRules} {comment : List Char} (h : r.comment? = some comment) :
    comment.count '\n' = r.lineFeeds := by
  rw [comment?] at h
  split at h
  · cases h
  · rename_i calls hne
    cases h
    obtain ⟨call, rest, hcalls⟩ := List.exists_cons_of_ne_nil hne
    have hmarker : rulesMarker.count '\n' = 0 := by decide
    have hsep : ['.'].count '\n' = 0 := by decide
    rw [List.count_append, hmarker, hcalls, count_joinWith, hsep, ← hcalls, sum_count_calls]
    omega

/-- Rules without a comment have no texts of users. -/
theorem lineFeeds_of_comment?_eq_none {r : FieldRules} (h : r.comment? = none) :
    r.lineFeeds = 0 := by
  rw [comment?] at h
  split at h
  · rename_i hcalls
    rw [← sum_count_calls, hcalls]
    rfl
  · cases h

end FieldRules

/-! ### Columns -/

theorem ColumnDefault.newline_not_mem_literal (d : ColumnDefault) : '\n' ∉ d.literal := by
  cases d with
  | bool b => exact newline_not_mem_boolLiteral b
  | int n => exact (numeral_intText n).newline_not_mem
  | float x => exact (numeral_doubleLiteral x).newline_not_mem
  | text s => exact newline_not_mem_quoted _

namespace Column

variable {c : Column}

/-- The texts of a column that are written as they are, but for its rules. -/
def plainTexts (c : Column) : List String :=
  c.name :: c.type :: c.attributes ++ c.mapName.toList ++
    c.relation.toList.flatMap fun r => r.fields ++ r.references

/-- The line feeds in the rules of a column. -/
def lineFeeds (c : Column) : Nat := (c.rules.toList.map (·.lineFeeds)).sum

theorem newline_not_mem_print (h : ∀ s ∈ c.plainTexts, '\n' ∉ s.toList)
    (nameWidth typeWidth : Nat) : '\n' ∉ c.print nameWidth typeWidth := by
  simp only [plainTexts, List.mem_append, List.mem_cons, Option.mem_toList, List.mem_flatMap] at h
  refine joinable_print joinable_newline_not_mem (fun hcs hds hmem => hds (hcs.subset hmem))
    (h _ (by simp)) (h _ (by simp)) (fun m hm => ?_) nameWidth typeWidth
  rcases of_mem_modifiers hm with ⟨a, ha, rfl⟩ | hdefault | ⟨r, hr, rfl⟩ | ⟨n, hn, rfl⟩
  · exact h a (by simp [ha])
  · rw [defaultModifier] at hdefault
    split at hdefault
    · rename_i d _
      split at hdefault
      · cases hdefault
      · rw [List.mem_singleton.1 hdefault]
        exact joinable_newline_not_mem.append_marks
          (joinable_newline_not_mem.marks_append (by decide) d.newline_not_mem_literal) (by decide)
    · cases hdefault
  · exact Relation.joinable_print joinable_newline_not_mem
      (fun n _ => newline_not_mem_quoted n.toList)
      fun n hn => h n (Or.inr ⟨r, hr, List.mem_append.1 hn⟩)
  · exact joinable_mapAttribute joinable_newline_not_mem (h n (by simp_all))

/-- A column has a line, and one more for its rules if they have a comment. -/
def plainLines (c : Column) : Nat := 1 + (c.rules.bind (·.comment?)).toList.length

theorem length_printLines (nameWidth typeWidth : Nat) :
    (c.printLines nameWidth typeWidth).length = c.plainLines := by
  rw [printLines, plainLines, List.length_append]
  cases c.rules.bind (·.comment?) <;> rfl

theorem sum_count_printLines (h : ∀ s ∈ c.plainTexts, '\n' ∉ s.toList)
    (nameWidth typeWidth : Nat) :
    ((c.printLines nameWidth typeWidth).map (List.count '\n')).sum = c.lineFeeds := by
  have hindent : indent.count '\n' = 0 := by decide
  have hline : (indent ++ c.print nameWidth typeWidth).count '\n' = 0 := by
    rw [List.count_append, hindent, List.count_eq_zero.2 (newline_not_mem_print h _ _)]
  rw [printLines, List.map_append, List.sum_append, List.map_singleton, List.sum_singleton, hline,
    lineFeeds]
  cases hrules : c.rules with
  | none => rfl
  | some r =>
    rw [Option.bind_some]
    cases hcomment : r.comment? with
    | none =>
      have := FieldRules.lineFeeds_of_comment?_eq_none hcomment
      simp [this]
    | some comment =>
      have := FieldRules.count_comment hcomment
      simp [this, hindent]

end Column

/-! ### Tables -/

namespace Table

variable {t : Table}

/-- The texts of a table that are written as they are, but for the rules of its columns. -/
def plainTexts (t : Table) : List String :=
  t.name :: t.mapName.toList ++ (t.indexes ++ t.unique).flatten ++ t.columns.flatMap (·.plainTexts)

/-- The lines that a table should have: those of its braces, one for each column, one for each
comment, and one for each directive, with a blank line before the first directive. -/
def plainLines (t : Table) : Nat :=
  let comments := t.columns.filter fun c => (c.rules.bind (·.comment?)).isSome
  let directives := t.indexes.length + t.unique.length + if t.mapName.any (· ≠ "") then 1 else 0
  2 + t.columns.length + comments.length + if directives = 0 then 0 else 1 + directives

/-- The line feeds in the rules of the columns. -/
def lineFeeds (t : Table) : Nat := (t.columns.map (·.lineFeeds)).sum

theorem length_directives : t.directives.length =
    t.indexes.length + t.unique.length + if t.mapName.any (· ≠ "") then 1 else 0 := by
  rw [directives, List.length_append, List.length_append, List.length_map, List.length_map]
  cases t.mapName with
  | none => rfl
  | some name => by_cases hname : name = "" <;> simp [hname]

theorem newline_not_mem_directives (h : ∀ s ∈ t.plainTexts, '\n' ∉ s.toList) {l : List Char}
    (hl : l ∈ t.directives) : '\n' ∉ l := by
  simp only [plainTexts, List.mem_append, List.mem_cons, Option.mem_toList] at h
  refine joinable_of_mem_directives joinable_newline_not_mem (fun names hnames n hn => ?_)
    (fun n hn => h n (by simp_all)) hl
  exact h n (Or.inl (Or.inr (List.mem_flatten.2 ⟨names, hnames, hn⟩)))

theorem length_bodyLines : t.bodyLines.length + 2 = t.plainLines := by
  have hcolumns : (t.columns.flatMap (·.printLines t.nameWidth t.typeWidth)).length =
      t.columns.length + (t.columns.filter fun c => (c.rules.bind (·.comment?)).isSome).length := by
    generalize t.nameWidth = nameWidth
    generalize t.typeWidth = typeWidth
    induction t.columns with
    | nil => rfl
    | cons c cols ih =>
      rw [List.flatMap_cons, List.length_append, ih, Column.length_printLines, Column.plainLines,
        List.length_cons, List.filter_cons]
      cases c.rules.bind (·.comment?) <;> simp <;> omega
  have hdirectives : (if t.directives.isEmpty then [] else [] :: t.directives).length =
      if t.directives.length = 0 then 0 else 1 + t.directives.length := by
    cases t.directives <;> simp [Nat.add_comm]
  rw [bodyLines, List.length_append, hcolumns, hdirectives, length_directives, plainLines]
  omega

theorem sum_count_bodyLines (h : ∀ s ∈ t.plainTexts, '\n' ∉ s.toList) :
    (t.bodyLines.map (List.count '\n')).sum = t.lineFeeds := by
  have hcolumn : ∀ c ∈ t.columns, ∀ s ∈ c.plainTexts, '\n' ∉ s.toList := fun c hc s hs =>
    h s (List.mem_append_right _ (List.mem_flatMap.2 ⟨c, hc, hs⟩))
  have hcolumns :
      ((t.columns.flatMap (·.printLines t.nameWidth t.typeWidth)).map (List.count '\n')).sum =
        t.lineFeeds := by
    rw [lineFeeds]
    generalize t.nameWidth = nameWidth
    generalize t.typeWidth = typeWidth
    generalize t.columns = cols at hcolumn
    induction cols with
    | nil => rfl
    | cons c cols ih =>
      obtain ⟨hc, hcols⟩ := List.forall_mem_cons.1 hcolumn
      rw [List.flatMap_cons, List.map_append, List.sum_append, ih hcols,
        Column.sum_count_printLines hc, List.map_cons, List.sum_cons]
  have hdirectives : ((if t.directives.isEmpty then [] else [] :: t.directives).map
      (List.count '\n')).sum = 0 := by
    refine List.sum_eq_zero fun n hn => ?_
    obtain ⟨l, hl, rfl⟩ := List.mem_map.1 hn
    rw [List.count_eq_zero]
    split at hl
    · cases hl
    · rcases List.mem_cons.1 hl with rfl | hl
      · exact List.not_mem_nil
      · exact newline_not_mem_directives h hl
  rw [bodyLines, List.map_append, List.sum_append, hcolumns, hdirectives]
  rfl

/-- Each line feed in the rules adds a line. -/
theorem length_splitOn_print (h : ∀ s ∈ t.plainTexts, '\n' ∉ s.toList) :
    (t.print.splitOn '\n').length = t.plainLines + t.lineFeeds := by
  have hname : '\n' ∉ t.name.toList := h _ (by simp [plainTexts])
  have hheader : ("model ".toList ++ t.name.toList ++ [' ', '\x7b']).count '\n' = 0 := by
    simp [hname, List.count_eq_zero]
  have hsep : ['\n'].count '\n' = 1 := rfl
  rw [Text.length_splitOn, print, block, List.cons_append, count_joinWith, List.map_cons,
    List.sum_cons, hheader, List.map_append, List.sum_append, sum_count_bodyLines h, hsep,
    List.length_append, ← length_bodyLines]
  simp
  omega

/-- The text of a table, unless it would show a number that is too long to be written. -/
def text? (t : Table) : Option (List Char) :=
  if t.columns.any (·.holdsOversized) then none else some t.print

/-- A table has the lines that it should have exactly if no number in it is too long and its rules
hold no line feeds. -/
theorem exists_text_iff (h : ∀ s ∈ t.plainTexts, '\n' ∉ s.toList) :
    (∃ text, t.text? = some text ∧ (text.splitOn '\n').length = t.plainLines) ↔
      ∀ c ∈ t.columns, c.holdsOversized = false ∧
        ∀ r ∈ c.rules, ∀ s ∈ r.texts, '\n' ∉ s.toList := by
  have hfeeds : t.lineFeeds = 0 ↔ ∀ c ∈ t.columns, ∀ r ∈ c.rules, ∀ s ∈ r.texts,
      '\n' ∉ s.toList := by
    simp [lineFeeds, Column.lineFeeds, FieldRules.lineFeeds, List.sum_eq_zero_iff,
      List.count_eq_zero]
  have hsize : t.columns.any (·.holdsOversized) = false ↔
      ∀ c ∈ t.columns, c.holdsOversized = false := by
    simp
  simp only [forall_and]
  rw [← hsize, ← hfeeds, text?]
  cases t.columns.any (·.holdsOversized) with
  | true => simp
  | false =>
    have hlines := length_splitOn_print h
    simp [hlines]

/-- A table of remarks, with a rule that goes on in a second line. -/
def remarks : Table :=
  ⟨"Remark", [.bare "id" "String", { Column.bare "body" "String" with rules := some rules }],
    [["body"]], [], none⟩
where
  /-- The rule for the text of a remark. -/
  rules : FieldRules := ⟨none, none, none, none, none, none, none, none, none, none, none, none,
    none, none, none, none, some "refine(brief)\n  secret String", none, []⟩

theorem not_exists_text_remarks :
    (∀ s ∈ remarks.plainTexts, '\n' ∉ s.toList) ∧
      ¬ ∃ text, remarks.text? = some text ∧ (text.splitOn '\n').length = remarks.plainLines := by
  have hplain : ∀ s ∈ remarks.plainTexts, '\n' ∉ s.toList := by decide
  refine ⟨hplain, fun hlines => ?_⟩
  have hfree := (exists_text_iff hplain).1 hlines
  obtain ⟨-, hrules⟩ := hfree { Column.bare "body" "String" with rules := some remarks.rules }
    (List.mem_cons_of_mem _ List.mem_cons_self)
  exact hrules remarks.rules rfl _ List.mem_cons_self (by decide)

end Table

end ContentSchema
