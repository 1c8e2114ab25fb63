import ContentSchema.Proofs.Schema.Literals
import ContentSchema.Schema.Parser

/-!
# Blocks of a written schema

Where the reader finds blocks in the text of a schema.  A header has to stand at the start of a line
and begin with `model`, and a body ends at the first line that begins with a brace; so it is enough
to know of each written line that it is one line and how it begins.  `blocks_print` says that the
blocks of a schema are those of its tables, whatever stands in the blocks before them.
-/

namespace ContentSchema

open Text

/-! ### Bodies -/

variable {cs rest : List Char}

theorem body?_append (h : '\n' ∉ cs) :
    body? (cs ++ rest) = (body? rest).map fun p => (cs ++ p.1, p.2) := by
  induction cs with
  | nil =>
    rw [List.nil_append]
    cases body? rest <;> rfl
  | cons c cs ih =>
    have hc : c ≠ '\n' := fun hc => h (hc ▸ List.mem_cons_self)
    rw [List.cons_append, body?]
    · rw [ih fun hmem => h (List.mem_cons_of_mem _ hmem)]
      cases body? rest <;> rfl
    · intro _ hcr
      exact absurd hcr hc

theorem body?_newline (h : rest.head? ≠ some '\x7d') :
    body? ('\n' :: rest) = (body? rest).map fun p => ('\n' :: p.1, p.2) := by
  rw [body?]
  intro tail _ hrest
  rw [hrest] at h
  exact h rfl

/-- The body of a block whose lines do not begin with a brace. -/
theorem body?_lines {ls : List (List Char)} (hline : ∀ l ∈ ls, '\n' ∉ l)
    (hhead : ∀ l ∈ ls, l.head? ≠ some '\x7d') :
    body? (ls.flatMap (['\n'] ++ ·) ++ '\n' :: '\x7d' :: rest) =
      some ('\n' :: ls.flatMap (· ++ ['\n']), rest) := by
  induction ls with
  | nil => rw [List.flatMap_nil, List.nil_append, body?, List.flatMap_nil]
  | cons l ls ih =>
    have htail := ih (fun l' hl' => hline l' (List.mem_cons_of_mem _ hl'))
      fun l' hl' => hhead l' (List.mem_cons_of_mem _ hl')
    rw [List.flatMap_cons, List.append_assoc, List.append_assoc, List.singleton_append,
      body?_newline, body?_append (hline l List.mem_cons_self), htail]
    · simp
    · -- the line may be empty, and then the next one begins with a line feed
      cases l with
      | cons c l => exact hhead (c :: l) List.mem_cons_self
      | nil => cases ls <;> simp

/-! ### Headers -/

theorem header?_model {name : List Char} (hname : Wordy name) (hne : name ≠ []) :
    header? ("model ".toList ++ name ++ [' ', '\x7b'] ++ rest) = some (name, rest) := by
  obtain ⟨c, cs, rfl⟩ := List.exists_cons_of_ne_nil hne
  have hc : isWordChar c = true := hname c List.mem_cons_self
  have hstop : isWordChar ' ' = false := isWordChar_eq_false (by decide)
  have hnamed : (' ' :: (c :: cs ++ ' ' :: '\x7b' :: rest)).dropWhile isBlank =
      c :: cs ++ ' ' :: '\x7b' :: rest := by
    rw [List.dropWhile_cons, if_pos (by decide), List.cons_append, List.dropWhile_cons,
      if_neg (by simp [isBlank_of_isWordChar hc])]
  have htake : (c :: cs ++ ' ' :: '\x7b' :: rest).takeWhile isWordChar = c :: cs := by
    rw [List.takeWhile_append_of_pos hname, List.takeWhile_cons, hstop]
    simp
  have hdrop : (c :: cs ++ ' ' :: '\x7b' :: rest).dropWhile isWordChar = ' ' :: '\x7b' :: rest := by
    rw [List.dropWhile_append_of_pos hname, List.dropWhile_cons, hstop]
    simp
  have hstart : dropStart? "model".toList ("model ".toList ++ (c :: cs) ++ [' ', '\x7b'] ++ rest) =
      some (' ' :: (c :: cs ++ ' ' :: '\x7b' :: rest)) := by
    simp [dropStart?]
  rw [header?, hstart]
  simp only [hnamed, htake, hdrop]
  simp [isBlank]

theorem block?_eq_none (h : cs.head? ≠ some 'm') : block? cs = none := by
  have hstart : dropStart? "model".toList cs = none := by
    rw [dropStart?, if_neg]
    intro hp
    obtain ⟨t, rfl⟩ := List.isPrefixOf_iff_prefix.1 hp
    exact h rfl
  rw [block?, header?, hstart]
  rfl

/-! ### From piece to piece -/

theorem blocksFrom_newline (lineStart : Bool) (h : '\n' ∉ cs)
    (hhead : lineStart = true → cs.head? ≠ some 'm') :
    blocksFrom lineStart (cs ++ '\n' :: rest) = blocksFrom true rest := by
  induction cs generalizing lineStart with
  | nil =>
    rw [List.nil_append, blocksFrom]
    have hnone : block? ('\n' :: rest) = none := block?_eq_none (by simp)
    split
    · split
      · rename_i hsome
        rw [hnone] at hsome
        cases hsome
      · rfl
    · rfl
  | cons c cs ih =>
    have hc : (c == '\n') = false := by
      rw [beq_eq_false_iff_ne]
      exact fun hc => h (hc ▸ List.mem_cons_self)
    have hcs : '\n' ∉ cs := fun hmem => h (List.mem_cons_of_mem _ hmem)
    -- behind the first character of a line no header is looked for
    have hrest := ih false hcs (by simp)
    rw [List.cons_append, blocksFrom, hc]
    split
    · rename_i hstart
      have hnone : block? (c :: (cs ++ '\n' :: rest)) = none :=
        block?_eq_none (by simpa using hhead hstart)
      split
      · rename_i hsome
        rw [hnone] at hsome
        cases hsome
      · exact hrest
    · exact hrest

theorem blocksFrom_of_block? {b : Block} (h : block? cs = some (b, rest)) :
    blocksFrom true cs = b :: blocksFrom false rest := by
  cases cs with
  | nil => exact absurd (length_block? h) (by simp)
  | cons c cs =>
    rw [blocksFrom, if_pos rfl]
    split
    · rename_i hsome
      rw [h] at hsome
      cases hsome
      rfl
    · rename_i hnone
      rw [h] at hnone
      cases hnone

/-- Read from the start of a line on, and with a line feed behind it, the text gives these blocks
and the reader is at the start of a line again. -/
def Yields (cs : List Char) (bs : List Block) : Prop :=
  ∀ rest, blocksFrom true (cs ++ '\n' :: rest) = bs ++ blocksFrom true rest

theorem Yields.nil : Yields [] [] := fun _ => blocksFrom_newline true (by simp) (by simp)

theorem Yields.append {ds : List Char} {bs bs' : List Block} (hcs : Yields cs bs)
    (hds : Yields ds bs') : Yields (cs ++ '\n' :: ds) (bs ++ bs') := by
  intro rest
  rw [List.append_assoc, List.cons_append, hcs, hds, List.append_assoc]

theorem yields_of_line (h : '\n' ∉ cs) (hhead : cs.head? ≠ some 'm') : Yields cs [] :=
  fun _ => blocksFrom_newline true h fun _ => hhead

/-- Lines that do not begin like the header of a table give no blocks. -/
theorem yields_of_lines {l : List Char} {ls : List (List Char)} (h : ∀ k ∈ l :: ls, '\n' ∉ k)
    (hhead : ∀ k ∈ l :: ls, k.head? ≠ some 'm') : Yields (joinWith ['\n'] (l :: ls)) [] := by
  induction ls generalizing l with
  | nil => exact yields_of_line (h l List.mem_cons_self) (hhead l List.mem_cons_self)
  | cons k ls ih =>
    have hl := yields_of_line (h l List.mem_cons_self) (hhead l List.mem_cons_self)
    have hls := ih (fun k' hk' => h k' (List.mem_cons_of_mem _ hk'))
      fun k' hk' => hhead k' (List.mem_cons_of_mem _ hk')
    rw [joinWith, List.append_assoc, List.singleton_append]
    · exact hl.append hls
    · intro hnil
      cases hnil

/-- Pieces with a blank line between them give the blocks of all of them. -/
theorem yields_joinWith {t : List Char} {ts : List (List Char)} {bs : List Block}
    {bss : List (List Block)} (ht : Yields t bs) (hts : List.Forall₂ Yields ts bss) :
    Yields (joinWith ['\n', '\n'] (t :: ts)) (bs ++ bss.flatten) := by
  induction hts generalizing t bs with
  | nil =>
    rw [List.flatten_nil, List.append_nil]
    exact ht
  | cons hu _ ih =>
    -- the blank line is a piece of its own, without blocks
    have hblank := ht.append (Yields.nil.append (ih hu))
    rw [joinWith, List.append_assoc, List.flatten_cons]
    · exact hblank
    · intro hnil
      cases hnil

theorem blocks_of_yields {bs : List Block} (h : Yields cs bs) : blocks (cs ++ ['\n']) = bs := by
  have hend : blocksFrom true [] = [] := by rw [blocksFrom]
  rw [blocks, h [], hend, List.append_nil]

/-! ### Blocks that are written -/

theorem block_eq (header : List Char) (lines : List (List Char)) :
    block header lines =
      header ++ [' ', '\x7b'] ++ (lines.flatMap (['\n'] ++ ·) ++ ['\n', '\x7d']) := by
  rw [block, List.cons_append, joinWith_cons, List.flatMap_append]
  rfl

/-- The block of a table is read whole: its name is a word, and its lines are lines that do not
begin with a brace. -/
theorem block?_block {name : List Char} {ls : List (List Char)} (hname : Wordy name)
    (hne : name ≠ []) (hline : ∀ l ∈ ls, '\n' ∉ l) (hhead : ∀ l ∈ ls, l.head? ≠ some '\x7d')
    (rest : List Char) : block? (block ("model ".toList ++ name) ls ++ rest) =
      some (⟨name, '\n' :: ls.flatMap (· ++ ['\n'])⟩, rest) := by
  have htext : block ("model ".toList ++ name) ls ++ rest = "model ".toList ++ name ++
      [' ', '\x7b'] ++ (ls.flatMap (['\n'] ++ ·) ++ '\n' :: '\x7d' :: rest) := by
    rw [block_eq]
    simp
  rw [htext, block?, header?_model hname hne, Option.bind_some]
  dsimp only
  rw [body?_lines hline hhead]
  rfl

/-- A block whose header begins with another letter than that of a table gives no blocks. -/
theorem yields_block {c : Char} (hc : c ≠ 'm') (hheader : '\n' ∉ c :: cs) {ls : List (List Char)}
    (h : ∀ l ∈ ls, '\n' ∉ l ∧ ∃ l', l = indent ++ l') : Yields (block (c :: cs) ls) [] := by
  rw [block, List.cons_append]
  refine yields_of_lines (fun k hk => ?_) fun k hk => ?_
  · rcases List.mem_cons.1 hk with rfl | hk
    · rw [List.mem_append, not_or]
      exact ⟨hheader, by decide⟩
    rcases List.mem_append.1 hk with hk | hk
    · exact (h k hk).1
    · rw [List.mem_singleton.1 hk]
      decide
  · rcases List.mem_cons.1 hk with rfl | hk
    · simpa using hc
    rcases List.mem_append.1 hk with hk | hk
    · obtain ⟨-, l', rfl⟩ := h k hk
      simp [indent]
    · rw [List.mem_singleton.1 hk]
      decide

/-- The texts that the block of a datasource shows. -/
def Datasource.texts (d : Datasource) : List String := d.url :: d.directUrl.toList

/-- The texts that the block of a generator shows, but for the values of its options. -/
def Generator.texts (g : Generator) : List String :=
  g.name :: g.provider :: (g.output.toList ++ g.options.map (·.1))

theorem newline_not_mem_urlLiteral {url : String} (h : '\n' ∉ url.toList) :
    '\n' ∉ urlLiteral url := by
  rw [urlLiteral]
  split
  · exact h
  · exact newline_not_mem_quoted _

theorem newline_not_mem_plainQuoted {s : String} (h : '\n' ∉ s.toList) : '\n' ∉ plainQuoted s := by
  simp [plainQuoted, h]

theorem Datasource.yields_print {d : Datasource} (h : ∀ s ∈ d.texts, '\n' ∉ s.toList) :
    Yields (d.print "db") [] := by
  refine yields_block (by decide) (by decide) fun l hl => ?_
  rcases List.mem_cons.1 hl with rfl | hl
  · refine ⟨?_, _, rfl⟩
    cases d.provider <;> decide
  rcases List.mem_cons.1 hl with rfl | hl
  · refine ⟨?_, _, rfl⟩
    rw [List.mem_append, not_or]
    exact ⟨by decide, newline_not_mem_urlLiteral (h d.url List.mem_cons_self)⟩
  · split at hl
    · rename_i url hurl
      split at hl
      · cases hl
      · rw [List.mem_singleton.1 hl]
        refine ⟨?_, _, rfl⟩
        rw [List.mem_append, not_or]
        refine ⟨by decide, newline_not_mem_urlLiteral (h url ?_)⟩
        exact List.mem_cons_of_mem _ (by simp [hurl])
    · cases hl

theorem Generator.yields_print {g : Generator} (h : ∀ s ∈ g.texts, '\n' ∉ s.toList) :
    Yields g.print [] := by
  have hname : '\n' ∉ "generator ".toList ++ g.name.toList := by
    rw [List.mem_append, not_or]
    exact ⟨by decide, h _ List.mem_cons_self⟩
  refine yields_block (by decide) hname fun l hl => ?_
  rw [List.cons_append, List.mem_cons, List.mem_append] at hl
  rcases hl with rfl | hl | hl
  · refine ⟨?_, _, rfl⟩
    rw [List.mem_append, not_or]
    exact ⟨by decide, newline_not_mem_plainQuoted (h _ (by simp [texts]))⟩
  · split at hl
    · rename_i path hpath
      split at hl
      · cases hl
      · rw [List.mem_singleton.1 hl]
        refine ⟨?_, _, rfl⟩
        rw [List.mem_append, not_or]
        exact ⟨by decide, newline_not_mem_plainQuoted (h path (by simp [texts, hpath]))⟩
    · cases hl
  · obtain ⟨⟨key, v⟩, hmem, hl⟩ := List.mem_filterMap.1 hl
    have hkey : '\n' ∉ key.toList := h key (by
      rw [texts, List.mem_cons, List.mem_cons, List.mem_append]
      exact Or.inr (Or.inr (Or.inr (List.mem_map.2 ⟨_, hmem, rfl⟩))))
    have hline : '\n' ∉ indent ++ key.toList ++ " = ".toList ++ v.literal := by
      simp only [List.mem_append, not_or]
      exact ⟨⟨⟨by decide, hkey⟩, by decide⟩, v.newline_not_mem_literal⟩
    dsimp only at hl
    split at hl
    · cases hl
    · cases hl
      exact ⟨hline, key.toList ++ " = ".toList ++ v.literal, by simp⟩

/-! ### Tables -/

namespace Table

/-- The block that is written for a table, as it is read. -/
def writtenBlock (t : Table) : Block :=
  ⟨t.name.toList, '\n' :: t.bodyLines.flatMap (· ++ ['\n'])⟩

/-- The table is written as one block: its name is a word, and no line ends within a line of its
body. -/
structure Framed (t : Table) : Prop where
  /-- The name is a word. -/
  wordy : Wordy t.name.toList
  /-- The name is not empty. -/
  named : t.name.toList ≠ []
  /-- Lines of the body are lines. -/
  unbroken : ∀ l ∈ t.bodyLines, Unbroken l

theorem head?_of_mem_directives {t : Table} {l : List Char} (h : l ∈ t.directives) :
    l.head? = some ' ' := by
  rw [directives, List.mem_append, List.mem_append] at h
  rcases h with (h | h) | h
  · obtain ⟨names, -, rfl⟩ := List.mem_map.1 h
    rfl
  · obtain ⟨names, -, rfl⟩ := List.mem_map.1 h
    rfl
  · split at h
    · split at h
      · cases h
      · rw [List.mem_singleton.1 h]
        rfl
    · cases h

/-- Lines of a body begin with a space. -/
theorem head?_of_mem_bodyLines {t : Table} {l : List Char} (h : l ∈ t.bodyLines) :
    l = [] ∨ l.head? = some ' ' := by
  rw [bodyLines, List.mem_append] at h
  rcases h with h | h
  · obtain ⟨c, -, hl⟩ := List.mem_flatMap.1 h
    rw [Column.printLines, List.mem_append, List.mem_singleton] at hl
    rcases hl with hl | rfl
    · split at hl
      · rw [List.mem_singleton.1 hl]
        exact Or.inr rfl
      · cases hl
    · exact Or.inr rfl
  · split at h
    · cases h
    · rcases List.mem_cons.1 h with rfl | h
      · exact Or.inl rfl
      · exact Or.inr (head?_of_mem_directives h)

theorem block?_print {t : Table} (h : t.Framed) (rest : List Char) :
    block? (t.print ++ rest) = some (t.writtenBlock, rest) := by
  have hbrace : ∀ l ∈ t.bodyLines, l.head? ≠ some '\x7d' := by
    intro l hl
    rcases head?_of_mem_bodyLines hl with rfl | hhead
    · simp
    · simp [hhead]
  exact block?_block h.wordy h.named (fun l hl => (h.unbroken l hl).not_mem_newline) hbrace rest

theorem yields_print {t : Table} (h : t.Framed) : Yields t.print [t.writtenBlock] := by
  intro rest
  rw [blocksFrom_of_block? (block?_print h _)]
  have := @blocksFrom_newline [] rest false (by simp) (by simp)
  rw [List.nil_append] at this
  rw [this]
  rfl

end Table

/-- The texts that the blocks in front of the tables show. -/
def Schema.headTexts (s : Schema) : List String :=
  s.datasource.texts ++ s.generators.flatMap (·.texts)

/-- The blocks that are found in the text of a schema are those of its tables. -/
theorem blocks_print {s : Schema} (hhead : ∀ text ∈ s.headTexts, '\n' ∉ text.toList)
    (htables : ∀ t ∈ s.tables, t.Framed) : blocks s.print = s.tables.map (·.writtenBlock) := by
  have hdata : Yields (s.datasource.print "db") [] :=
    Datasource.yields_print fun text htext => hhead text (List.mem_append.2 (Or.inl htext))
  have hgenerators : List.Forall₂ Yields (s.generators.map (·.print))
      (s.generators.map fun _ => []) := by
    rw [List.forall₂_map_left_iff, List.forall₂_map_right_iff, List.forall₂_same]
    intro g hg
    refine Generator.yields_print fun text htext => hhead text (List.mem_append.2 (Or.inr ?_))
    exact List.mem_flatMap.2 ⟨g, hg, htext⟩
  have htables' : List.Forall₂ Yields (s.tables.map (·.print))
      (s.tables.map fun t => [t.writtenBlock]) := by
    rw [List.forall₂_map_left_iff, List.forall₂_map_right_iff, List.forall₂_same]
    exact fun t ht => Table.yields_print (htables t ht)
  have hpieces : List.Forall₂ Yields
      (s.generators.map (·.print) ++ s.tables.map (·.print))
      ((s.generators.map fun _ => []) ++ s.tables.map fun t => [t.writtenBlock]) :=
    List.rel_append hgenerators htables'
  have hflat : (s.generators.map fun _ => ([] : List Block)).flatten = [] := by
    rw [List.flatten_eq_nil_iff]
    intro l hl
    obtain ⟨_, -, rfl⟩ := List.mem_map.1 hl
    rfl
  rw [Schema.print, List.cons_append, blocks_of_yields (yields_joinWith hdata hpieces),
    List.nil_append, List.flatten_append, hflat, List.nil_append, ← List.flatMap_def]
  exact List.flatMap_pure_eq_map _ _

end ContentSchema
