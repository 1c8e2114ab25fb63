import ContentSchema.Proofs.Outcomes
import ContentSchema.Proofs.Schema.Blocks

/-!
# Lines that say nothing

Blank lines and comments between the lines of a block.  Where a block ends is seen before its lines
are told apart, at the first line that begins with a brace; no line that is blank or a comment does,
so the block stays whole whatever the comment says.  A line of this kind leaves the table as it is
(`Table.addLine_remark`).  So with such lines put in, a document is read as it was
(`parseTables_eq_of_remarked`).
-/

namespace ContentSchema

open Text

/-! ### Lines -/

/-- The line is blank or a comment: behind blanks it ends, or begins with two slashes. -/
structure IsRemark (l : List Char) : Prop where
  /-- No line ends within the line. -/
  unbroken : Unbroken l
  /-- Behind blanks the line ends or begins with two slashes. -/
  silent : ∃ bs rest, l = bs ++ rest ∧ (∀ b ∈ bs, isBlank b = true) ∧
    (rest = [] ∨ "//".toList <+: rest)

/-- The second list has the lines of the first in order, and remarks between them. -/
inductive Remarked : List (List Char) → List (List Char) → Prop where
  /-- No lines. -/
  | nil : Remarked [] []
  /-- A line stays. -/
  | keep (l : List Char) {ls ls' : List (List Char)} (h : Remarked ls ls') :
    Remarked (l :: ls) (l :: ls')
  /-- A remark is put in. -/
  | insert {l : List Char} {ls ls' : List (List Char)} (hl : IsRemark l) (h : Remarked ls ls') :
    Remarked ls (l :: ls')

variable {l : List Char} {ls ls' : List (List Char)}

/-- A remark does not begin with a brace. -/
theorem IsRemark.head?_ne (h : IsRemark l) : l.head? ≠ some '\x7d' := by
  obtain ⟨bs, rest, rfl, hbs, hrest⟩ := h.silent
  cases bs with
  | nil =>
    rcases hrest with rfl | ⟨tail, rfl⟩
    · simp
    · simp
  | cons b bs =>
    have hb : isBlank b = true := hbs b List.mem_cons_self
    rw [List.cons_append, List.head?_cons]
    rintro ⟨_⟩
    exact absurd hb (by decide)

/-- A table is left as it is by a remark. -/
theorem Table.addLine_remark (h : IsRemark l) (t : Table) : t.addLine (strip l) = .ok t := by
  have hsilent : ((strip l).isEmpty || startsWith "//" (strip l)) = true := by
    obtain ⟨bs, rest, rfl, hbs, rfl | ⟨tail, rfl⟩⟩ := h.silent
    · have hnil : (bs ++ []).dropWhile isBlank = [] := by
        rw [List.append_nil]
        exact List.dropWhile_eq_nil_iff.2 hbs
      rw [strip, hnil]
      rfl
    · have hslash : isBlank '/' = false := by decide
      have hend : stripEnd ('/' :: tail) = '/' :: stripEnd tail :=
        stripEnd_append_solid hslash [] tail
      have hstrip : strip (bs ++ ("//".toList ++ tail)) = '/' :: '/' :: stripEnd tail := by
        rw [show "//".toList ++ tail = '/' :: ('/' :: tail) from rfl, strip_append hbs hslash, hend]
      rw [hstrip]
      rfl
  rw [addLine, if_pos hsilent]
  rfl

namespace Remarked

/-- What is asked of every line, and what remarks have, the lines with remarks put in have. -/
theorem forall_mem {P : List Char → Prop} (h : Remarked ls ls') (hremark : ∀ l, IsRemark l → P l)
    (hls : ∀ l ∈ ls, P l) : ∀ l ∈ ls', P l := by
  induction h with
  | nil => exact hls
  | keep l _ ih =>
    obtain ⟨hl, hls⟩ := List.forall_mem_cons.1 hls
    exact List.forall_mem_cons.2 ⟨hl, ih hls⟩
  | insert hl _ ih => exact List.forall_mem_cons.2 ⟨hremark _ hl, ih hls⟩

/-- The lines are read into a table as they are without the remarks; one of them may be several
lines to the reader. -/
theorem foldlM_addLine (h : Remarked ls ls') (t : Table) :
    ((ls'.flatMap fun l => lines (l ++ ['\n'])).map strip).foldlM Table.addLine t =
      ((ls.flatMap fun l => lines (l ++ ['\n'])).map strip).foldlM Table.addLine t := by
  induction h generalizing t with
  | nil => rfl
  | keep l _ ih =>
    simp only [List.flatMap_cons, List.map_append, List.foldlM_append, ih]
  | @insert l _ _ hl _ ih =>
    have hline : lines (l ++ ['\n']) = [l] := by
      rw [lines, linesFrom_append [] hl.unbroken]
      rfl
    rw [List.flatMap_cons, hline, List.singleton_append, List.map_cons, List.foldlM_cons,
      Table.addLine_remark hl]
    exact ih t

end Remarked

/-! ### Documents -/

/-- A block given line by line: what stands above its header, the name in the header and the lines
between its braces. -/
structure LineBlock where
  /-- The lines between the block before it and its header. -/
  above : List (List Char)
  /-- The name in the header. -/
  name : List Char
  /-- The lines between the braces. -/
  lines : List (List Char)

namespace LineBlock

/-- The text of the block. -/
def text (b : LineBlock) : List Char :=
  b.above.flatMap (· ++ ['\n']) ++ ContentSchema.block ("model ".toList ++ b.name) b.lines

/-- The block as it is read. -/
def block (b : LineBlock) : Block := ⟨b.name, '\n' :: b.lines.flatMap (· ++ ['\n'])⟩

/-- The block has a word for its name, its lines are lines that do not begin with a brace, and those
above it do not begin like a header. -/
structure Framed (b : LineBlock) : Prop where
  /-- Lines above the header are lines, and none begins like a header. -/
  headless : ∀ l ∈ b.above, '\n' ∉ l ∧ l.head? ≠ some 'm'
  /-- The name is a word. -/
  wordy : Wordy b.name
  /-- The name is not empty. -/
  named : b.name ≠ []
  /-- Lines are lines. -/
  lines : ∀ l ∈ b.lines, '\n' ∉ l
  /-- No line begins with a brace. -/
  braceless : ∀ l ∈ b.lines, l.head? ≠ some '\x7d'

/-- The second block is the first with remarks put in between its braces. -/
structure Remarked (b b' : LineBlock) : Prop where
  /-- What stands above the header stays. -/
  above : b'.above = b.above
  /-- The header stays. -/
  name : b'.name = b.name
  /-- Remarks are put in between the lines. -/
  lines : ContentSchema.Remarked b.lines b'.lines

variable {b b' : LineBlock}

theorem Framed.of_remarked (h : b.Framed) (hremarked : b.Remarked b') : b'.Framed where
  headless := hremarked.above ▸ h.headless
  wordy := hremarked.name ▸ h.wordy
  named := hremarked.name ▸ h.named
  lines := hremarked.lines.forall_mem (fun _ hl => hl.unbroken.not_mem_newline) h.lines
  braceless := hremarked.lines.forall_mem (fun _ hl => hl.head?_ne) h.braceless

/-- What stands above the block is passed over, and the block is read whole. -/
theorem Framed.blocksFrom_text (h : b.Framed) (rest : List Char) :
    blocksFrom true (b.text ++ rest) = b.block :: blocksFrom false rest := by
  have habove : ∀ ls : List (List Char), (∀ l ∈ ls, '\n' ∉ l ∧ l.head? ≠ some 'm') → ∀ cs,
      blocksFrom true (ls.flatMap (· ++ ['\n']) ++ cs) = blocksFrom true cs := by
    intro ls hls cs
    induction ls with
    | nil => rfl
    | cons l ls ih =>
      obtain ⟨⟨hline, hhead⟩, hls⟩ := List.forall_mem_cons.1 hls
      rw [List.flatMap_cons, List.append_assoc, List.append_assoc, List.singleton_append,
        blocksFrom_newline true hline fun _ => hhead, ih hls]
  rw [text, List.append_assoc, habove _ h.headless]
  exact blocksFrom_of_block? (block?_block h.wordy h.named h.lines h.braceless rest)

/-- A block is read into a table line by line. -/
theorem table_block (b : LineBlock) : b.block.table =
    (([] :: b.lines.flatMap fun l => Text.lines (l ++ ['\n'])).map strip).foldlM Table.addLine
      ⟨String.ofList b.name, [], [], [], none⟩ := by
  have hlines : ∀ ls : List (List Char), Text.lines (ls.flatMap (· ++ ['\n'])) =
      ls.flatMap fun l => Text.lines (l ++ ['\n']) := by
    intro ls
    induction ls with
    | nil => rfl
    | cons l ls ih =>
      rw [List.flatMap_cons, List.append_assoc, List.singleton_append, Text.lines,
        linesFrom_newline, List.flatMap_cons]
      exact congrArg (Text.lines (l ++ ['\n']) ++ ·) ih
  have hbody : Text.lines ('\n' :: b.lines.flatMap (· ++ ['\n'])) =
      [] :: b.lines.flatMap fun l => Text.lines (l ++ ['\n']) := by
    rw [← hlines]
    exact linesFrom_newline [] [] _
  rw [Block.table, block, hbody]

theorem Remarked.table_block_eq (h : b.Remarked b') : b'.block.table = b.block.table := by
  rw [table_block, table_block, h.name, List.map_cons, List.map_cons, List.foldlM_cons,
    List.foldlM_cons]
  exact bind_congr fun t => h.lines.foldlM_addLine t

end LineBlock

/-- The text of a document: its blocks one below the other. -/
def documentText (bs : List LineBlock) : List Char := joinWith ['\n'] (bs.map (·.text))

/-- The blocks of a document are read as they are written, and then what follows the document; that
begins a line only if there is no block. -/
theorem blocksFrom_documentText {bs : List LineBlock} (h : ∀ b ∈ bs, b.Framed) (rest : List Char) :
    blocksFrom true (documentText bs ++ rest) =
      bs.map (·.block) ++ blocksFrom bs.isEmpty rest := by
  induction bs with
  | nil => rfl
  | cons b bs ih =>
    obtain ⟨hb, hbs⟩ := List.forall_mem_cons.1 h
    cases bs with
    | nil => exact hb.blocksFrom_text rest
    | cons b' bs =>
      have htext : documentText (b :: b' :: bs) ++ rest =
          b.text ++ ([] ++ '\n' :: (documentText (b' :: bs) ++ rest)) := by
        simp [documentText, joinWith]
      rw [htext, hb.blocksFrom_text, blocksFrom_newline false (by simp) (by simp), ih hbs]
      rfl

/-- Remarks in the blocks of a document make no difference to the tables that are read, whatever
follows the document. -/
theorem parseTables_eq_of_remarked {bs bs' : List LineBlock} (hframed : ∀ b ∈ bs, b.Framed)
    (h : List.Forall₂ LineBlock.Remarked bs bs') (rest : List Char) :
    parseTables (documentText bs' ++ rest) = parseTables (documentText bs ++ rest) := by
  have hframed' : ∀ b' ∈ bs', b'.Framed := by
    intro b' hb'
    obtain ⟨b, hb, hremarked⟩ := exists_of_mem_right h hb'
    exact (hframed b hb).of_remarked hremarked
  have htables : (bs'.map (·.block)).mapM Block.table = (bs.map (·.block)).mapM Block.table := by
    refine mapM_eq_of_forall₂ (List.forall₂_map_left_iff.2 (List.forall₂_map_right_iff.2 ?_))
    exact h.flip.imp fun _ _ hremarked => hremarked.table_block_eq
  have hempty : bs'.isEmpty = bs.isEmpty := by cases h <;> rfl
  rw [parseTables, parseTables, blocks, blocks, blocksFrom_documentText hframed,
    blocksFrom_documentText hframed', List.mapM_append, List.mapM_append, htables, hempty]

/-- A document of two blocks with a comment between them. -/
def placesDocument : List LineBlock :=
  [⟨[], "City".toList, ["  id   String @id".toList, "  name String?".toList]⟩,
    ⟨["// streets".toList], "Street".toList, ["  id   String @id".toList]⟩]

/-- The document with a blank line, an annotation and a comment with braces put in. -/
def remarkedDocument : List LineBlock :=
  [⟨[], "City".toList,
      [[], "  id   String @id".toList, "  /// @zod.max(9)".toList, "  name String?".toList]⟩,
    ⟨["// streets".toList], "Street".toList,
      ["  id   String @id".toList, "// \x7d @@map(streets)".toList]⟩]

/-- Both documents have the columns of the first. -/
theorem parseTables_remarkedDocument :
    (∀ b ∈ placesDocument, b.Framed) ∧
      List.Forall₂ LineBlock.Remarked placesDocument remarkedDocument ∧
      documentText remarkedDocument ≠ documentText placesDocument ∧
      (parseTables (documentText placesDocument ++ ['\n'])).toOption.map
          (·.map fun t => (t.name, t.columns.map (·.name))) =
        some [("City", ["id", "name"]), ("Street", ["id"])] ∧
      parseTables (documentText remarkedDocument ++ ['\n']) =
        parseTables (documentText placesDocument ++ ['\n']) := by
  have hframed : ∀ b ∈ placesDocument, b.Framed := by
    intro b hb
    rcases List.mem_cons.1 hb with rfl | hb
    · exact ⟨by decide, by decide, by decide, by decide, by decide⟩
    · rw [List.mem_singleton.1 hb]
      exact ⟨by decide, by decide, by decide, by decide, by decide⟩
  have hblank : IsRemark [] := ⟨by decide, [], [], rfl, by simp, Or.inl rfl⟩
  have hannotation : IsRemark "  /// @zod.max(9)".toList :=
    ⟨by decide, [' ', ' '], "/// @zod.max(9)".toList, rfl, by decide, Or.inr (by decide)⟩
  have hbraces : IsRemark "// \x7d @@map(streets)".toList :=
    ⟨by decide, [], "// \x7d @@map(streets)".toList, rfl, by simp, Or.inr (by decide)⟩
  have hremarked : List.Forall₂ LineBlock.Remarked placesDocument remarkedDocument :=
    .cons ⟨rfl, rfl, .insert hblank (.keep _ (.insert hannotation (.keep _ .nil)))⟩
      (.cons ⟨rfl, rfl, .keep _ (.insert hbraces .nil)⟩ .nil)
  exact ⟨hframed, hremarked, by decide, by decide +kernel,
    parseTables_eq_of_remarked hframed hremarked ['\n']⟩

end ContentSchema
