import ContentSchema.Text.Blank
import ContentSchema.Text.Digit
import ContentSchema.Text.Word
import Mathlib.Data.List.DropRight

/-!
# Lines and words

Texts that no line ends in, texts without blanks, and how joining and cutting undo each other.
What the writer puts between texts keeps the properties that marks keep (`Joinable`).
Lines that are written one below the other are read as they were (`lines_flatMap`), and a word with
a blank behind it is the first word of its text (`words_append_cons`).
-/

namespace ContentSchema.Text

/-- What holds for the characters of a text is decided by going through the text, not through all
characters. -/
instance decidableForallMem (p : Char → Prop) [DecidablePred p] (cs : List Char) :
    Decidable (∀ c ∈ cs, p c) :=
  List.decidableBAll p cs

/-- No line ends in the text. -/
def Unbroken (cs : List Char) : Prop := ∀ c ∈ cs, isLineBreak c = false

/-- No blank stands in the text. -/
def Solid (cs : List Char) : Prop := ∀ c ∈ cs, isBlank c = false

variable {cs ds : List Char}

instance : Decidable (Unbroken cs) := inferInstanceAs (Decidable (∀ c ∈ cs, isLineBreak c = false))

instance : Decidable (Solid cs) := inferInstanceAs (Decidable (∀ c ∈ cs, isBlank c = false))

/-! ### Unbroken texts -/

@[simp] theorem unbroken_nil : Unbroken [] := by simp [Unbroken]

@[simp] theorem unbroken_cons {c : Char} :
    Unbroken (c :: cs) ↔ isLineBreak c = false ∧ Unbroken cs := by
  simp [Unbroken]

@[simp] theorem unbroken_append : Unbroken (cs ++ ds) ↔ Unbroken cs ∧ Unbroken ds := by
  simp only [Unbroken, List.mem_append]
  constructor
  · intro h
    exact ⟨fun c hc => h c (Or.inl hc), fun c hc => h c (Or.inr hc)⟩
  · rintro ⟨hcs, hds⟩ c (hc | hc)
    · exact hcs c hc
    · exact hds c hc

theorem Unbroken.of_subset (h : Unbroken ds) (hsub : cs ⊆ ds) : Unbroken cs :=
  fun c hc => h c (hsub hc)

theorem isLineBreak_eq_false {c : Char} (h : isBlank c = false) : isLineBreak c = false := by
  cases hb : isLineBreak c with
  | false => rfl
  | true => rw [isBlank_of_isLineBreak hb] at h; exact h

theorem Solid.unbroken (h : Solid cs) : Unbroken cs := fun c hc => isLineBreak_eq_false (h c hc)

theorem Unbroken.not_mem_newline (h : Unbroken cs) : '\n' ∉ cs := by
  intro hmem
  have := h _ hmem
  revert this
  decide

/-! ### Joining -/

theorem joinWith_cons (sep t : List Char) (ts : List (List Char)) :
    joinWith sep (t :: ts) = t ++ ts.flatMap (sep ++ ·) := by
  induction ts generalizing t with
  | nil => simp [joinWith]
  | cons u us ih =>
    rw [joinWith, ih u, List.flatMap_cons, List.append_assoc, List.append_assoc]
    intro h
    cases h

theorem mem_joinWith {sep : List Char} {ts : List (List Char)} {c : Char}
    (h : c ∈ joinWith sep ts) : c ∈ sep ∨ ∃ t ∈ ts, c ∈ t := by
  cases ts with
  | nil => cases h
  | cons t ts =>
    rw [joinWith_cons, List.mem_append] at h
    rcases h with h | h
    · exact Or.inr ⟨t, List.mem_cons_self, h⟩
    · obtain ⟨u, hu, hc⟩ := List.mem_flatMap.1 h
      rcases List.mem_append.1 hc with hc | hc
      · exact Or.inl hc
      · exact Or.inr ⟨u, List.mem_cons_of_mem _ hu, hc⟩

theorem unbroken_joinWith {sep : List Char} {ts : List (List Char)} (hsep : Unbroken sep)
    (h : ∀ t ∈ ts, Unbroken t) : Unbroken (joinWith sep ts) := by
  intro c hc
  rcases mem_joinWith hc with hc | ⟨t, ht, hc⟩
  · exact hsep c hc
  · exact h t ht c hc

/-! ### Joining at marks -/

/-- The character is no digit and ends no line. -/
def isMark (c : Char) : Bool := !isDecimal c && !isLineBreak c

/-- Texts that have the property may be joined at marks. -/
structure Joinable (P : List Char → Prop) : Prop where
  /-- The empty text has the property. -/
  nil : P []
  /-- A mark may stand between two texts. -/
  append_cons : ∀ {c : Char} {cs ds : List Char}, isMark c = true → P cs → P ds → P (cs ++ c :: ds)

namespace Joinable

variable {P : List Char → Prop}

theorem cons (hP : Joinable P) {c : Char} (hc : isMark c = true) (h : P cs) : P (c :: cs) :=
  hP.append_cons hc hP.nil h

/-- Marks may stand in front. -/
theorem marks_append (hP : Joinable P) (hcs : ∀ c ∈ cs, isMark c = true) (hds : P ds) :
    P (cs ++ ds) := by
  induction cs with
  | nil => exact hds
  | cons c cs ih =>
    obtain ⟨hc, hcs⟩ := List.forall_mem_cons.1 hcs
    exact hP.cons hc (ih hcs)

theorem marks (hP : Joinable P) (hcs : ∀ c ∈ cs, isMark c = true) : P cs := by
  have h := hP.marks_append hcs hP.nil
  rwa [List.append_nil] at h

/-- Marks may stand behind. -/
theorem append_marks (hP : Joinable P) (hcs : P cs) (hds : ∀ c ∈ ds, isMark c = true) :
    P (cs ++ ds) := by
  cases ds with
  | nil =>
    rw [List.append_nil]
    exact hcs
  | cons c ds =>
    obtain ⟨hc, hds⟩ := List.forall_mem_cons.1 hds
    exact hP.append_cons hc hcs (hP.marks hds)

theorem joinWith (hP : Joinable P) {sep : List Char} (hne : sep ≠ [])
    (hsep : ∀ c ∈ sep, isMark c = true) {ts : List (List Char)} (hts : ∀ t ∈ ts, P t) :
    P (joinWith sep ts) := by
  obtain ⟨c, cs, rfl⟩ := List.exists_cons_of_ne_nil hne
  obtain ⟨hc, hcs⟩ := List.forall_mem_cons.1 hsep
  induction ts with
  | nil => exact hP.nil
  | cons t ts ih =>
    obtain ⟨ht, hts⟩ := List.forall_mem_cons.1 hts
    cases ts with
    | nil => exact ht
    | cons u us =>
      rw [Text.joinWith, List.append_assoc, List.cons_append]
      · exact hP.append_cons hc ht (hP.marks_append hcs (ih hts))
      · exact List.cons_ne_nil u us

/-- Quotes may stand around a text. -/
theorem quotes (hP : Joinable P) (h : P cs) : P ('"' :: cs ++ ['"']) :=
  hP.cons (by decide) (hP.append_marks h (by decide))

end Joinable

theorem joinable_unbroken : Joinable Unbroken where
  nil := unbroken_nil
  append_cons hc hcs hds := by
    simp only [isMark, Bool.and_eq_true, Bool.not_eq_true'] at hc
    exact unbroken_append.2 ⟨hcs, unbroken_cons.2 ⟨hc.2, hds⟩⟩

/-! ### Reading lines -/

theorem linesFrom_append (current : List Char) (h : Unbroken cs) :
    linesFrom current (cs ++ '\n' :: ds) = (current.reverse ++ cs) :: linesFrom [] ds := by
  induction cs generalizing current with
  | nil =>
    rw [List.nil_append, List.append_nil, linesFrom]
    · simp [show isLineBreak '\n' = true by decide]
    · rintro _ ⟨_⟩
  | cons c cs ih =>
    obtain ⟨hc, hcs⟩ := unbroken_cons.1 h
    rw [List.cons_append, linesFrom]
    · rw [if_neg (by simp [hc]), ih _ hcs]
      simp
    · -- a carriage return would end a line
      intro _ hcr
      simp [hcr, show isLineBreak '\r' = true by decide] at hc

/-- A line feed ends a line, whatever stands before it. -/
theorem linesFrom_newline (current cs ds : List Char) :
    linesFrom current (cs ++ '\n' :: ds) = linesFrom current (cs ++ ['\n']) ++ linesFrom [] ds := by
  have hend : ∀ current es, linesFrom current ('\n' :: es) = current.reverse :: linesFrom [] es := by
    intro current es
    have := @linesFrom_append [] es current unbroken_nil
    rwa [List.nil_append, List.append_nil] at this
  fun_induction linesFrom current cs with
  | case1 | case2 =>
    rw [List.nil_append, List.nil_append, hend, hend]
    rfl
  | case3 current cs ih => simp only [List.cons_append, linesFrom, ih]
  | case4 current c cs hpair hc ih =>
    by_cases hreturn : c = '\r' ∧ cs = []
    · -- the carriage return and the line feed end one line
      obtain ⟨rfl, rfl⟩ := hreturn
      rfl
    · have hnext : ∀ es tail, c = '\r' → cs ++ '\n' :: es = '\n' :: tail → False := by
        rintro es tail rfl htail
        cases cs with
        | nil => exact hreturn ⟨rfl, rfl⟩
        | cons d cs =>
          obtain ⟨rfl, -⟩ := List.cons.inj htail
          exact hpair cs rfl rfl
      rw [List.cons_append, List.cons_append, linesFrom, linesFrom, if_pos hc, if_pos hc, ih,
        List.cons_append]
      · exact hnext []
      · exact hnext ds
  | case5 current c cs _ hc ih =>
    have hreturn : c ≠ '\r' := by
      rintro rfl
      exact hc (by decide)
    rw [List.cons_append, List.cons_append, linesFrom, linesFrom, if_neg hc, if_neg hc, ih]
    · exact fun _ h => absurd h hreturn
    · exact fun _ h => absurd h hreturn

/-- Unbroken texts, each with a line feed behind it, are the lines of the whole. -/
theorem lines_flatMap {ls : List (List Char)} (h : ∀ l ∈ ls, Unbroken l) :
    lines (ls.flatMap (· ++ ['\n'])) = ls := by
  induction ls with
  | nil => rfl
  | cons l ls ih =>
    have hl := h l List.mem_cons_self
    have hls := ih fun l' hl' => h l' (List.mem_cons_of_mem _ hl')
    rw [lines] at hls ⊢
    rw [List.flatMap_cons, List.append_assoc, List.singleton_append, linesFrom_append _ hl, hls]
    simp

theorem unbroken_of_mem_linesFrom {current l : List Char} (hcur : Unbroken current)
    (h : l ∈ linesFrom current cs) : Unbroken l := by
  fun_induction linesFrom current cs with
  | case1 => simp at h
  | case2 =>
    rw [List.mem_singleton] at h
    subst h
    exact hcur.of_subset (by simp)
  | case3 _ cs ih =>
    rcases List.mem_cons.1 h with rfl | h
    · exact hcur.of_subset (by simp)
    · exact ih unbroken_nil h
  | case4 _ c cs _ _ ih =>
    rcases List.mem_cons.1 h with rfl | h
    · exact hcur.of_subset (by simp)
    · exact ih unbroken_nil h
  | case5 _ c cs _ hc ih => exact ih (unbroken_cons.2 ⟨by simpa using hc, hcur⟩) h

theorem infix_of_mem_linesFrom {current l : List Char} (h : l ∈ linesFrom current cs) :
    l <:+: current.reverse ++ cs := by
  -- a line that begins behind the character at hand stands in the text as well
  have hrest : ∀ {current : List Char} {c : Char} {cs : List Char},
      l <:+: [].reverse ++ cs → l <:+: current.reverse ++ c :: cs := fun hl =>
    (hl.trans (List.suffix_cons _ _).isInfix).trans (List.suffix_append _ _).isInfix
  fun_induction linesFrom current cs with
  | case1 => simp at h
  | case2 =>
    rw [List.mem_singleton.1 h]
    exact (List.prefix_append _ _).isInfix
  | case3 _ cs ih =>
    rcases List.mem_cons.1 h with rfl | h
    · exact (List.prefix_append _ _).isInfix
    · exact hrest ((ih h).trans (List.suffix_cons _ _).isInfix)
  | case4 _ c cs _ _ ih =>
    rcases List.mem_cons.1 h with rfl | h
    · exact (List.prefix_append _ _).isInfix
    · exact hrest (ih h)
  | case5 _ c cs _ _ ih => simpa using ih h

/-- No line ends within a line, and each line stands in the text. -/
theorem of_mem_lines {l : List Char} (h : l ∈ lines cs) : Unbroken l ∧ l <:+: cs :=
  ⟨unbroken_of_mem_linesFrom unbroken_nil h, infix_of_mem_linesFrom h⟩

/-! ### Stripping -/

theorem stripEnd_append_solid {c : Char} (h : isBlank c = false) (cs ds : List Char) :
    stripEnd (cs ++ c :: ds) = cs ++ c :: stripEnd ds := by
  induction ds using List.reverseRecOn with
  | nil =>
    change List.rdropWhile isBlank (cs ++ [c]) = cs ++ [c]
    rw [List.rdropWhile_concat_neg _ _ _ (by simp [h])]
  | append_singleton ds d ih =>
    change List.rdropWhile isBlank (cs ++ c :: (ds ++ [d])) = cs ++ c :: List.rdropWhile isBlank _
    rw [← List.cons_append, ← List.append_assoc, List.rdropWhile_concat, List.rdropWhile_concat]
    split
    · exact ih
    · rw [List.append_assoc, List.cons_append]

theorem stripEnd_isPrefix (cs : List Char) : stripEnd cs <+: cs := List.rdropWhile_prefix isBlank cs

theorem stripEnd_stripEnd (cs : List Char) : stripEnd (stripEnd cs) = stripEnd cs :=
  List.rdropWhile_idempotent isBlank cs

/-- What is cut off at the end of a text consists of blanks. -/
theorem exists_eq_stripEnd_append (cs : List Char) :
    ∃ bs, cs = stripEnd cs ++ bs ∧ ∀ b ∈ bs, isBlank b = true :=
  ⟨cs.rtakeWhile isBlank, (List.rdropWhile_append_rtakeWhile).symm,
    fun _ hb => List.mem_rtakeWhile_imp hb⟩

theorem strip_isInfix (cs : List Char) : strip cs <:+: cs :=
  (stripEnd_isPrefix _).isInfix.trans (List.dropWhile_suffix isBlank).isInfix

/-- Blanks in front of a text that begins with another character are cut off. -/
theorem strip_append {bs : List Char} {c : Char} (hbs : ∀ b ∈ bs, isBlank b = true)
    (hc : isBlank c = false) (cs : List Char) : strip (bs ++ c :: cs) = c :: stripEnd cs := by
  rw [strip, List.dropWhile_append_of_pos hbs, List.dropWhile_cons, if_neg (by simp [hc])]
  exact stripEnd_append_solid hc [] cs

theorem strip_of_solid (h : Solid cs) : strip cs = cs := by
  cases cs with
  | nil => rfl
  | cons c cs =>
    have hc : isBlank c = false := h c List.mem_cons_self
    have := @strip_append [] _ (by simp) hc cs
    rw [List.nil_append] at this
    rw [this]
    have hend : stripEnd cs = cs := by
      refine List.rdropWhile_eq_self_iff.2 fun hne => ?_
      rw [h _ (List.mem_cons_of_mem _ (List.getLast_mem hne))]
      exact Bool.false_ne_true
    rw [hend]

/-! ### Words -/

/-- The first word of a text. -/
theorem words_append_cons {w : List Char} {b : Char} (hw : Solid w) (hne : w ≠ [])
    (hb : isBlank b = true) (cs : List Char) : words (w ++ b :: cs) = w :: words cs := by
  rw [words, List.splitOnP_append_cons_of_forall_mem hw b hb, List.filter_cons_of_pos, words]
  simpa using hne

theorem words_of_solid {w : List Char} (hw : Solid w) (hne : w ≠ []) : words w = [w] := by
  rw [words, List.splitOnP_eq_singleton hw, List.filter_cons_of_pos, List.filter_nil]
  simpa using hne

/-- Blanks in front of a text do not matter to its words. -/
theorem words_blanks_append {bs : List Char} (hbs : ∀ b ∈ bs, isBlank b = true)
    (cs : List Char) : words (bs ++ cs) = words cs := by
  induction bs with
  | nil => rfl
  | cons b bs ih =>
    have hb := hbs b List.mem_cons_self
    have := List.splitOnP_append_cons_of_forall_mem (p := isBlank) (List.forall_mem_nil _) b hb
      (bs ++ cs)
    rw [List.nil_append] at this
    rw [List.cons_append, words, this, List.filter_cons_of_neg (by simp)]
    exact ih fun b' hb' => hbs b' (List.mem_cons_of_mem _ hb')

/-- The first part of a text that is cut at characters stands at its start. -/
theorem prefix_of_splitOnP_eq_cons {p : Char → Bool} {w : List Char} {ws : List (List Char)}
    (h : cs.splitOnP p = w :: ws) : w <+: cs := by
  induction cs generalizing w ws with
  | nil =>
    rw [List.splitOnP_nil] at h
    cases h
    exact List.prefix_rfl
  | cons c cs ih =>
    rw [List.splitOnP_cons_eq_if_modifyHead] at h
    split at h
    · cases h
      exact List.nil_prefix
    · obtain ⟨u, us, hu⟩ := List.exists_cons_of_ne_nil (List.splitOnP_ne_nil p cs)
      rw [hu, List.modifyHead_cons] at h
      cases h
      exact (List.prefix_cons_inj c).2 (ih hu)

/-- The parts of a text that is cut at the characters of a class hold none of them and stand in the
text. -/
theorem of_mem_splitOnP {p : Char → Bool} {w : List Char} (h : w ∈ cs.splitOnP p) :
    (∀ c ∈ w, p c = false) ∧ w <:+: cs := by
  induction cs generalizing w with
  | nil =>
    rw [List.splitOnP_nil, List.mem_singleton] at h
    subst h
    simp
  | cons c cs ih =>
    rw [List.splitOnP_cons_eq_if_modifyHead] at h
    split at h
    · rcases List.mem_cons.1 h with rfl | h
      · simp
      · exact ⟨(ih h).1, (ih h).2.trans (List.suffix_cons c cs).isInfix⟩
    · rename_i hc
      obtain ⟨u, us, hu⟩ := List.exists_cons_of_ne_nil (List.splitOnP_ne_nil p cs)
      rw [hu, List.modifyHead_cons] at h
      rcases List.mem_cons.1 h with rfl | h
      · obtain ⟨hsep, -⟩ := ih (hu ▸ List.mem_cons_self)
        have hfront := (List.prefix_cons_inj c).2 (prefix_of_splitOnP_eq_cons hu)
        refine ⟨fun d hd => ?_, hfront.isInfix⟩
        rcases List.mem_cons.1 hd with rfl | hd
        · simpa using hc
        · exact hsep d hd
      · obtain ⟨hsep, hpart⟩ := ih (hu ▸ List.mem_cons_of_mem _ h)
        exact ⟨hsep, hpart.trans (List.suffix_cons c cs).isInfix⟩

/-- Words are not empty, hold no blanks and stand in the text. -/
theorem of_mem_words {w : List Char} (h : w ∈ words cs) : w ≠ [] ∧ Solid w ∧ w <:+: cs := by
  rw [words, List.mem_filter] at h
  exact ⟨by simpa using h.2, of_mem_splitOnP h.1⟩

/-! ### Characters of words -/

/-- The characters that are blanks, by number. -/
def blankNumbers : List Nat :=
  [9, 10, 11, 12, 13, 28, 29, 30, 31, 32, 0x85, 0xA0, 0x1680, 0x2000, 0x2001, 0x2002, 0x2003,
    0x2004, 0x2005, 0x2006, 0x2007, 0x2008, 0x2009, 0x200A, 0x2028, 0x2029, 0x202F, 0x205F, 0x3000]

theorem toNat_mem_blankNumbers {c : Char} (h : isBlank c = true) : c.toNat ∈ blankNumbers := by
  simp only [isBlank, Bool.or_eq_true, Bool.and_eq_true, decide_eq_true_eq, beq_iff_eq] at h
  simp only [blankNumbers, List.mem_cons, List.not_mem_nil, or_false]
  omega

/-- Of the first characters only letters, digits and the underscore belong to words. -/
theorem isWordChar_of_lt {c : Char} (h : c.toNat < 128) :
    isWordChar c = (c.isAlphanum || c == '_') := by
  have hranges : ∀ r ∈ letterNumberRanges, 128 ≤ r.1 := by decide +kernel
  have hout : inRanges letterNumberRanges c.toNat = false := by
    rw [Bool.eq_false_iff, ne_eq, inRanges_iff]
    rintro ⟨r, hr, hlow, -⟩
    exact absurd (hranges r hr) (by omega)
  rw [isWordChar, hout, Bool.or_false]

/-- The other ones of the first characters are in no word. -/
theorem isWordChar_eq_false {c : Char} (h : c.toNat < 128 ∧ c.isAlphanum = false ∧ c ≠ '_') :
    isWordChar c = false := by
  obtain ⟨hlt, halnum, hne⟩ := h
  rw [isWordChar_of_lt hlt, halnum, beq_false_of_ne hne, Bool.or_false]

/-- No character of a word is a blank. -/
theorem isBlank_of_isWordChar {c : Char} (h : isWordChar c = true) : isBlank c = false := by
  by_contra hb
  rw [Bool.not_eq_false] at hb
  have hall : ∀ n ∈ blankNumbers, isWordChar (Char.ofNat n) = false := by decide +kernel
  have := hall _ (toNat_mem_blankNumbers hb)
  rw [Char.ofNat_toNat, h] at this
  exact Bool.false_ne_true this.symm

/-- All characters of the text are characters of words. -/
def Wordy (cs : List Char) : Prop := ∀ c ∈ cs, isWordChar c = true

instance : Decidable (Wordy cs) := inferInstanceAs (Decidable (∀ c ∈ cs, isWordChar c = true))

theorem Wordy.solid (h : Wordy cs) : Solid cs := fun c hc => isBlank_of_isWordChar (h c hc)

theorem Wordy.not_mem (h : Wordy cs) {c : Char} (hc : isWordChar c = false) : c ∉ cs := by
  intro hmem
  rw [h c hmem] at hc
  exact Bool.false_ne_true hc.symm

@[simp] theorem wordy_nil : Wordy [] := by simp [Wordy]

@[simp] theorem wordy_cons {c : Char} : Wordy (c :: cs) ↔ isWordChar c = true ∧ Wordy cs := by
  simp [Wordy]

@[simp] theorem wordy_append : Wordy (cs ++ ds) ↔ Wordy cs ∧ Wordy ds := by
  simp only [Wordy, List.mem_append]
  constructor
  · intro h
    exact ⟨fun c hc => h c (Or.inl hc), fun c hc => h c (Or.inr hc)⟩
  · rintro ⟨hcs, hds⟩ c (hc | hc)
    · exact hcs c hc
    · exact hds c hc

theorem wordy_flatMap {α : Type} {l : List α} {f : α → List Char}
    (h : ∀ a ∈ l, Wordy (f a)) : Wordy (l.flatMap f) := by
  intro c hc
  obtain ⟨a, ha, hca⟩ := List.mem_flatMap.1 hc
  exact h a ha c hca

end ContentSchema.Text
