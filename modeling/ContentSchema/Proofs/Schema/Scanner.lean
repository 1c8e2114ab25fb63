import ContentSchema.Proofs.Schema.Shape

/-!
# Finding attributes again

An attribute that is one token, a word behind `@` with at most one group in parentheses behind it
(`Attribute.IsToken`), is found as it was written.  The invariant of the scan is that reading a
balanced text inside a group leaves the depth as it was (`splitFrom_balanced`).  So a line of tokens
is cut into these tokens (`Attribute.split_append_tokens`).
-/

namespace ContentSchema

open Text

namespace Attribute

/-- Each parenthesis of the text has its partner. -/
inductive Balanced : List Char → Prop where
  /-- The empty text. -/
  | nil : Balanced []
  /-- A character that is no parenthesis in front. -/
  | char {c : Char} {cs : List Char} (hopen : c ≠ '(') (hclose : c ≠ ')') (h : Balanced cs) :
    Balanced (c :: cs)
  /-- A group in front. -/
  | group {cs ds : List Char} (hcs : Balanced cs) (hds : Balanced ds) :
    Balanced ('(' :: (cs ++ ')' :: ds))

/-- The character may stand in the word of an attribute. -/
def IsNameChar (c : Char) : Prop := isBlank c = false ∧ c ≠ '(' ∧ c ≠ ')'

instance (c : Char) : Decidable (IsNameChar c) :=
  inferInstanceAs (Decidable (isBlank c = false ∧ c ≠ '(' ∧ c ≠ ')'))

/-- The attribute is one token: `@`, a word, and at most one group in parentheses. -/
def IsToken (attr : List Char) : Prop :=
  ∃ word group, attr = '@' :: (word ++ group) ∧ (∀ c ∈ word, IsNameChar c) ∧
    (group = [] ∨ ∃ inner, group = '(' :: (inner ++ [')']) ∧ Balanced inner)

variable {cs ds rest current : List Char}

theorem balanced_of_plain (h : ∀ c ∈ cs, c ≠ '(' ∧ c ≠ ')') : Balanced cs := by
  induction cs with
  | nil => exact .nil
  | cons c cs ih =>
    obtain ⟨hopen, hclose⟩ := h c List.mem_cons_self
    exact .char hopen hclose (ih fun d hd => h d (List.mem_cons_of_mem _ hd))

theorem Balanced.append (hcs : Balanced cs) (hds : Balanced ds) : Balanced (cs ++ ds) := by
  induction hcs with
  | nil => exact hds
  | char hopen hclose _ ih => exact .char hopen hclose ih
  | @group inner rest hinner _ _ ih =>
    rw [List.cons_append, List.append_assoc, List.cons_append]
    exact .group hinner ih

/-! ### The scan -/

/-- Outside of attributes only `@` matters. -/
theorem splitFrom_outside_append (h : '@' ∉ cs) :
    splitFrom .outside (cs ++ rest) = splitFrom .outside rest := by
  induction cs with
  | nil => rfl
  | cons c cs ih =>
    have hc : c ≠ '@' := fun hc => h (hc ▸ List.mem_cons_self)
    rw [List.cons_append, splitFrom, if_neg hc]
    exact ih fun hmem => h (List.mem_cons_of_mem _ hmem)

/-- A balanced text inside a group leaves the depth as it was. -/
theorem splitFrom_balanced (h : Balanced cs) {depth : Int} (hdepth : 1 ≤ depth)
    (current rest : List Char) :
    splitFrom (.inside depth current) (cs ++ rest) =
      splitFrom (.inside depth (cs.reverse ++ current)) rest := by
  induction h generalizing depth current rest with
  | nil => rfl
  | @char c cs hopen hclose _ ih =>
    have hzero : (isBlank c && depth == 0) = false := by
      rw [Bool.and_eq_false_iff]
      right
      rw [beq_eq_false_iff_ne]
      omega
    rw [List.cons_append, splitFrom, if_neg hopen, if_neg hclose, hzero, if_neg Bool.false_ne_true,
      ih hdepth]
    simp
  | @group cs ds _ _ ihcs ihds =>
    -- inside of the group the depth is one more, so that its end does not end the attribute
    have hone : ¬ depth + 1 = 1 := by omega
    have hback : depth + 1 - 1 = depth := by omega
    rw [List.cons_append, splitFrom, if_pos rfl, List.append_assoc, List.cons_append,
      ihcs (by omega), splitFrom, if_neg (by decide), if_pos rfl, if_neg hone, hback, ihds hdepth]
    simp

/-- The word of an attribute is taken as a whole. -/
theorem splitFrom_word {word : List Char} (h : ∀ c ∈ word, IsNameChar c) (depth : Int)
    (current rest : List Char) :
    splitFrom (.inside depth current) (word ++ rest) =
      splitFrom (.inside depth (word.reverse ++ current)) rest := by
  induction word generalizing current with
  | nil => rfl
  | cons c word ih =>
    obtain ⟨hblank, hopen, hclose⟩ := h c List.mem_cons_self
    rw [List.cons_append, splitFrom, if_neg hopen, if_neg hclose, hblank, Bool.false_and,
      if_neg Bool.false_ne_true, ih fun d hd => h d (List.mem_cons_of_mem _ hd)]
    simp

theorem flush_word {word : List Char} (h : ∀ c ∈ word, IsNameChar c) (depth : Int) :
    (Scan.inside depth (word.reverse ++ ['@'])).flush = ['@' :: word] := by
  have hsolid : Solid ('@' :: word) := by
    intro c hc
    rcases List.mem_cons.1 hc with rfl | hc
    · decide
    · exact (h c hc).1
  have hrev : (word.reverse ++ ['@']).reverse = '@' :: word := by simp
  rw [Scan.flush, hrev, strip_of_solid hsolid]
  rfl

/-- A token is found as it was written if it stands at the end or in front of a space. -/
theorem splitFrom_token {attr : List Char} (h : IsToken attr)
    (hrest : rest = [] ∨ ∃ r, rest = ' ' :: r) :
    splitFrom .outside (attr ++ rest) = attr :: splitFrom .outside rest := by
  obtain ⟨word, group, rfl, hword, hgroup⟩ := h
  rw [List.cons_append, splitFrom, if_pos rfl, List.append_assoc, splitFrom_word hword]
  -- without a group the word ends the token, with one its closing parenthesis does
  rcases hgroup with rfl | ⟨inner, rfl, hinner⟩
  · rw [List.append_nil, List.nil_append]
    rcases hrest with rfl | ⟨r, rfl⟩
    · rw [splitFrom, flush_word hword]
      rfl
    · have hspace : splitFrom .outside (' ' :: r) = splitFrom .outside r :=
        @splitFrom_outside_append [' '] r (by decide)
      rw [hspace, splitFrom, if_neg (by decide), if_neg (by decide), if_pos (by decide),
        flush_word hword]
      rfl
  · rw [List.cons_append, splitFrom, if_pos rfl, Int.zero_add, List.append_assoc,
      splitFrom_balanced hinner (by decide), List.singleton_append, splitFrom, if_neg (by decide),
      if_pos rfl, if_pos rfl]
    simp

/-- Tokens with a space in front of each are found as they were written. -/
theorem splitFrom_tokens {attrs : List (List Char)} (h : ∀ a ∈ attrs, IsToken a) :
    splitFrom .outside (attrs.flatMap ([' '] ++ ·)) = attrs := by
  induction attrs with
  | nil => rfl
  | cons a attrs ih =>
    have hspace : ∀ cs, splitFrom .outside ([' '] ++ cs) = splitFrom .outside cs := fun cs =>
      splitFrom_outside_append (by decide)
    have hrest : attrs.flatMap ([' '] ++ ·) = [] ∨
        ∃ r, attrs.flatMap ([' '] ++ ·) = ' ' :: r := by
      cases attrs with
      | nil => exact Or.inl rfl
      | cons b attrs => exact Or.inr ⟨_, rfl⟩
    rw [List.flatMap_cons, List.append_assoc, hspace,
      splitFrom_token (h a List.mem_cons_self) hrest,
      ih fun b hb => h b (List.mem_cons_of_mem _ hb)]

/-- The tokens of a line are found as they were written, whatever text without `@` stands in front of
them. -/
theorem split_append_tokens {head : List Char} {tokens : List (List Char)} (hhead : '@' ∉ head)
    (h : ∀ a ∈ tokens, IsToken a) : split (head ++ ' ' :: joinWith [' '] tokens) = tokens := by
  rw [split, splitFrom_outside_append hhead]
  cases tokens with
  | nil => rfl
  | cons a tokens =>
    have hspaced : ' ' :: joinWith [' '] (a :: tokens) = (a :: tokens).flatMap ([' '] ++ ·) := by
      rw [joinWith_cons, List.flatMap_cons]
      rfl
    rw [hspaced, splitFrom_tokens h]

/-- Blanks, quotes, groups and `@` may stand in the group of a token, and `@` in its word. -/
theorem split_append_wideTokens :
    '@' ∉ "size String (in cm)".toList ∧
    (∀ a ∈ ["@id".toList, "@default(\"5 (@ 6) wide\")".toList, "@@db".toList], IsToken a) ∧
    split "size String (in cm) @id @default(\"5 (@ 6) wide\") @@db".toList =
      ["@id".toList, "@default(\"5 (@ 6) wide\")".toList, "@@db".toList] := by
  have hhead : '@' ∉ "size String (in cm)".toList := by decide
  have hinner : Balanced "\"5 (@ 6) wide\"".toList :=
    (@balanced_of_plain "\"5 ".toList (by decide)).append
      (.group (@balanced_of_plain "@ 6".toList (by decide))
        (@balanced_of_plain " wide\"".toList (by decide)))
  have htokens : ∀ a ∈ ["@id".toList, "@default(\"5 (@ 6) wide\")".toList, "@@db".toList],
      IsToken a := by
    simp only [List.forall_mem_cons, List.not_mem_nil, false_imp_iff, implies_true, and_true]
    exact ⟨⟨"id".toList, [], rfl, by decide, Or.inl rfl⟩,
      ⟨"default".toList, _, rfl, by decide, Or.inr ⟨_, rfl, hinner⟩⟩,
      ⟨"@db".toList, [], rfl, by decide, Or.inl rfl⟩⟩
  exact ⟨hhead, htokens, split_append_tokens hhead htokens⟩

/-! ### Blanks at the end -/

theorem strip_append_blank {c : Char} (hc : isBlank c = true) (cs : List Char) :
    strip (cs ++ [c]) = strip cs := by
  by_cases hall : ∀ d ∈ cs, isBlank d = true
  · have hall' : ∀ d ∈ cs ++ [c], isBlank d = true := by
      intro d hd
      rcases List.mem_append.1 hd with hd | hd
      · exact hall d hd
      · rw [List.mem_singleton.1 hd]
        exact hc
    rw [strip, strip, List.dropWhile_eq_nil_iff.2 hall', List.dropWhile_eq_nil_iff.2 hall]
  · have hdrop : (cs ++ [c]).dropWhile isBlank = cs.dropWhile isBlank ++ [c] := by
      rw [List.dropWhile_append, if_neg]
      intro hempty
      rw [List.isEmpty_iff, List.dropWhile_eq_nil_iff] at hempty
      exact hall hempty
    rw [strip, hdrop]
    exact List.rdropWhile_concat_pos _ _ _ hc

theorem splitFrom_blanks {bs : List Char} (h : ∀ b ∈ bs, isBlank b = true) (scan : Scan) :
    splitFrom scan bs = scan.flush := by
  induction bs generalizing scan with
  | nil => rw [splitFrom]
  | cons b bs ih =>
    have hb := h b List.mem_cons_self
    have hbs := ih fun b' hb' => h b' (List.mem_cons_of_mem _ hb')
    have hplain : b ≠ '@' ∧ b ≠ '(' ∧ b ≠ ')' := by
      refine ⟨?_, ?_, ?_⟩ <;>
      · rintro rfl
        revert hb
        decide
    cases scan with
    | outside =>
      rw [splitFrom, if_neg hplain.1, hbs]
    | inside depth current =>
      rw [splitFrom, if_neg hplain.2.1, if_neg hplain.2.2]
      -- a blank ends the attribute, or it is inside of a group and stripped at the end
      split
      · rw [hbs, Scan.flush, List.append_nil]
      · rw [hbs, Scan.flush, Scan.flush, List.reverse_cons, strip_append_blank hb]

theorem splitFrom_append_blanks {bs : List Char} (h : ∀ b ∈ bs, isBlank b = true) (scan : Scan)
    (cs : List Char) : splitFrom scan (cs ++ bs) = splitFrom scan cs := by
  induction cs generalizing scan with
  | nil => rw [List.nil_append, splitFrom_blanks h, splitFrom]
  | cons c cs ih =>
    rw [List.cons_append]
    cases scan with
    | outside =>
      rw [splitFrom, splitFrom, ih]
    | inside depth current =>
      rw [splitFrom, splitFrom]
      simp only [ih]

/-- Blanks at the end of a line do not matter to its attributes. -/
theorem splitFrom_stripEnd (scan : Scan) (cs : List Char) :
    splitFrom scan (stripEnd cs) = splitFrom scan cs := by
  obtain ⟨bs, hcs, hbs⟩ := exists_eq_stripEnd_append cs
  conv_rhs => rw [hcs]
  exact (splitFrom_append_blanks hbs scan _).symm

end Attribute

/-- The attributes of a column are looked for in what stands behind its type. -/
theorem Column.split_print_eq {c : Column} (h : c.Legible) (hname : '@' ∉ c.name.toList)
    (htype : '@' ∉ c.type.toList) (nameWidth typeWidth : Nat) :
    Attribute.split (c.print nameWidth typeWidth) =
      Attribute.split (c.modifiers.flatMap ([' '] ++ ·)) := by
  have hspaces : ∀ n, '@' ∉ List.replicate n ' ' := by
    intro n hmem
    exact absurd (List.eq_of_mem_replicate hmem) (by decide)
  have hsignature : '@' ∉ c.typeSignature.toList := by
    rw [typeSignature]
    split
    · simpa [String.toList_append] using htype
    split
    · simpa [String.toList_append] using htype
    · exact htype
  have hhead : c.print nameWidth typeWidth = c.name.toList ++
      (List.replicate (nameWidth - c.name.toList.length) ' ' ++ ' ' :: c.typeSignature.toList) ++
        c.lineTail typeWidth := by
    rw [print_eq h, lineRest]
    simp
  have hfree : '@' ∉ c.name.toList ++
      (List.replicate (nameWidth - c.name.toList.length) ' ' ++ ' ' :: c.typeSignature.toList) := by
    simp [hname, hspaces, hsignature]
  rw [hhead, Attribute.split, Attribute.splitFrom_outside_append hfree, lineTail,
    Attribute.splitFrom_stripEnd, Attribute.splitFrom_outside_append (hspaces _), Attribute.split]

/-- The attributes found in the line of a column are those that were written. -/
theorem Column.split_print {c : Column} (h : c.Legible) (hname : '@' ∉ c.name.toList)
    (htype : '@' ∉ c.type.toList) (htokens : ∀ a ∈ c.modifiers, Attribute.IsToken a)
    (nameWidth typeWidth : Nat) :
    Attribute.split (c.print nameWidth typeWidth) = c.modifiers := by
  rw [split_print_eq h hname htype, Attribute.split, Attribute.splitFrom_tokens htokens]

end ContentSchema
