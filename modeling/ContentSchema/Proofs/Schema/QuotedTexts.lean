import ContentSchema.Proofs.Schema.Regular
import ContentSchema.Proofs.Schema.RoundTrip
import ContentSchema.Proofs.Schema.ScanSteps
import ContentSchema.Proofs.Schema.Spelling
import ContentSchema.Proofs.Text.Escapes

/-!
# Quoted texts in the line of a column

A column may show three texts in quotes: its default, the name of its relation and its physical
name.  The reader does not undo the escapes of the first two, and it does not see quotes where it
looks for the end of an attribute.  So all three are read as they were written exactly if no
character of the first two needs an escape, the third holds no quote, and no text closes the group
that it stands in or leaves one open that others follow (`Column.texts_parse?_print_iff`).
-/

namespace ContentSchema

open Text

/-! ### Places of marks -/

section Marks

variable {α β γ cs pre post : List Char} {m : Char}

/-- A mark stands behind a text that it does not occur in. -/
theorem exists_of_append_mark (hα : m ∉ α) (h : pre ++ m :: post = α ++ γ) :
    ∃ γ', pre = α ++ γ' ∧ γ = γ' ++ m :: post := by
  rcases List.append_eq_append_iff.1 h with ⟨as, rfl, hrest⟩ | ⟨bs, rfl, hγ⟩
  · cases as with
    | nil => exact ⟨[], by simp, hrest.symm⟩
    | cons a as =>
      obtain ⟨rfl, -⟩ := List.cons.inj hrest
      exact absurd (List.mem_append_right pre List.mem_cons_self) hα
  · exact ⟨bs, rfl, hγ⟩

/-- A mark is the first one in a text, or stands behind it. -/
theorem mark_cases (hα : m ∉ α) (h : pre ++ m :: post = α ++ m :: γ) :
    (pre = α ∧ post = γ) ∨ ∃ γ', pre = α ++ m :: γ' ∧ γ = γ' ++ m :: post := by
  obtain ⟨γ', rfl, hγ⟩ := exists_of_append_mark hα h
  cases γ' with
  | nil => exact Or.inl ⟨List.append_nil _, (List.cons.inj hγ).2.symm⟩
  | cons c γ' =>
    obtain ⟨rfl, hrest⟩ := List.cons.inj hγ
    exact Or.inr ⟨γ', rfl, hrest⟩

/-- Only one mark is the last one in a text. -/
theorem eq_of_last_mark (hpost : m ∉ post) (hγ : m ∉ γ) (h : pre ++ m :: post = α ++ m :: γ) :
    pre = α ∧ post = γ := by
  have hreverse : post.reverse ++ m :: pre.reverse = γ.reverse ++ m :: α.reverse := by
    simpa using congrArg List.reverse h
  rcases mark_cases (by simpa using hγ) hreverse with ⟨hpost', hpre⟩ | ⟨γ', hpost', -⟩
  · exact ⟨List.reverse_injective hpre, List.reverse_injective hpost'⟩
  · exact absurd (List.mem_reverse.1 (hpost' ▸ List.mem_append_right _ List.mem_cons_self)) hpost

/-- A quote that has no backslash in front does not stand in an escaped text. -/
theorem quote_cases_of_escaped (hpre : pre.getLast? ≠ some '\\')
    (h : pre ++ '"' :: post = escaped cs ++ '"' :: γ) :
    (pre = escaped cs ∧ post = γ) ∨
      ∃ γ', pre = escaped cs ++ '"' :: γ' ∧ γ = γ' ++ '"' :: post := by
  rcases List.append_eq_append_iff.1 h with ⟨as, hescaped, hrest⟩ | ⟨bs, rfl, hrest⟩
  · cases as with
    | nil =>
      rw [List.append_nil] at hescaped
      exact Or.inl ⟨hescaped.symm, (List.cons.inj hrest).2⟩
    | cons a as =>
      obtain ⟨rfl, -⟩ := List.cons.inj hrest
      obtain ⟨p, rfl⟩ := exists_of_escaped_eq hescaped
      exact absurd List.getLast?_concat hpre
  · cases bs with
    | nil => exact Or.inl ⟨List.append_nil _, (List.cons.inj hrest).2.symm⟩
    | cons b bs =>
      obtain ⟨rfl, hγ⟩ := List.cons.inj hrest
      exact Or.inr ⟨bs, rfl, hγ⟩

theorem quoted_append (cs γ : List Char) :
    quoted cs ++ γ = '"' :: (escaped cs ++ '"' :: γ) := by
  simp [quoted, escaped]

theorem quoted_of_escaped (h : escaped cs = cs) : quoted cs = '"' :: (cs ++ ['"']) := by
  rw [← List.append_nil (quoted cs), quoted_append, h]

theorem count_quoted (hm : m ∈ ['@', '(', ')']) (cs : List Char) :
    (quoted cs).count m = cs.count m := by
  have hquote : ∀ m ∈ ['@', '(', ')'], '"' ≠ m := by decide
  rw [← List.append_nil (quoted cs), quoted_append]
  simp [hquote m hm, count_escaped hm]

/-- A quote without a backslash in front, in a text with a quoted one in it, opens or closes that
one or stands behind it. -/
theorem quote_cases (hα : '"' ∉ α) (hpre : pre.getLast? ≠ some '\\')
    (h : pre ++ '"' :: post = α ++ (quoted cs ++ β)) :
    (pre = α ∧ post = escaped cs ++ '"' :: β) ∨ (pre = α ++ '"' :: escaped cs ∧ post = β) ∨
      ∃ β', pre = α ++ (quoted cs ++ β') ∧ β = β' ++ '"' :: post := by
  rw [quoted_append] at h
  rcases mark_cases hα h with hopen | ⟨γ, rfl, hγ⟩
  · exact Or.inl hopen
  have hlast : γ.getLast? ≠ some '\\' := by
    intro hlast
    refine hpre ?_
    rw [List.getLast?_append_cons, List.getLast?_cons, hlast]
    rfl
  rcases quote_cases_of_escaped hlast hγ.symm with ⟨rfl, rfl⟩ | ⟨β', rfl, hβ⟩
  · exact Or.inr (Or.inl ⟨rfl, rfl⟩)
  · exact Or.inr (Or.inr ⟨β', by rw [quoted_append], hβ⟩)

end Marks

namespace Attribute

variable {cs d n m tail attr pre post z : List Char}

/-! ### Groups -/

theorem Contained.of_quote (h : Contained ('"' :: cs)) : Contained cs := by
  intro p hp
  have hle := h ('"' :: p) ((List.prefix_cons_inj _).2 hp)
  simpa using hle

theorem Contained.quotes (h : Contained cs) : Contained ('"' :: (cs ++ ['"'])) := by
  have hquote : Contained ['"'] := contained_of_not_mem (by decide)
  exact hquote.append (h.append hquote)

/-- The last group of a line is found even if it is not closed. -/
theorem split_grouped (word : List Char) {inner : List Char} (hword : ∀ c ∈ word, IsNameChar c)
    (hinner : Contained inner) : split (grouped word inner) = [grouped word inner] := by
  have hrun := Scan.splitFrom_append .outside (grouped word inner) []
  rw [List.append_nil, Scan.run_grouped hword hinner] at hrun
  rw [split, hrun]
  split_ifs
  · rfl
  · have hstrip : strip (grouped word inner) = grouped word inner := by
      have hstart := @strip_append [] '@' (by simp) (by decide) (word ++ '(' :: (inner ++ [')']))
      have hend := @stripEnd_append_solid ')' (by decide) (word ++ '(' :: inner) []
      have hnil : stripEnd [] = [] := rfl
      simp only [List.append_assoc, List.cons_append, hnil] at hend
      rw [List.nil_append, hend] at hstart
      exact hstart
    rw [List.nil_append, splitFrom, Scan.flush, List.reverse_reverse, hstrip]
    rfl

/-- If the scan leaves a group, the parentheses in it are paired. -/
theorem count_eq_of_run {word inner : List Char} (hword : ∀ c ∈ word, IsNameChar c)
    (hinner : Contained inner)
    (h : (Scan.outside.run (grouped word inner ++ [' '])).2 = .outside) :
    inner.count '(' = inner.count ')' := by
  by_contra hne
  have hle := hinner inner List.prefix_rfl
  rw [Scan.run_append, Scan.run_grouped hword hinner, if_neg hne] at h
  -- the blank behind the group stands in it
  dsimp only [Scan.run, Scan.step] at h
  rw [if_neg (by decide), if_neg (by decide), if_neg] at h
  · cases h
  · simp only [Bool.and_eq_true, beq_iff_eq]
    omega

/-- What stands behind a quote is not closed before the next one, if the group is. -/
theorem Found.not_closes {head x y γ : List Char} (h : Found (head ++ '"' :: (x ++ '"' :: y)))
    (hhead : head.count '(' = head.count ')' + 1)
    (htail : ∀ c ∈ ['"', '(', ')'], c ∉ tail) : x ++ '"' :: post ≠ tail ++ ')' :: γ := by
  intro hx
  have hquote : '"' ∉ tail ++ [')'] := by simp [htail]
  have hsplit : x ++ '"' :: post = (tail ++ [')']) ++ γ := by simpa using hx
  obtain ⟨x', rfl, -⟩ := exists_of_append_mark hquote hsplit
  have hclosed : Closed (head ++ '"' :: (tail ++ [')'])) := by
    have hopen : tail.count '(' = 0 := List.count_eq_zero.2 (htail _ (by decide))
    have hclose : tail.count ')' = 0 := List.count_eq_zero.2 (htail _ (by decide))
    have hlast : head ++ '"' :: (tail ++ [')']) = (head ++ '"' :: tail) ++ [')'] := by simp
    refine ⟨by rw [hlast, List.getLast?_concat], ?_⟩
    simp [hopen, hclose, hhead]
  have hprefix : head ++ '"' :: (tail ++ [')']) <+:
      head ++ '"' :: ((tail ++ [')'] ++ x') ++ '"' :: y) :=
    ⟨x' ++ '"' :: y, by simp⟩
  have hlength := congrArg List.length (h.unclosed _ hprefix hclosed)
  simp at hlength

/-! ### Attributes with a text in quotes -/

/-- The attribute of a default that is a text. -/
def defaultOf (d : List Char) : List Char := grouped "default".toList (quoted d)

/-- The attribute of a relation with a name, and what follows the name. -/
def relationOf (n tail : List Char) : List Char := grouped "relation".toList (quoted n ++ tail)

/-- The attribute of a physical name. -/
def mapOf (m : List Char) : List Char := grouped "map".toList ('"' :: (m ++ ['"']))

/-- An attribute that begins with a text in quotes begins where a default or a relation was
written, or behind them. -/
theorem quote_place {k x y : List Char} (h : Found ('@' :: (k ++ '"' :: (x ++ '"' :: y))))
    (hk : ∀ c ∈ ['@', '"', ')', '\\'], c ∉ k) (hopen : k.count '(' = 1)
    (htail : ∀ c ∈ ['"', '(', ')'], c ∉ tail)
    (hline : pre ++ ('@' :: (k ++ '"' :: (x ++ '"' :: y))) ++ post =
      defaultOf d ++ ' ' :: (relationOf n tail ++ ' ' :: z)) :
    k = "default(".toList ∨
      (k = "relation(".toList ∧ pre = defaultOf d ++ [' '] ∧
        x ++ '"' :: (y ++ post) = escaped n ++ '"' :: (tail ++ ')' :: ' ' :: z)) ∨
      ∃ z', pre ++ '@' :: k = defaultOf d ++ ' ' :: (relationOf n tail ++ ' ' :: z') ∧
        z = z' ++ '"' :: (x ++ '"' :: (y ++ post)) := by
  have hclose : k.count ')' = 0 := List.count_eq_zero.2 (hk _ (by decide))
  have hhead : ('@' :: k).count '(' = ('@' :: k).count ')' + 1 := by simp [hopen, hclose]
  have hfound : Found ('@' :: k ++ '"' :: (x ++ '"' :: y)) := h
  -- no quote of the attribute's has a backslash in front
  have hlast : (pre ++ '@' :: k).getLast? ≠ some '\\' := by
    intro hlast
    rw [List.getLast?_append_cons] at hlast
    rcases List.mem_cons.1 (List.mem_of_getLast? hlast) with hat | hmem
    · cases hat
    · exact hk _ (by decide) hmem
  have hdefault : (pre ++ '@' :: k) ++ '"' :: (x ++ '"' :: (y ++ post)) =
      "@default(".toList ++
        (quoted d ++ ')' :: ' ' :: (relationOf n tail ++ ' ' :: z)) := by
    simpa [defaultOf, grouped] using hline
  rcases quote_cases (by decide) hlast hdefault with ⟨hplace, -⟩ | ⟨-, hrest⟩ | ⟨β, hplace, hβ⟩
  · have hone : pre ++ '@' :: k = [] ++ '@' :: "default(".toList := hplace
    rcases mark_cases List.not_mem_nil hone with ⟨-, rfl⟩ | ⟨γ, -, hγ⟩
    · exact Or.inl rfl
    · have hmem : '@' ∈ "default(".toList := hγ ▸ List.mem_append_right _ List.mem_cons_self
      exact absurd hmem (by decide)
  · exact absurd hrest (hfound.not_closes hhead fun _ _ => List.not_mem_nil)
  have hlast' : β.getLast? ≠ some '\\' := by
    intro hβlast
    refine hlast ?_
    rw [hplace, List.getLast?_append, List.getLast?_append, hβlast]
    rfl
  have hrelation : β ++ '"' :: (x ++ '"' :: (y ++ post)) =
      ") @relation(".toList ++ (quoted n ++ (tail ++ ')' :: ' ' :: z)) := by
    rw [← hβ]
    simp [relationOf, grouped]
  rcases quote_cases (by decide) hlast' hrelation with ⟨rfl, hrest⟩ | ⟨-, hrest⟩ | ⟨γ, rfl, hγ⟩
  · have hone : pre ++ '@' :: k = (defaultOf d ++ [' ']) ++ '@' :: "relation(".toList := by
      rw [hplace]
      simp [defaultOf, grouped]
    obtain ⟨rfl, rfl⟩ := eq_of_last_mark (hk _ (by decide)) (by decide) hone
    exact Or.inr (Or.inl ⟨rfl, rfl, hrest⟩)
  · exact absurd hrest (hfound.not_closes hhead htail)
  · have hquote : '"' ∉ tail ++ [')', ' '] := by simp [htail]
    have hsplit : γ ++ '"' :: (x ++ '"' :: (y ++ post)) = (tail ++ [')', ' ']) ++ z := by
      rw [← hγ]
      simp
    obtain ⟨z', rfl, hz⟩ := exists_of_append_mark hquote hsplit
    refine Or.inr (Or.inr ⟨z', ?_, hz⟩)
    rw [hplace]
    simp [defaultOf, relationOf, grouped]

/-- The text stands for itself between quotes, and leaves a group of parentheses as it is. -/
def Quotable (cs : List Char) : Prop :=
  (∀ c ∈ cs, 32 ≤ c.toNat ∧ c ≠ '"' ∧ c ≠ '\\') ∧ Contained cs ∧ cs.count '(' = cs.count ')'

instance : Decidable (Quotable cs) := inferInstanceAs (Decidable (_ ∧ _ ∧ _))

theorem Quotable.quoted_eq (h : Quotable cs) : quoted cs = '"' :: (cs ++ ['"']) :=
  quoted_of_escaped (escaped_eq_self_iff.2 h.1)

/-- A group that begins with a quotable text is an attribute, and the scan is behind it. -/
theorem Quotable.split_grouped (h : Quotable cs) (word : List Char)
    (hword : ∀ c ∈ word, IsNameChar c) (htail : ∀ c ∈ ['"', '(', ')'], c ∉ tail) :
    (Scan.outside.run (grouped word (quoted cs ++ tail) ++ [' '])).2 = .outside ∧
      split (grouped word (quoted cs ++ tail) ++ [' ']) = [grouped word (quoted cs ++ tail)] := by
  have hopen : tail.count '(' = 0 := List.count_eq_zero.2 (htail _ (by decide))
  have hclose : tail.count ')' = 0 := List.count_eq_zero.2 (htail _ (by decide))
  have hinner : Contained (quoted cs ++ tail) := by
    rw [h.quoted_eq]
    exact h.2.1.quotes.append (contained_of_not_mem (htail _ (by decide)))
  have hrun := Scan.run_grouped hword hinner
  rw [if_pos (by rw [h.quoted_eq]; simp [hopen, hclose, h.2.2])] at hrun
  constructor
  · rw [Scan.run_append, hrun]
    rfl
  · rw [Scan.split_append (by rw [hrun]), Attribute.split_grouped word hword hinner]
    rfl

/-- A text without escapes that closes no group is quotable if the scan leaves the group that it
begins. -/
theorem quotable_of_run (hescaped : escaped cs = cs) (hcs : Contained cs) (word : List Char)
    (hword : ∀ c ∈ word, IsNameChar c) (htail : ∀ c ∈ ['"', '(', ')'], c ∉ tail)
    (hrun : (Scan.outside.run (grouped word (quoted cs ++ tail) ++ [' '])).2 = .outside) :
    Quotable cs := by
  have hquoted := quoted_of_escaped hescaped
  have hinner : Contained (quoted cs ++ tail) := by
    rw [hquoted]
    exact hcs.quotes.append (contained_of_not_mem (htail _ (by decide)))
  have hopen : tail.count '(' = 0 := List.count_eq_zero.2 (htail _ (by decide))
  have hclose : tail.count ')' = 0 := List.count_eq_zero.2 (htail _ (by decide))
  have hcounts := count_eq_of_run hword hinner hrun
  rw [hquoted] at hcounts
  exact ⟨escaped_eq_self_iff.1 hescaped, hcs, by simpa [hopen, hclose] using hcounts⟩

/-- The line up to its third attribute. -/
def quotedPart (d n tail : List Char) : List Char :=
  (defaultOf d ++ [' ']) ++ (relationOf n tail ++ [' '])

/-- The attributes of the line are found if the first two texts are quotable and the third closes no
group. -/
theorem split_quotedPart_append (hd : Quotable d) (hn : Quotable n) (hm : Contained m)
    (htail : ∀ c ∈ ['"', '(', ')'], c ∉ tail) :
    split (quotedPart d n tail ++ mapOf m) = [defaultOf d, relationOf n tail, mapOf m] := by
  have hdefault := hd.split_grouped "default".toList (by decide) fun _ _ => List.not_mem_nil
  have hrelation := hn.split_grouped "relation".toList (by decide) htail
  rw [List.append_nil] at hdefault
  have hmap := split_grouped "map".toList (by decide) hm.quotes
  rw [quotedPart, defaultOf, relationOf, mapOf, List.append_assoc,
    Scan.split_append hdefault.1, Scan.split_append hrelation.1, hdefault.2, hrelation.2, hmap]
  rfl

/-! ### Where the texts are read from -/

section Places

variable (htail : ∀ c ∈ ['"', '(', ')'], c ∉ tail)

include htail

/-- A physical name is read only where it was written. -/
theorem map_of_mem_split (hattr : attr ∈ split (quotedPart d n tail ++ mapOf m))
    (hname : mapNameAt? "@map(" attr = some (String.ofList m)) :
    '"' ∉ m ∧ Contained m ∧ (Scan.outside.run (quotedPart d n tail)).2 = .outside := by
  obtain ⟨hquote, rest, hspelled⟩ := mapNameAt?_eq_some hname
  rw [String.toList_ofList (l := m)] at hquote hspelled
  have hspelled' : attr = '@' :: ("map(".toList ++ '"' :: (m ++ '"' :: (')' :: rest))) := hspelled
  subst hspelled'
  obtain ⟨pre, post, hline, hrun, hfound⟩ := exists_of_mem_split hattr
  have hline' : pre ++ ('@' :: ("map(".toList ++ '"' :: (m ++ '"' :: (')' :: rest)))) ++ post =
      defaultOf d ++ ' ' :: (relationOf n tail ++ ' ' :: mapOf m) := by
    rw [← hline]
    simp [quotedPart]
  rcases quote_place hfound (by decide) (by decide) htail hline' with hk | ⟨hk, -⟩ | ⟨z, hpre, hz⟩
  · exact absurd hk (by decide)
  · exact absurd hk (by decide)
  have hmap : z ++ '"' :: (m ++ '"' :: (')' :: rest ++ post)) =
      '@' :: "map(".toList ++ '"' :: (m ++ ['"', ')']) := by
    rw [← hz]
    simp [mapOf, grouped]
  rcases mark_cases (by decide) hmap with ⟨rfl, hm⟩ | ⟨γ, -, hm⟩
  · have hpre' : pre = quotedPart d n tail := by
      refine (List.append_left_inj ('@' :: "map(".toList)).1 ?_
      rw [hpre]
      simp [quotedPart]
    refine ⟨hquote, ?_, hpre' ▸ hrun⟩
    have hinner : '@' :: ("map".toList ++ '(' :: ('"' :: m)) <+:
        '@' :: ("map(".toList ++ '"' :: (m ++ '"' :: (')' :: rest))) :=
      ⟨'"' :: (')' :: rest), by simp⟩
    refine (hfound.contained (by decide) hinner fun heq => ?_).of_quote
    simpa using congrArg List.length heq
  · -- behind the name there is no room for another one
    have hlength := congrArg List.length hm
    simp at hlength
    omega

/-- The name of a relation is read only where it was written. -/
theorem relation_of_mem_split (hattr : attr ∈ split (quotedPart d n tail))
    (hname : relationName? attr = some n) :
    escaped n = n ∧ Contained n ∧ (Scan.outside.run (defaultOf d ++ [' '])).2 = .outside := by
  obtain ⟨hquote, mid, rest, rfl, hmid⟩ := relationName?_eq_some hname
  obtain ⟨pre, post, hline, hrun, hfound⟩ := exists_of_mem_split hattr
  have hfree : ∀ c ∈ ['@', '"', '(', ')', '\\'], c ∉ mid := by
    intro c hc hmem
    have hall : ∀ c ∈ ['@', '"', '(', ')', '\\'], isBlank c = false ∧ c ∉ "name:".toList := by
      decide
    rcases hmid c hmem with hblank | hname
    · rw [(hall c hc).1] at hblank
      cases hblank
    · exact (hall c hc).2 hname
  have hk : ∀ c ∈ ['@', '"', ')', '\\'], c ∉ "relation(".toList ++ mid := by
    intro c hc
    have hall : ∀ c ∈ ['@', '"', ')', '\\'], c ∉ "relation(".toList := by decide
    have hsub : ∀ c ∈ ['@', '"', ')', '\\'], c ∈ ['@', '"', '(', ')', '\\'] := by decide
    rw [List.mem_append, not_or]
    exact ⟨hall c hc, hfree c (hsub c hc)⟩
  have hopen : ("relation(".toList ++ mid).count '(' = 1 := by
    rw [List.count_append, List.count_eq_zero.2 (hfree _ (by decide))]
    rfl
  have hspelled : "@relation(".toList ++ mid ++ '"' :: (n ++ '"' :: rest) =
      '@' :: (("relation(".toList ++ mid) ++ '"' :: (n ++ '"' :: rest)) := by simp
  rw [hspelled] at hline hfound
  have hline' : pre ++ ('@' :: (("relation(".toList ++ mid) ++ '"' :: (n ++ '"' :: rest))) ++ post =
      defaultOf d ++ ' ' :: (relationOf n tail ++ ' ' :: []) := by
    rw [← hline]
    simp [quotedPart]
  rcases quote_place hfound hk hopen htail hline' with hstart | ⟨hstart, rfl, hrest⟩ | ⟨z, -, hz⟩
  · exact absurd (congrArg List.head? hstart) nofun
  · obtain rfl : mid = [] := by simpa using hstart
    rcases mark_cases (quote_not_mem_escaped hquote) hrest with ⟨hescaped, -⟩ | ⟨γ, hn, -⟩
    · refine ⟨hescaped.symm, ?_, hrun⟩
      have hinner : '@' :: ("relation".toList ++ '(' :: ('"' :: n)) <+:
          '@' :: ("relation(".toList ++ [] ++ '"' :: (n ++ '"' :: rest)) := ⟨'"' :: rest, by simp⟩
      refine (hfound.contained (by decide) hinner fun heq => ?_).of_quote
      simpa using congrArg List.length heq
    · exact absurd (hn ▸ List.mem_append_right _ List.mem_cons_self) hquote
  · exact absurd (congrArg List.length hz) (by simp)

omit htail

/-- A default that has the marks of a text is the only one in its line. -/
theorem default_place {body final : List Char}
    (hcount : ∀ m ∈ ['@', '(', ')'], body.count m = d.count m)
    (hline : defaultOf d ++ [' '] = pre ++ ("@default(".toList ++ (body ++ ')' :: final)) ++ post) :
    body = quoted d := by
  -- both sides have the same marks, so none is left in front of the default and behind it
  have hpre : '@' ∉ pre := by
    have hat := congrArg (List.count '@') hline
    have hbody := hcount '@' (by decide)
    have hquoted := count_quoted (m := '@') (by decide) d
    refine List.count_eq_zero.1 ?_
    simp [defaultOf, grouped] at hat
    omega
  have hline' : pre ++ '@' :: ("default(".toList ++ (body ++ ')' :: final) ++ post) =
      [] ++ '@' :: ("default(".toList ++ (quoted d ++ [')', ' '])) := by
    rw [List.nil_append]
    simpa [defaultOf, grouped] using hline.symm
  rcases mark_cases List.not_mem_nil hline' with ⟨-, hrest⟩ | ⟨γ, rfl, -⟩
  swap
  · exact absurd List.mem_cons_self hpre
  have hrest' : body ++ ')' :: (final ++ post) = quoted d ++ ')' :: [' '] := by
    simpa using hrest
  have hclose : ')' ∉ final ++ post := by
    have hparen := congrArg (List.count ')') hrest'
    have hbody := hcount ')' (by decide)
    have hquoted := count_quoted (m := ')') (by decide) d
    refine List.count_eq_zero.1 ?_
    simp at hparen ⊢
    omega
  exact (eq_of_last_mark hclose (by decide) hrest').1

/-- A default that is a text is read only where it was written. -/
theorem default_of_mem_split (hattr : attr ∈ split (defaultOf d ++ [' ']))
    (hvalue : defaultValue? attr = .ok (some (.text (String.ofList d)))) :
    escaped d = d ∧ Contained d := by
  obtain ⟨pre, post, hline, -, hfound⟩ := exists_of_mem_split hattr
  cases hbody : defaultBody? attr with
  | none =>
    rw [defaultValue?, hbody] at hvalue
    cases hvalue
  | some body =>
    rw [defaultValue?, hbody] at hvalue
    obtain ⟨value, hliteral, hvalue⟩ := map_eq_ok.1 hvalue
    cases hvalue
    obtain ⟨final, rfl, -⟩ := defaultBody?_eq_some hbody
    have hcount : ∀ m ∈ ['@', '(', ')'], body.count m = d.count m := by
      intro m hm
      have hblank : ∀ m ∈ ['@', '(', ')'], isBlank m = false := by decide
      have hd := literalValue_eq_text hliteral
      rw [String.toList_ofList] at hd
      rw [hd, count_unquoted hm, count_strip (hblank m hm)]
    obtain rfl := default_place hcount hline
    have hself : escaped d = d := by
      have hquotes : quoted d = '"' :: (escaped d ++ ['"']) := rfl
      rw [hquotes, strip_quotes, literalValue_quotes, Except.ok.injEq, ColumnDefault.text.injEq]
        at hliteral
      simpa using congrArg String.toList hliteral
    refine ⟨hself, ?_⟩
    have hinner : '@' :: ("default".toList ++ '(' :: ('"' :: d)) <+:
        "@default(".toList ++ (quoted d ++ ')' :: final) :=
      ⟨'"' :: ')' :: final, by rw [quoted_append, hself]; simp⟩
    refine (hfound.contained (by decide) hinner fun heq => ?_).of_quote
    rw [quoted_append, hself] at heq
    simpa using congrArg List.length heq

end Places

theorem relationName?_mapOf (m : List Char) : relationName? (mapOf m) = none := rfl

theorem defaultValue?_relationOf (n tail : List Char) :
    defaultValue? (relationOf n tail) = .ok none := rfl

theorem defaultValue?_mapOf (m : List Char) : defaultValue? (mapOf m) = .ok none := rfl

/-- If all three texts are read from the line, the first two are quotable, and the third holds no
quote and closes no group. -/
theorem quotable_of_mem_split (htail : ∀ c ∈ ['"', '(', ')'], c ∉ tail)
    (hdefault : ∃ a ∈ split (quotedPart d n tail ++ mapOf m),
      defaultValue? a = .ok (some (.text (String.ofList d))))
    (hrelation : ∃ a ∈ split (quotedPart d n tail ++ mapOf m), relationName? a = some n)
    (hmap : ∃ a ∈ split (quotedPart d n tail ++ mapOf m),
      mapNameAt? "@map(" a = some (String.ofList m)) :
    Quotable d ∧ Quotable n ∧ '"' ∉ m ∧ Contained m := by
  -- from the last attribute to the first: each is read where it was written, so the scan is between
  -- attributes in front of it
  obtain ⟨a, ha, hname⟩ := hmap
  obtain ⟨hquote, hm, hpart⟩ := map_of_mem_split htail ha hname
  have hsplit : split (quotedPart d n tail ++ mapOf m) =
      split (quotedPart d n tail) ++ [mapOf m] := by
    rw [Scan.split_append hpart, mapOf, split_grouped _ (by decide) hm.quotes]
  rw [hsplit] at hdefault hrelation
  obtain ⟨a, ha, hname⟩ := hrelation
  have ha' : a ∈ split (quotedPart d n tail) := by
    refine (List.mem_append.1 ha).resolve_right fun hmem => ?_
    rw [List.mem_singleton.1 hmem, relationName?_mapOf] at hname
    cases hname
  obtain ⟨hn, hncontained, hfirst⟩ := relation_of_mem_split htail ha' hname
  have hsecond : (Scan.outside.run (relationOf n tail ++ [' '])).2 = .outside := by
    rw [quotedPart, Scan.run_append, hfirst] at hpart
    exact hpart
  have hnquotable := quotable_of_run hn hncontained "relation".toList (by decide) htail hsecond
  have hsplit' : split (quotedPart d n tail) =
      split (defaultOf d ++ [' ']) ++ [relationOf n tail] := by
    rw [quotedPart, Scan.split_append hfirst, relationOf,
      (hnquotable.split_grouped _ (by decide) htail).2]
  rw [hsplit', List.append_assoc] at hdefault
  obtain ⟨a, ha, hvalue⟩ := hdefault
  have ha' : a ∈ split (defaultOf d ++ [' ']) := by
    refine (List.mem_append.1 ha).resolve_right fun hmem => ?_
    rcases List.mem_cons.1 hmem with rfl | hmem
    · rw [defaultValue?_relationOf] at hvalue
      cases hvalue
    · rw [List.mem_singleton.1 hmem, defaultValue?_mapOf] at hvalue
      cases hvalue
  obtain ⟨hd, hdcontained⟩ := default_of_mem_split ha' hvalue
  have hdquotable : Quotable d := by
    refine quotable_of_run hd hdcontained "default".toList (by decide)
      (fun _ _ => List.not_mem_nil) ?_
    rwa [List.append_nil]
  exact ⟨hdquotable, hnquotable, hquote, hm⟩

/-! ### Reading the three attributes -/

theorem defaultAttribute_text (s : String) :
    Column.defaultAttribute (.text s) = defaultOf s.toList := rfl

theorem Quotable.defaultValue?_defaultOf {s : String} (h : Quotable s.toList) :
    defaultValue? (defaultOf s.toList) = .ok (some (.text s)) := by
  have hbody := Column.defaultBody?_defaultAttribute (.text s)
  rw [defaultAttribute_text, ColumnDefault.literal, if_neg] at hbody
  · rw [defaultValue?, hbody, h.quoted_eq]
    dsimp only
    rw [strip_quotes, literalValue_quotes, String.ofList_toList]
    rfl
  · rw [Bool.or_eq_true, decide_eq_true_iff]
    rintro (hempty | hmem)
    · cases hempty
    · exact newline_not_mem_quoted _ hmem

theorem Quotable.relationName?_relationOf (h : Quotable n) (hne : n ≠ []) (tail : List Char) :
    relationName? (relationOf n tail) = some n := by
  have hquote : '"' ∉ n := fun hmem => (h.1 _ hmem).2.1 rfl
  have htext : relationOf n tail = "@relation(".toList ++ '"' :: (n ++ '"' :: (tail ++ [')'])) := by
    rw [relationOf, h.quoted_eq]
    simp [grouped]
  rw [htext, Relation.relationName?_start (by decide) (by decide),
    Relation.quotedAt?_append hquote hne]
  rfl

end Attribute

/-! ### Columns -/

namespace Column

variable {c c' : Column} {attr : List Char} {attrs : List (List Char)} {d n m : String}

/-- What an attribute says about default, relation and physical name replaces what was known. -/
theorem of_addAttribute (h : c.addAttribute attr = .ok c') :
    (c'.default = c.default ∨ Attribute.defaultValue? attr = .ok c'.default) ∧
      (c'.relation = c.relation ∨ c'.relation = some (Attribute.relation attr)) ∧
        (c'.mapName = c.mapName ∨ c'.mapName = Attribute.mapNameAt? "@map(" attr) := by
  cases hrelation : startsWith "@relation" attr with
  | true =>
    rw [addAttribute, if_pos hrelation] at h
    cases h
    exact ⟨Or.inl rfl, Or.inr rfl, Or.inl rfl⟩
  | false =>
    cases hmap : startsWith "@map" attr with
    | true =>
      rw [addAttribute, hrelation, if_neg Bool.false_ne_true, if_pos hmap] at h
      cases h
      exact ⟨Or.inl rfl, Or.inl rfl, Or.inr rfl⟩
    | false =>
      rw [addAttribute_of_plain hrelation hmap] at h
      obtain ⟨value, hvalue, h⟩ := bind_eq_ok.1 h
      cases h
      refine ⟨?_, Or.inl rfl, Or.inl rfl⟩
      rw [defaultWith] at hvalue
      split at hvalue
      · exact Or.inr hvalue
      · cases hvalue
        exact Or.inl rfl

/-- Default, relation and physical name come from attributes, unless they were there before. -/
theorem of_foldlM_addAttribute (h : attrs.foldlM addAttribute c = .ok c') :
    (c'.default = c.default ∨ ∃ a ∈ attrs, Attribute.defaultValue? a = .ok c'.default) ∧
      (c'.relation = c.relation ∨ ∃ a ∈ attrs, c'.relation = some (Attribute.relation a)) ∧
        (c'.mapName = c.mapName ∨ ∃ a ∈ attrs, c'.mapName = Attribute.mapNameAt? "@map(" a) := by
  induction attrs generalizing c with
  | nil =>
    cases h
    exact ⟨Or.inl rfl, Or.inl rfl, Or.inl rfl⟩
  | cons a attrs ih =>
    obtain ⟨c₁, hfirst, hrest⟩ := bind_eq_ok.1 (List.foldlM_cons.symm.trans h)
    -- the last attribute that says something decides
    have hlast : ∀ {P Q : Prop} {R : List Char → Prop}, (P → Q ∨ R a) →
        (P ∨ ∃ b ∈ attrs, R b) → Q ∨ ∃ b ∈ a :: attrs, R b := by
      rintro P Q R hstep (hP | ⟨b, hb, hR⟩)
      · exact (hstep hP).imp_right fun hR => ⟨a, List.mem_cons_self, hR⟩
      · exact Or.inr ⟨b, List.mem_cons_of_mem _ hb, hR⟩
    obtain ⟨hdefault, hrelation, hmapName⟩ := of_addAttribute hfirst
    obtain ⟨ihdefault, ihrelation, ihmapName⟩ := ih hrest
    refine ⟨hlast (fun h => ?_) ihdefault, hlast (fun h => ?_) ihrelation,
      hlast (fun h => ?_) ihmapName⟩
    · rwa [h]
    · rwa [h]
    · rwa [h]

/-- The name and type of a column are words, and it shows three texts in quotes and no attributes
besides: its default, the name of its relation and its physical name. -/
structure ShowsTexts (c : Column) (d n m : String) : Prop where
  /-- The name is a word. -/
  name : Wordy c.name.toList
  /-- The name is not empty. -/
  name_ne : c.name ≠ ""
  /-- The type is a word. -/
  type : Wordy c.type.toList
  /-- The type is not empty. -/
  type_ne : c.type ≠ ""
  /-- A list is never nullable. -/
  marks : ¬ (c.nullable = true ∧ c.isList = true)
  /-- There are no attributes. -/
  attributes : c.attributes = []
  /-- The default is a text. -/
  default : c.default = some (.text d)
  /-- The relation has a name, and the columns in it hold no quotes and no parentheses. -/
  relation : ∃ r, c.relation = some r ∧ r.name = some n ∧
    ∀ f ∈ r.fields ++ r.references, ∀ x ∈ ['"', '(', ')'], x ∉ f.toList
  /-- The name of the relation is not empty. -/
  relationName_ne : n ≠ ""
  /-- There is a physical name. -/
  mapName : c.mapName = some m
  /-- The physical name is not empty. -/
  mapName_ne : m ≠ ""

/-- What follows the name in the attribute of a relation holds only what its columns hold, and marks
that are neither quotes nor parentheses. -/
theorem not_mem_entries {r : Relation}
    (h : ∀ f ∈ r.fields ++ r.references, ∀ x ∈ ['"', '(', ')'], x ∉ f.toList) :
    ∀ x ∈ ['"', '(', ')'], x ∉ r.entries.flatMap fun e => [',', ' '] ++ entryText e := by
  intro x hx hmem
  obtain ⟨e, he, hxe⟩ := List.mem_flatMap.1 hmem
  have hmarks : ∀ x ∈ ['"', '(', ')'], x ∉ [',', ' ', ':', '[', ']'] ∧ isWordChar x = false := by
    intro x hx
    have hall : ∀ x ∈ ['"', '(', ')'], x ∉ [',', ' ', ':', '[', ']'] ∧
        x.toNat < 128 ∧ x.isAlphanum = false ∧ x ≠ '_' := by decide
    exact ⟨(hall x hx).1, isWordChar_eq_false (hall x hx).2⟩
  obtain ⟨hmark, hword⟩ := hmarks x hx
  have htitles : ∀ u ∈ Relation.titles, Wordy u.toList := by decide
  have hbracketed : ∀ names, (∀ f ∈ names, x ∉ f.toList) → x ∉ bracketed names := by
    intro names hnames hmem
    rw [bracketed, List.cons_append, List.mem_cons, List.mem_append, List.mem_singleton] at hmem
    rcases hmem with rfl | hmem | rfl
    · exact hmark (by decide)
    · rcases mem_commaText hmem with rfl | rfl | ⟨f, hf, hxf⟩
      · exact hmark (by decide)
      · exact hmark (by decide)
      · exact hnames f hf hxf
    · exact hmark (by decide)
  have hvalue : x ∉ e.2 := by
    rcases Relation.mem_entries_iff.1 he with ⟨rfl, -⟩ | ⟨rfl, -⟩ | ⟨a, -, rfl⟩ | ⟨a, -, rfl⟩
    · exact hbracketed _ fun f hf => h f (List.mem_append_left _ hf) x hx
    · exact hbracketed _ fun f hf => h f (List.mem_append_right _ hf) x hx
    · exact (Relation.wordy_name a).not_mem hword
    · exact (Relation.wordy_name a).not_mem hword
  have htitle := (htitles _ (Relation.title_mem_titles he)).not_mem hword
  simp only [List.mem_cons, List.not_mem_nil, or_false, not_or] at hmark
  obtain ⟨hcomma, hspace, hcolon, -, -⟩ := hmark
  simp [entryText, hcomma, hspace, hcolon, htitle, hvalue] at hxe

theorem mapAttribute_eq (m : String) : mapAttribute m = Attribute.mapOf m.toList := by
  simp [mapAttribute, plainQuoted, Attribute.mapOf, Attribute.grouped]

/-- The attributes that are looked for in the line of such a column. -/
theorem ShowsTexts.exists_split (h : c.ShowsTexts d n m) (nameWidth typeWidth : Nat) :
    ∃ tail, (∀ x ∈ ['"', '(', ')'], x ∉ tail) ∧
      Attribute.split (c.print nameWidth typeWidth) = Attribute.split
        (Attribute.quotedPart d.toList n.toList tail ++ Attribute.mapOf m.toList) := by
  obtain ⟨r, hr, hn, hcolumns⟩ := h.relation
  refine ⟨_, not_mem_entries hcolumns, ?_⟩
  have hat : isWordChar '@' = false := isWordChar_eq_false (by decide)
  have hlegible := legible_of_words (fun d hd => Or.inl (h.name d hd)) h.name_ne h.type h.type_ne
    h.marks
  have hmodifiers : c.modifiers = [defaultAttribute (.text d), r.print, mapAttribute m] := by
    have hattribute : c.hasAttribute "@default" = false := by rw [hasAttribute, h.attributes]; rfl
    rw [modifiers, defaultModifier, mapModifier, h.attributes, h.default, hr, h.mapName]
    simp only [hattribute, h.mapName_ne, if_false, Bool.false_eq_true]
    rfl
  have hrelation : r.print = Attribute.relationOf n.toList
      (r.entries.flatMap fun e => [',', ' '] ++ entryText e) := by
    rw [Relation.print_eq, Relation.nameText, hn]
    simp [h.relationName_ne, moreEntries, Attribute.relationOf, Attribute.grouped]
  rw [split_print_eq hlegible (h.name.not_mem hat) (h.type.not_mem hat), hmodifiers, hrelation,
    Attribute.defaultAttribute_text, mapAttribute_eq]
  -- the blank in front of the first attribute is passed over
  have hspace : (Attribute.Scan.outside.run [' ']).2 = .outside := rfl
  have hsplit := Attribute.Scan.split_append hspace (Attribute.quotedPart d.toList n.toList
    (r.entries.flatMap fun e => [',', ' '] ++ entryText e) ++ Attribute.mapOf m.toList)
  rw [show Attribute.split [' '] = [] from rfl, List.nil_append] at hsplit
  rw [← hsplit]
  simp [Attribute.quotedPart]

/-- The three attributes say what they were written with. -/
theorem exists_foldlM_addAttribute (hd : Attribute.Quotable d.toList)
    (hn : Attribute.Quotable n.toList) (hnname : n ≠ "") (hquote : '"' ∉ m.toList) (hmname : m ≠ "")
    (tail : List Char) (c : Column) :
    ∃ c', [Attribute.defaultOf d.toList, Attribute.relationOf n.toList tail,
        Attribute.mapOf m.toList].foldlM addAttribute c = .ok c' ∧
      c'.default = some (.text d) ∧ c'.relation.bind (·.name) = some n ∧ c'.mapName = some m := by
  have hname := hn.relationName?_relationOf (by simpa using hnname) tail
  have hdefault : ∀ c' : Column, c'.addAttribute (Attribute.defaultOf d.toList) =
      .ok { c' with
        default := some (.text d)
        attributes := c'.attributes ++ [String.ofList (Attribute.defaultOf d.toList)] } := by
    intro c'
    have hstart : startsWith "@default" (Attribute.defaultOf d.toList) = true := rfl
    rw [addAttribute_of_plain rfl rfl, defaultWith, if_pos hstart, hd.defaultValue?_defaultOf]
    rfl
  have hrelation : ∀ c' : Column, c'.addAttribute (Attribute.relationOf n.toList tail) =
      .ok { c' with relation := some (Attribute.relation
        (Attribute.relationOf n.toList tail)) } := fun _ => rfl
  have hmap : ∀ c' : Column, c'.addAttribute (Attribute.mapOf m.toList) =
      .ok { c' with mapName := some m } := fun c' => by
    rw [← mapAttribute_eq]
    exact addAttribute_map hmname hquote c'
  refine ⟨_, bind_eq_ok.2 ⟨_, hdefault _, bind_eq_ok.2 ⟨_, hrelation _,
    bind_eq_ok.2 ⟨_, hmap _, rfl⟩⟩⟩, rfl, ?_, rfl⟩
  simp only [Option.bind_some, Attribute.relation, hname, Option.map_some, String.ofList_toList]

/-- The three texts of a column are read as they were written exactly if default and name of the
relation are quotable, and the physical name holds no quote and closes no group. -/
theorem texts_parse?_print_iff (h : c.ShowsTexts d n m) (nameWidth typeWidth : Nat) :
    (∃ c', parse? (c.print nameWidth typeWidth) = .ok (some c') ∧ c'.default = some (.text d) ∧
      c'.relation.bind (·.name) = some n ∧ c'.mapName = some m) ↔
      Attribute.Quotable d.toList ∧ Attribute.Quotable n.toList ∧ '"' ∉ m.toList ∧
        Attribute.Contained m.toList := by
  obtain ⟨tail, htail, hsplit⟩ := h.exists_split nameWidth typeWidth
  have hlegible := legible_of_words (fun d hd => Or.inl (h.name d hd)) h.name_ne h.type h.type_ne
    h.marks
  rw [parse?_print hlegible, hsplit]
  constructor
  · rintro ⟨c', hparse, hdefault, hrelation, hmap⟩
    obtain ⟨c₁, hfold, hc'⟩ := map_eq_ok.1 hparse
    cases hc'
    obtain ⟨hdefault', hrelation', hmap'⟩ := of_foldlM_addAttribute hfold
    rw [hdefault] at hdefault'
    rw [hmap] at hmap'
    obtain ⟨a, ha, hrelation'⟩ := hrelation'.resolve_left fun hnone => by
      rw [hnone] at hrelation
      cases hrelation
    rw [hrelation'] at hrelation
    refine Attribute.quotable_of_mem_split htail ?_ ⟨a, ha, ?_⟩ ?_
    · rw [String.ofList_toList]
      exact hdefault'.resolve_left nofun
    · obtain ⟨name, hname, rfl⟩ := Option.map_eq_some_iff.1 hrelation
      rw [hname, String.toList_ofList (l := name)]
    · rw [String.ofList_toList]
      obtain ⟨a, ha, hname⟩ := hmap'.resolve_left nofun
      exact ⟨a, ha, hname.symm⟩
  · rintro ⟨hd, hn, hquote, hm⟩
    rw [Attribute.split_quotedPart_append hd hn hm htail]
    obtain ⟨c', hfold, htexts⟩ := exists_foldlM_addAttribute hd hn h.relationName_ne hquote
      h.mapName_ne tail c.head
    exact ⟨_, map_eq_ok.2 ⟨c', hfold, rfl⟩, htexts⟩

/-- A column whose default holds a quote. -/
def inchColumn : Column :=
  { bare "size" "String" with
    default := some (.text "5\" wide")
    relation := some ⟨some "By (hand)", ["id"], ["key"], some .cascade, none⟩
    mapName := some "size :(" }

/-- The quote in the default is not read as it was written. -/
theorem not_texts_inchColumn :
    inchColumn.ShowsTexts "5\" wide" "By (hand)" "size :(" ∧
      ¬ ∃ c', parse? (inchColumn.print 0 0) = .ok (some c') ∧
        c'.default = some (.text "5\" wide") ∧
        c'.relation.bind (·.name) = some "By (hand)" ∧ c'.mapName = some "size :(" := by
  have htexts : inchColumn.ShowsTexts "5\" wide" "By (hand)" "size :(" :=
    ⟨by decide +kernel, by decide, by decide +kernel, by decide, by decide, rfl, rfl,
      ⟨_, rfl, rfl, by decide⟩, by decide, rfl, by decide⟩
  refine ⟨htexts, fun hread => ?_⟩
  have hquotable := ((texts_parse?_print_iff htexts 0 0).1 hread).1
  exact (hquotable.1 '"' (by decide)).2.1 rfl

end Column

end ContentSchema
