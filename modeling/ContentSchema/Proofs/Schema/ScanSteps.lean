import ContentSchema.Proofs.Schema.Parsed

/-!
# The scan of a line, step by step

`Attribute.splitFrom` as a machine that reads one character at a time (`Scan.step`), run over a part
of a line (`Scan.run`).  Each attribute that is found stands in the line at a place that the scan
reaches between attributes, and none of its beginnings closes the group that it opens
(`Attribute.exists_of_mem_splitFrom`).
-/

namespace ContentSchema

open Text

namespace Attribute

variable {cs ds attr current : List Char} {c : Char} {depth : Int} {s : Scan}

/-! ### Parentheses -/

/-- The text ends in a parenthesis that closes all that were opened. -/
def Closed (cs : List Char) : Prop := cs.getLast? = some ')' ∧ cs.count '(' = cs.count ')'

/-- No beginning of the text closes more parentheses than it opens. -/
def Contained (cs : List Char) : Prop := ∀ p, p <+: cs → p.count ')' ≤ p.count '('

instance : Decidable (Contained cs) :=
  decidable_of_iff (∀ p ∈ cs.inits, p.count ')' ≤ p.count '(') <| by
    simp only [List.mem_inits, Contained]

theorem Contained.of_prefix (h : Contained cs) (hp : ds <+: cs) : Contained ds :=
  fun p hp' => h p (hp'.trans hp)

theorem Contained.append (hcs : Contained cs) (hds : Contained ds) : Contained (cs ++ ds) := by
  intro p hp
  rcases List.prefix_or_prefix_of_prefix hp (List.prefix_append cs ds) with hp' | ⟨q, rfl⟩
  · exact hcs p hp'
  · have h₁ := hcs cs List.prefix_rfl
    have h₂ := hds q ((List.prefix_append_right_inj cs).1 hp)
    rw [List.count_append, List.count_append]
    omega

theorem contained_of_not_mem (h : ')' ∉ cs) : Contained cs := by
  intro p hp
  rw [List.count_eq_zero.2 fun hmem => h (hp.subset hmem)]
  exact Nat.zero_le _

/-! ### Steps -/

namespace Scan

theorem inside_ne_outside : inside depth current ≠ outside := by
  intro h
  cases h

/-- One step of the scan: the attribute that ends, if one does, and where the scan stands then. -/
def step : Scan → Char → List (List Char) × Scan
  | outside, c => ([], if c = '@' then inside 0 ['@'] else outside)
  | inside depth current, c =>
    if c = '(' then ([], inside (depth + 1) (c :: current))
    else if c = ')' then
      if depth = 1 then ([(c :: current).reverse], outside)
      else ([], inside (depth - 1) (c :: current))
    else if isBlank c && depth == 0 then ((inside depth current).flush, outside)
    else ([], inside depth (c :: current))

/-- What is found in a part of a line, and where the scan stands behind it. -/
def run : Scan → List Char → List (List Char) × Scan
  | s, [] => ([], s)
  | s, c :: cs => ((s.step c).1 ++ ((s.step c).2.run cs).1, ((s.step c).2.run cs).2)

theorem splitFrom_cons (s : Scan) (c : Char) (cs : List Char) :
    splitFrom s (c :: cs) = (s.step c).1 ++ splitFrom (s.step c).2 cs := by
  cases s with
  | outside => rw [splitFrom, step, List.nil_append]
  | inside depth current =>
    rw [splitFrom, step]
    split_ifs <;> rfl

theorem splitFrom_append (s : Scan) (cs ds : List Char) :
    splitFrom s (cs ++ ds) = (s.run cs).1 ++ splitFrom (s.run cs).2 ds := by
  induction cs generalizing s with
  | nil => rfl
  | cons c cs ih => rw [List.cons_append, splitFrom_cons, ih, run, List.append_assoc]

theorem run_append (s : Scan) (cs ds : List Char) :
    s.run (cs ++ ds) = ((s.run cs).1 ++ ((s.run cs).2.run ds).1, ((s.run cs).2.run ds).2) := by
  induction cs generalizing s with
  | nil => rfl
  | cons c cs ih => simp only [List.cons_append, run, ih, List.append_assoc]

/-- The attributes of two texts are found one after the other if the scan stands between attributes
where they meet. -/
theorem split_append (h : (outside.run cs).2 = outside) (ds : List Char) :
    split (cs ++ ds) = split cs ++ split ds := by
  have hcs := splitFrom_append outside cs []
  rw [List.append_nil, h, splitFrom, flush, List.append_nil] at hcs
  rw [split, splitFrom_append, h, split, hcs, split]

theorem run_word {word : List Char} (h : ∀ c ∈ word, IsNameChar c) (depth : Int)
    (current : List Char) :
    (inside depth current).run word = ([], inside depth (word.reverse ++ current)) := by
  induction word generalizing current with
  | nil => rfl
  | cons c word ih =>
    obtain ⟨⟨hblank, hopen, hclose⟩, hword⟩ := List.forall_mem_cons.1 h
    have hstep : (inside depth current).step c = ([], inside depth (c :: current)) := by
      rw [step, if_neg hopen, if_neg hclose, hblank, Bool.false_and, if_neg Bool.false_ne_true]
    rw [run, hstep, ih hword]
    simp

theorem run_contained (h : Contained cs) (hdepth : 1 ≤ depth) (current : List Char) :
    (inside depth current).run cs =
      ([], inside (depth + cs.count '(' - cs.count ')') (cs.reverse ++ current)) := by
  induction cs using List.reverseRecOn with
  | nil => simp [run]
  | append_singleton cs c ih =>
    have hcs := h.of_prefix (List.prefix_append cs [c])
    have hle := h (cs ++ [c]) List.prefix_rfl
    have hle' := hcs cs List.prefix_rfl
    rw [List.count_append, List.count_append] at hle
    rw [run_append, ih hcs, List.count_append, List.count_append, List.reverse_append]
    dsimp only [run]
    rw [step]
    split_ifs with hopen hclose hone hblank
    · subst hopen
      simp
      omega
    · subst hclose
      simp at hle
      omega
    · subst hclose
      simp
      omega
    · simp only [Bool.and_eq_true, beq_iff_eq] at hblank
      omega
    · simp [hopen, hclose]

end Scan

/-- An attribute with a group in parentheses behind its word. -/
def grouped (word inner : List Char) : List Char := '@' :: (word ++ '(' :: (inner ++ [')']))

namespace Scan

theorem run_grouped_start {word inner : List Char} (hword : ∀ c ∈ word, IsNameChar c)
    (hinner : Contained inner) :
    outside.run ('@' :: (word ++ '(' :: inner)) =
      ([], inside (1 + inner.count '(' - inner.count ')')
        ('@' :: (word ++ '(' :: inner)).reverse) := by
  have hopen : ∀ current, (inside 0 current).step '(' = ([], inside 1 ('(' :: current)) :=
    fun _ => rfl
  have hstart : outside.step '@' = ([], inside 0 ['@']) := rfl
  rw [run, hstart, run_append, run_word hword, run, hopen, run_contained hinner (by decide)]
  simp

/-- A group is read up to its end; the scan goes on in it if not all parentheses in it were
closed. -/
theorem run_grouped {word inner : List Char} (hword : ∀ c ∈ word, IsNameChar c)
    (hinner : Contained inner) :
    outside.run (grouped word inner) =
      if inner.count '(' = inner.count ')' then ([grouped word inner], outside)
      else ([], inside (inner.count '(' - inner.count ')') (grouped word inner).reverse) := by
  have hsplit : grouped word inner = '@' :: (word ++ '(' :: inner) ++ [')'] := by simp [grouped]
  rw [hsplit, run_append, run_grouped_start hword hinner]
  dsimp only [run, step]
  rw [if_neg (by decide), if_pos rfl]
  split_ifs with hone hcount hcount
  · simp
  · omega
  · omega
  · simp
    omega

end Scan

/-! ### Where attributes are found -/

namespace Scan

/-- The attribute at hand begins with `@`, its depth is that of its text, and no beginning of it
is closed. -/
def Sound : Scan → Prop
  | outside => True
  | inside depth current =>
    (∃ rest, current.reverse = '@' :: rest) ∧ depth = current.count '(' - current.count ')' ∧
      ∀ p, p <+: current.reverse → ¬ Closed p

end Scan

/-- The text begins with `@`, and closes the group that it opens at its end if at all. -/
structure Found (attr : List Char) : Prop where
  /-- The text begins with `@`. -/
  start : ∃ rest, attr = '@' :: rest
  /-- No shorter beginning is closed. -/
  unclosed : ∀ p, p <+: attr → Closed p → p = attr

namespace Scan.Sound

/-- The scan may go on in an attribute with any character that does not end it. -/
theorem push (h : (inside depth current).Sound) (hclose : c = ')' → depth ≠ 1) {depth' : Int}
    (hdepth : depth' = (c :: current).count '(' - (c :: current).count ')') :
    (inside depth' (c :: current)).Sound := by
  obtain ⟨⟨rest, hstart⟩, hcount, hunclosed⟩ := h
  refine ⟨⟨rest ++ [c], ?_⟩, hdepth, fun p hp hclosed => ?_⟩
  · rw [List.reverse_cons, hstart, List.cons_append]
  · rw [List.reverse_cons] at hp
    rcases List.prefix_concat_iff.1 hp with rfl | hp
    · obtain ⟨hlast, hcounts⟩ := hclosed
      rw [List.getLast?_concat, Option.some_inj] at hlast
      subst hlast
      simp at hcounts
      exact hclose rfl (by omega)
    · exact hunclosed p hp hclosed

theorem found_of_mem_flush (h : (inside depth current).Sound)
    (hattr : attr ∈ (inside depth current).flush) : Found attr ∧ attr <+: current.reverse := by
  obtain ⟨⟨rest, hstart⟩, -, hunclosed⟩ := h
  have hcut := stripEnd_append_solid (c := '@') (by decide) [] rest
  have hstrip : strip current.reverse = '@' :: stripEnd rest := by
    rw [hstart]
    exact @strip_append [] '@' (by simp) (by decide) rest
  have hprefix : '@' :: stripEnd rest <+: current.reverse := by
    rw [hstart]
    exact (List.prefix_cons_inj _).2 (stripEnd_isPrefix rest)
  rw [flush, hstrip] at hattr
  obtain rfl : attr = '@' :: stripEnd rest := by simpa using hattr
  exact ⟨⟨⟨_, rfl⟩, fun p hp hclosed => absurd hclosed (hunclosed p (hp.trans hprefix))⟩, hprefix⟩

/-- What one step finds and keeps. -/
theorem of_step (h : s.Sound) (c : Char) : (s.step c).2.Sound ∧
    (∀ a ∈ (s.step c).1, s ≠ outside ∧ Found a ∧ a <+: s.text ++ [c]) ∧
      ((s.step c).2 ≠ outside → (s.step c).2.text = s.text ++ [c]) := by
  cases s with
  | outside =>
    rw [step]
    dsimp only
    by_cases hc : c = '@'
    · subst hc
      refine ⟨⟨⟨[], rfl⟩, rfl, fun p hp hclosed => ?_⟩, nofun, fun _ => rfl⟩
      have hlast := hclosed.1
      have hp : p <+: [] ++ ['@'] := hp
      rcases List.prefix_concat_iff.1 hp with rfl | hp
      · cases hlast
      · rw [List.prefix_nil.1 hp] at hlast
        cases hlast
    · rw [if_neg hc]
      exact ⟨trivial, nofun, fun hne => absurd rfl hne⟩
  | inside depth current =>
    have htext : (inside depth current).text ++ [c] = (c :: current).reverse := by
      rw [List.reverse_cons]
      rfl
    have hdepth := h.2.1
    rw [step, htext]
    split_ifs with hopen hclose hone hblank
    · refine ⟨h.push (by simp [hopen]) ?_, nofun, fun _ => rfl⟩
      subst hopen
      simp
      omega
    · subst hclose
      refine ⟨trivial, fun a ha => ?_, fun hne => absurd rfl hne⟩
      rw [List.mem_singleton.1 ha]
      obtain ⟨⟨rest, hstart⟩, -, hunclosed⟩ := h
      refine ⟨inside_ne_outside, ⟨⟨rest ++ [')'], ?_⟩, fun p hp hclosed => ?_⟩, List.prefix_rfl⟩
      · rw [List.reverse_cons, hstart, List.cons_append]
      · rw [List.reverse_cons] at hp ⊢
        exact (List.prefix_concat_iff.1 hp).resolve_right fun hp => hunclosed p hp hclosed
    · refine ⟨h.push (fun _ => hone) ?_, nofun, fun _ => rfl⟩
      subst hclose
      simp
      omega
    · refine ⟨trivial, fun a ha => ?_, fun hne => absurd rfl hne⟩
      obtain ⟨hfound, hprefix⟩ := h.found_of_mem_flush ha
      rw [List.reverse_cons]
      exact ⟨inside_ne_outside, hfound, hprefix.trans (List.prefix_append _ _)⟩
    · refine ⟨h.push (fun hc => absurd hc hclose) ?_, nofun, fun _ => rfl⟩
      rw [List.count_cons_of_ne hopen, List.count_cons_of_ne hclose]
      exact hdepth

end Scan.Sound

/-- Each attribute stands in the line where the scan is between attributes, unless the scan was in
it before. -/
theorem Scan.Sound.of_mem_splitFrom (hs : s.Sound) (h : attr ∈ splitFrom s cs) :
    (s ≠ .outside ∧ Found attr ∧ attr <+: s.text ++ cs) ∨
      ∃ pre post, cs = pre ++ attr ++ post ∧ (s.run pre).2 = .outside ∧ Found attr := by
  induction cs generalizing s with
  | nil =>
    rw [splitFrom] at h
    cases s with
    | outside => cases h
    | inside depth current =>
      obtain ⟨hfound, hprefix⟩ := hs.found_of_mem_flush h
      exact Or.inl ⟨Scan.inside_ne_outside, hfound, hprefix.trans (List.prefix_append _ _)⟩
  | cons c cs ih =>
    obtain ⟨hsound, hfound, htext⟩ := hs.of_step c
    rw [Scan.splitFrom_cons] at h
    rcases List.mem_append.1 h with h | h
    · obtain ⟨hne, hattr, hprefix⟩ := hfound attr h
      refine Or.inl ⟨hne, hattr, hprefix.trans ?_⟩
      exact (List.prefix_append_right_inj _).2 (List.prefix_append [c] cs)
    rcases ih hsound h with ⟨hne, hattr, hprefix⟩ | ⟨pre, post, hcs, hrun, hattr⟩
    · rw [htext hne, List.append_assoc, List.singleton_append] at hprefix
      cases s with
      | outside =>
        obtain ⟨post, hpost⟩ := hprefix
        exact Or.inr ⟨[], post, hpost.symm, rfl, hattr⟩
      | inside depth current => exact Or.inl ⟨Scan.inside_ne_outside, hattr, hprefix⟩
    · exact Or.inr ⟨c :: pre, post, by rw [hcs]; rfl, hrun, hattr⟩

/-- Each attribute of a line stands in it where the scan is between attributes. -/
theorem exists_of_mem_split (h : attr ∈ split cs) :
    ∃ pre post, cs = pre ++ attr ++ post ∧ (Scan.outside.run pre).2 = .outside ∧ Found attr := by
  have hs : Scan.outside.Sound := trivial
  exact (hs.of_mem_splitFrom h).resolve_left fun h => h.1 rfl

/-- What stands in the group of an attribute closes no more parentheses than it opens. -/
theorem Found.contained {word inner : List Char} (h : Found attr) (hword : ∀ c ∈ word, IsNameChar c)
    (hp : '@' :: (word ++ '(' :: inner) <+: attr) (hne : '@' :: (word ++ '(' :: inner) ≠ attr) :
    Contained inner := by
  intro p hp'
  induction p using List.reverseRecOn with
  | nil => exact Nat.le_refl _
  | append_singleton p c ih =>
    have hle := ih ((List.prefix_append p [c]).trans hp')
    rw [List.count_append, List.count_append]
    by_cases hc : c = ')'
    · subst hc
      have hplain : word.count '(' = 0 ∧ word.count ')' = 0 :=
        ⟨List.count_eq_zero.2 fun hmem => (hword _ hmem).2.1 rfl,
          List.count_eq_zero.2 fun hmem => (hword _ hmem).2.2 rfl⟩
      by_contra hlt
      have heq : p.count '(' = p.count ')' := by
        simp at hlt
        omega
      have hbegin : '@' :: (word ++ '(' :: (p ++ [')'])) <+: '@' :: (word ++ '(' :: inner) := by
        simpa using hp'
      have hclosed : Closed ('@' :: (word ++ '(' :: (p ++ [')']))) := by
        refine ⟨?_, by simp [hplain, heq]⟩
        have hsplit : '@' :: (word ++ '(' :: (p ++ [')'])) =
            '@' :: (word ++ '(' :: p) ++ [')'] := by simp
        rw [hsplit, List.getLast?_concat]
      have hall := h.unclosed _ (hbegin.trans hp) hclosed
      exact hne (hp.eq_of_length (Nat.le_antisymm hp.length_le (hall ▸ hbegin.length_le)))
    · simp [List.count_singleton, hc]
      omega

end Attribute

end ContentSchema
