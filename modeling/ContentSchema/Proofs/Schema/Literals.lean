import ContentSchema.Proofs.Number.Numeral

/-!
# Literals on one line

Quoting escapes line feeds and adds no other line boundary, so literals and the comments that carry
the rules of a field stay on one line.
-/

namespace ContentSchema

open Text

/-! ### Quoted texts -/

variable {cs : List Char}

theorem isLineBreak_of_mem_hexDigits {width n : Nat} {d : Char} (h : d ∈ hexDigits width n) :
    isLineBreak d = false := by
  induction width generalizing n with
  | zero => cases h
  | succ width ih =>
    rw [hexDigits, List.mem_append, List.mem_singleton] at h
    rcases h with h | rfl
    · exact ih h
    · have hall : ∀ k < 16, isLineBreak (hexDigit k) = false := by decide
      exact hall _ (Nat.mod_lt _ (by decide))

/-- Escaping adds no line boundaries and takes line feeds away. -/
theorem eq_of_mem_escapeChar {c d : Char} (hd : d ∈ escapeChar c) (hb : isLineBreak d = true) :
    d = c ∧ c ≠ '\n' := by
  have hmark : ∀ e ∈ ['\\', '"', 'n', 'r', 't', 'b', 'f', 'u'], isLineBreak e = false := by decide
  have hpair : ∀ e, d ∈ ['\\', e] → e ∈ ['\\', '"', 'n', 'r', 't', 'b', 'f', 'u'] → False := by
    intro e hmem he
    simp only [List.mem_cons, List.not_mem_nil, or_false] at hmem
    rcases hmem with rfl | rfl
    · exact absurd hb (by decide)
    · rw [hmark _ he] at hb
      cases hb
  -- seven characters become pairs, the other control characters digits, all others stay
  rw [escapeChar] at hd
  split at hd
  · exact (hpair _ hd (by decide)).elim
  split at hd
  · exact (hpair _ hd (by decide)).elim
  split at hd
  · exact (hpair _ hd (by decide)).elim
  rename_i hc
  split at hd
  · exact (hpair _ hd (by decide)).elim
  split at hd
  · exact (hpair _ hd (by decide)).elim
  split at hd
  · exact (hpair _ hd (by decide)).elim
  split at hd
  · exact (hpair _ hd (by decide)).elim
  split at hd
  · rcases List.mem_cons.1 hd with rfl | hd
    · exact absurd hb (by decide)
    rcases List.mem_cons.1 hd with rfl | hd
    · exact absurd hb (by decide)
    rw [isLineBreak_of_mem_hexDigits hd] at hb
    cases hb
  · exact ⟨List.mem_singleton.1 hd, hc⟩

theorem mem_of_mem_quoted {d : Char} (hd : d ∈ quoted cs) (hb : isLineBreak d = true) :
    d ∈ cs ∧ d ≠ '\n' := by
  rw [quoted, List.cons_append, List.mem_cons, List.mem_append, List.mem_singleton] at hd
  rcases hd with rfl | hd | rfl
  · exact absurd hb (by decide)
  · obtain ⟨c, hc, hd⟩ := List.mem_flatMap.1 hd
    obtain ⟨rfl, hne⟩ := eq_of_mem_escapeChar hd hb
    exact ⟨hc, hne⟩
  · exact absurd hb (by decide)

theorem newline_not_mem_quoted (cs : List Char) : '\n' ∉ quoted cs :=
  fun h => (mem_of_mem_quoted h (by decide)).2 rfl

theorem unbroken_quoted (h : Unbroken cs) : Unbroken (quoted cs) := by
  intro d hd
  by_contra hb
  rw [Bool.not_eq_false] at hb
  rw [h d (mem_of_mem_quoted hd hb).1] at hb
  cases hb

/-! ### Values -/

theorem newline_not_mem_boolLiteral (b : Bool) : '\n' ∉ boolLiteral b := by cases b <;> decide

theorem Numeral.newline_not_mem (h : Numeral cs) : '\n' ∉ cs := h.not_mem (by decide)

namespace Value

mutual

theorem newline_not_mem_literal : (v : Value) → '\n' ∉ v.literal
  | bool b => newline_not_mem_boolLiteral b
  | int n => (numeral_intText n).newline_not_mem
  | float x => (numeral_doubleLiteral x).newline_not_mem
  | text s => newline_not_mem_quoted _
  | list items => by
    have h := newline_not_mem_literals items
    simp [literal, h]
  | null => newline_not_mem_quoted _
  | stamp _ _ => newline_not_mem_quoted _
  | object _ => newline_not_mem_quoted _

theorem newline_not_mem_literals : (vs : List Value) → '\n' ∉ literals vs
  | [] => by simp [literals]
  | [v] => newline_not_mem_literal v
  | v :: w :: vs => by
    have hv := newline_not_mem_literal v
    have hvs := newline_not_mem_literals (w :: vs)
    simp [literals, hv, hvs]

end

end Value

/-! ### Rules -/

namespace FieldRules

/-- The texts that users put into the rules of a field. -/
def texts (r : FieldRules) : List String := r.pattern.toList ++ r.custom.toList

theorem unbroken_numberCall {name : String} (hname : Unbroken name.toList) {n : Option Num}
    {call : List Char} (h : call ∈ numberCall name n) : Unbroken call := by
  cases n with
  | none => cases h
  | some n =>
    rw [List.mem_singleton.1 h, unbroken_append, unbroken_append, unbroken_cons]
    exact ⟨⟨hname, by decide, n.numeral_literal.solid.unbroken⟩, by decide⟩

theorem unbroken_flagCall {name : String} (hname : Unbroken name.toList) {flag : Option Bool}
    {call : List Char} (h : call ∈ flagCall name flag) : Unbroken call := by
  rw [flagCall] at h
  split at h
  · rw [List.mem_singleton.1 h, unbroken_append]
    exact ⟨hname, by decide⟩
  · cases h

theorem unbroken_present {s : Option String} {wrap : List Char → List Char}
    (hs : ∀ t ∈ s, Unbroken (wrap t.toList)) {call : List Char} (h : call ∈ present s wrap) :
    Unbroken call := by
  cases s with
  | none => cases h
  | some t =>
    rw [present] at h
    split at h
    · cases h
    · rw [List.mem_singleton.1 h]
      exact hs t rfl

theorem unbroken_of_mem_calls {r : FieldRules} (hr : ∀ s ∈ r.texts, Unbroken s.toList)
    {call : List Char} (h : call ∈ r.calls) : Unbroken call := by
  have hpattern : ∀ t ∈ r.pattern, Unbroken ("regex(/".toList ++ t.toList ++ "/)".toList) := by
    intro t ht
    have hmem : t ∈ r.texts := List.mem_append.2 (Or.inl (by simpa using ht))
    rw [unbroken_append, unbroken_append]
    exact ⟨⟨by decide, hr t hmem⟩, by decide⟩
  have hcustom : ∀ t ∈ r.custom, Unbroken (id t.toList) := by
    intro t ht
    exact hr t (List.mem_append.2 (Or.inr (by simpa using ht)))
  simp only [calls, List.mem_append, or_assoc] at h
  rcases h with h | h | h | h | h | h | h | h | h | h | h | h | h | h | h
  all_goals first
    | exact unbroken_flagCall (by decide) h
    | exact unbroken_numberCall (by decide) h
    | exact unbroken_present hpattern h
    | exact unbroken_present hcustom h

/-- The rules travel as a comment. -/
theorem exists_of_comment?_eq_some {r : FieldRules} {comment : List Char}
    (h : r.comment? = some comment) : ∃ rest, comment = '/' :: '/' :: '/' :: rest := by
  rw [comment?] at h
  split at h <;> cases h
  exact ⟨_, rfl⟩

theorem unbroken_of_comment?_eq_some {r : FieldRules} (hr : ∀ s ∈ r.texts, Unbroken s.toList)
    {comment : List Char} (h : r.comment? = some comment) : Unbroken comment := by
  rw [comment?] at h
  split at h <;> cases h
  rw [unbroken_append]
  exact ⟨by decide, unbroken_joinWith (by decide) fun _ => unbroken_of_mem_calls hr⟩

end FieldRules

end ContentSchema
