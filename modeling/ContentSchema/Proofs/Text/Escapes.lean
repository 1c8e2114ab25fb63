import ContentSchema.Proofs.Text.Lines
import ContentSchema.Text.Quoted
import Mathlib.Data.List.Basic

/-!
# Escaped texts

What stands between the quotes of a quoted text.  Each quote in it has a backslash in front, marks
that need no escape are neither lost nor added, and a text stands for itself exactly if it holds no
quotes, backslashes and control characters (`escaped_eq_self_iff`).
-/

namespace ContentSchema.Text

variable {cs x y : List Char} {c : Char}

/-- A text with its escapes. -/
def escaped (cs : List Char) : List Char := cs.flatMap escapeChar

theorem escaped_cons (c : Char) (cs : List Char) :
    escaped (c :: cs) = escapeChar c ++ escaped cs := List.flatMap_cons

theorem not_mem_hexDigits {width n : Nat} {m : Char} (hm : m ∈ ['"', '@', '(', ')']) :
    m ∉ hexDigits width n := by
  induction width generalizing n with
  | zero => exact List.not_mem_nil
  | succ width ih =>
    have hall : ∀ k < 16, ∀ m ∈ ['"', '@', '(', ')'], m ≠ hexDigit k := by decide
    rw [hexDigits, List.mem_append, List.mem_singleton, not_or]
    exact ⟨ih, hall _ (Nat.mod_lt _ (by decide)) m hm⟩

/-- A character stands for itself, or is escaped without a quote unless it is one. -/
theorem escapeChar_cases (c : Char) :
    (escapeChar c = [c] ∧ 32 ≤ c.toNat ∧ c ≠ '"' ∧ c ≠ '\\') ∨
    ∃ rest, escapeChar c = '\\' :: rest ∧ rest ≠ [] ∧ (c = '"' ∧ rest = ['"'] ∨ '"' ∉ rest) ∧
      ∀ m ∈ ['@', '(', ')'], c ≠ m ∧ m ∉ rest := by
  rw [escapeChar]
  split_ifs with h₁ h₂ h₃ h₄ h₅ h₆ h₇ h₈
  · exact Or.inr ⟨_, rfl, by simp, Or.inl ⟨h₁, rfl⟩, by subst h₁; decide⟩
  iterate 6 exact Or.inr ⟨_, rfl, by simp, Or.inr (by decide), by subst_vars; decide⟩
  · refine Or.inr ⟨_, rfl, by simp, Or.inr ?_, fun m hm => ⟨?_, ?_⟩⟩
    · simp [not_mem_hexDigits]
    · rintro rfl
      have hall : ∀ m ∈ ['@', '(', ')'], ¬ m.toNat < 32 := by decide
      exact hall _ hm h₈
    · have hu : ∀ m ∈ ['@', '(', ')'], m ≠ 'u' := by decide
      exact List.not_mem_cons_of_ne_of_not_mem (hu m hm)
        (not_mem_hexDigits (List.mem_cons_of_mem _ hm))
  · exact Or.inl ⟨rfl, Nat.le_of_not_lt h₈, h₁, h₂⟩

/-- Every quote in an escaped text has a backslash in front. -/
theorem exists_of_escaped_eq (h : escaped cs = x ++ '"' :: y) : ∃ x', x = x' ++ ['\\'] := by
  induction cs generalizing x with
  | nil => simp [escaped] at h
  | cons c cs ih =>
    rw [escaped_cons] at h
    -- the quote belongs to the escape of the first character or to what follows it
    rcases List.append_eq_append_iff.1 h with ⟨as, rfl, hrest⟩ | ⟨bs, hchar, hrest⟩
    · obtain ⟨x', rfl⟩ := ih hrest
      exact ⟨_, (List.append_assoc _ _ _).symm⟩
    cases bs with
    | nil =>
      obtain ⟨x', hx'⟩ := ih (x := []) hrest.symm
      simp at hx'
    | cons b bs =>
      obtain ⟨rfl, -⟩ := List.cons.inj hrest
      rcases escapeChar_cases c with ⟨hself, -, hne, -⟩ | ⟨rest, hescape, -, hquote, -⟩
      · have hmem : '"' ∈ [c] := hself ▸ hchar ▸ List.mem_append_right x List.mem_cons_self
        exact absurd (List.mem_singleton.1 hmem).symm hne
      · rw [hescape] at hchar
        rcases List.cons_eq_append_iff.1 hchar with ⟨-, hnil⟩ | ⟨x', rfl, hx'⟩
        · cases hnil
        · have hmem : '"' ∈ rest := hx' ▸ List.mem_append_right x' List.mem_cons_self
          obtain ⟨-, rfl⟩ := hquote.resolve_right (· hmem)
          rcases List.singleton_eq_append_iff.1 hx' with ⟨rfl, -⟩ | ⟨-, hnil⟩
          · exact ⟨[], rfl⟩
          · cases hnil

/-- Marks that need no escape are as often in the escaped text. -/
theorem count_escaped {m : Char} (hm : m ∈ ['@', '(', ')']) (cs : List Char) :
    (escaped cs).count m = cs.count m := by
  induction cs with
  | nil => rfl
  | cons c cs ih =>
    have hbackslash : ∀ m ∈ ['@', '(', ')'], m ≠ '\\' := by decide
    rw [escaped_cons, List.count_append, ih]
    rcases escapeChar_cases c with ⟨hself, -⟩ | ⟨rest, hescape, -, -, hmarks⟩
    · rw [hself, ← List.count_append, List.singleton_append]
    · obtain ⟨hne, hmem⟩ := hmarks m hm
      rw [hescape, List.count_cons_of_ne (hbackslash m hm).symm, List.count_eq_zero.2 hmem,
        List.count_cons_of_ne hne, Nat.zero_add]

theorem quote_not_mem_escaped (h : '"' ∉ cs) : '"' ∉ escaped cs := by
  intro hmem
  obtain ⟨c, hc, hquote⟩ := List.mem_flatMap.1 hmem
  rcases escapeChar_cases c with ⟨hself, -, hne, -⟩ | ⟨rest, hescape, -, hrest, -⟩
  · rw [hself] at hquote
    exact hne (List.mem_singleton.1 hquote).symm
  · rw [hescape, List.mem_cons] at hquote
    rcases hquote with hbackslash | hquote
    · cases hbackslash
    · rcases hrest with ⟨rfl, -⟩ | hrest
      · exact h hc
      · exact hrest hquote

theorem length_le_escaped (cs : List Char) : cs.length ≤ (escaped cs).length := by
  induction cs with
  | nil => exact Nat.le_refl _
  | cons c cs ih =>
    have hpos : 1 ≤ (escapeChar c).length := by
      rcases escapeChar_cases c with ⟨hself, -⟩ | ⟨rest, hescape, -⟩
      · rw [hself]
        exact Nat.le_refl _
      · rw [hescape]
        exact Nat.succ_le_succ (Nat.zero_le _)
    rw [escaped_cons, List.length_append, List.length_cons]
    omega

/-- A text stands for itself if nothing in it needs an escape. -/
theorem escaped_eq_self_iff :
    escaped cs = cs ↔ ∀ c ∈ cs, 32 ≤ c.toNat ∧ c ≠ '"' ∧ c ≠ '\\' := by
  induction cs with
  | nil => simp [escaped]
  | cons c cs ih =>
    rw [escaped_cons, List.forall_mem_cons, ← ih]
    constructor
    · intro h
      rcases escapeChar_cases c with ⟨hself, hplain⟩ | ⟨rest, hescape, hne, -⟩
      · rw [hself, List.singleton_append, List.cons_inj_right] at h
        exact ⟨hplain, h⟩
      · -- the escape would make the text longer
        have hlength := congrArg List.length h
        have hle := length_le_escaped cs
        have hpos := List.length_pos_of_ne_nil hne
        rw [hescape, List.length_append, List.length_cons, List.length_cons] at hlength
        omega
    · rintro ⟨⟨hcontrol, hquote, hbackslash⟩, hcs⟩
      have hcontrols : ∀ d ∈ ['\n', '\r', '\t', '\x08', '\x0c'], d.toNat < 32 := by decide
      have hne : ∀ d ∈ ['\n', '\r', '\t', '\x08', '\x0c'], c ≠ d := by
        rintro d hd rfl
        exact absurd (hcontrols _ hd) (by omega)
      have hself : escapeChar c = [c] := by
        simp only [List.forall_mem_cons] at hne
        simp [escapeChar, hquote, hbackslash, hne]
        omega
      rw [hself, hcs, List.singleton_append]

end ContentSchema.Text
