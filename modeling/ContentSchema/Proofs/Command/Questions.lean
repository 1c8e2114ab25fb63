import ContentSchema.Command.Questions

/-!
# Lines that a dialogue takes

A dialogue takes one line of input for each question, so that it comes to its end exactly if there
are as many lines as questions.

* `Dialogue.Takes.bind`: one dialogue after another takes the lines of both.
* `Answers.takes_ask`: a new configuration takes seven lines.
-/

namespace ContentSchema

variable {α β : Type}

/-! ### Lines of input -/

/-- The number of lines of an input, of which the last one may lack its end. -/
def lineCount : List Char → Nat
  | [] => 0
  | c :: cs => if c = '\n' then lineCount cs + 1 else max 1 (lineCount cs)

theorem lineCount_pos {cs : List Char} (h : cs ≠ []) : 0 < lineCount cs := by
  cases cs with
  | nil => exact absurd rfl h
  | cons c cs =>
    rw [lineCount]
    split <;> omega

/-- Behind a line there is one line less. -/
theorem lineCount_behind {cs : List Char} (h : cs ≠ []) :
    lineCount (cs.drop ((cs.takeWhile (· ≠ '\n')).length + 1)) + 1 = lineCount cs := by
  induction cs with
  | nil => exact absurd rfl h
  | cons c cs ih =>
    by_cases hc : c = '\n'
    · simp [hc, lineCount]
    · rw [List.takeWhile_cons_of_pos (by simpa using hc), List.length_cons, List.drop_succ_cons,
        lineCount, if_neg hc]
      by_cases hcs : cs = []
      · subst hcs
        rfl
      · have hpos := lineCount_pos hcs
        rw [ih hcs]
        omega

/-! ### Dialogues -/

/-- A dialogue takes a number of lines: it stops where there are fewer, and otherwise has a result
and leaves the rest. -/
structure Dialogue.Takes (n : Nat) (d : Dialogue α) : Prop where
  /-- Where there are fewer lines the input ends. -/
  stops : ∀ t, lineCount t.input < n → (d t).1 = .error ⟨⟩
  /-- The other lines are left. -/
  goesOn : ∀ t, n ≤ lineCount t.input →
    ∃ a t', d t = (.ok a, t') ∧ lineCount t'.input + n = lineCount t.input

namespace Dialogue.Takes

theorem pure (a : α) : Takes 0 (Pure.pure a : Dialogue α) where
  stops _ h := absurd h (Nat.not_lt_zero _)
  goesOn t _ := ⟨a, t, rfl, rfl⟩

/-- One dialogue after another takes the lines of both. -/
theorem bind {m n : Nat} {d : Dialogue α} {next : α → Dialogue β} (hd : Takes m d)
    (hnext : ∀ a, Takes n (next a)) : Takes (n + m) (d >>= next) where
  stops t ht := by
    show (Dialogue.bind d next t).1 = _
    rw [Dialogue.bind]
    by_cases hm : lineCount t.input < m
    · have hstops := hd.stops t hm
      generalize d t = r at hstops
      obtain ⟨e | a, t'⟩ := r
      · cases hstops
        rfl
      · cases hstops
    · obtain ⟨a, t', hr, hrest⟩ := hd.goesOn t (by omega)
      rw [hr]
      exact (hnext a).stops t' (by omega)
  goesOn t ht := by
    obtain ⟨a, t', hr, hrest⟩ := hd.goesOn t (by omega)
    obtain ⟨b, t'', hr', hrest'⟩ := (hnext a).goesOn t' (by omega)
    refine ⟨b, t'', ?_, by omega⟩
    show Dialogue.bind d next t = _
    rw [Dialogue.bind, hr]
    exact hr'

theorem prompt (text : String) : Takes 1 (prompt text) where
  stops := by
    rintro ⟨shown, input⟩ h
    cases input with
    | nil => rfl
    | cons c cs =>
      have hpos := lineCount_pos (List.cons_ne_nil c cs)
      dsimp only at h
      omega
  goesOn := by
    rintro ⟨shown, input⟩ h
    cases input with
    | nil => exact absurd (show 1 ≤ lineCount [] from h) (by decide)
    | cons c cs => exact ⟨_, _, rfl, lineCount_behind (List.cons_ne_nil c cs)⟩

theorem ask (question default : String) : Takes 1 (ask question default) :=
  (prompt _).bind fun _ => .pure _

end Dialogue.Takes

/-- A new configuration takes a line for each of its seven questions. -/
theorem Answers.takes_ask : Dialogue.Takes 7 Answers.ask := by
  refine .bind (.ask _ _) fun connection => ?_
  refine .bind (.ask _ _) fun models => ?_
  refine .bind (.ask _ _) fun components => ?_
  refine .bind (.ask _ _) fun schemaPath => ?_
  refine .bind (.ask _ _) fun provider => ?_
  refine .bind (.ask _ _) fun convention => ?_
  exact .bind (.ask _ _) fun translated => .pure _

end ContentSchema
