import Mathlib.Data.List.Basic
import Mathlib.Data.List.Pairwise

/-!
# Items that repeat earlier ones

Leaving out the items of a list that repeat earlier ones, in the sense of some relation: each item
of the list before picking, between parts of the list and within them.
-/

namespace ContentSchema

variable {α : Type} {r : α → α → Bool} {p : α → Bool} {as bs l : List α} {a b : α}

/-- What holds of a list if it holds of its rest without the items that repeat the first one, holds
of all lists. -/
theorem repeats_induction (r : α → α → Bool) {motive : List α → Prop} (nil : motive [])
    (cons : ∀ a l, motive (l.filter fun b => decide (r b a = false)) → motive (a :: l))
    (l : List α) : motive l := by
  induction hn : l.length using Nat.strongRecOn generalizing l with
  | ind n ih =>
    cases l with
    | nil => exact nil
    | cons a l =>
      refine cons a l (ih _ ?_ _ rfl)
      have hle := List.length_filter_le (fun b => decide (r b a = false)) l
      rw [List.length_cons] at hn
      omega

theorem eraseDupsBy_subset : l.eraseDupsBy r ⊆ l := by
  induction l using repeats_induction r with
  | nil => exact List.Subset.refl _
  | cons a l ih =>
    rw [List.eraseDupsBy_cons]
    exact List.cons_subset_cons a fun b hb => (List.mem_filter.1 (ih hb)).1

theorem eraseDupsBy_eq_nil_iff : l.eraseDupsBy r = [] ↔ l = [] := by
  cases l with
  | nil => simp
  | cons a l => simp [List.eraseDupsBy_cons]

/-- No item that is left repeats an earlier one. -/
theorem pairwise_eraseDupsBy : (l.eraseDupsBy r).Pairwise fun a b => r b a = false := by
  induction l using repeats_induction r with
  | nil => exact List.Pairwise.nil
  | cons a l ih =>
    rw [List.eraseDupsBy_cons]
    refine List.pairwise_cons.2 ⟨fun b hb => ?_, ih⟩
    simpa using (List.mem_filter.1 (eraseDupsBy_subset hb)).2

/-- If all items repeat each other, there is one that repeats no earlier one. -/
theorem eq_singleton_of_repeats (hl : l.Pairwise fun a b => r b a = false)
    (hall : ∀ a ∈ l, ∀ b ∈ l, r a b = true) (ha : a ∈ l) : l = [a] := by
  cases l with
  | nil => cases ha
  | cons b l =>
    have hrest : l = [] := List.eq_nil_iff_forall_not_mem.2 fun c hc => by
      have hrepeats := hall c (List.mem_cons_of_mem _ hc) b List.mem_cons_self
      rw [(List.pairwise_cons.1 hl).1 c hc] at hrepeats
      cases hrepeats
    rw [hrest] at ha ⊢
    rw [List.mem_singleton.1 ha]

/-- A list is left as it is if no item repeats an earlier one. -/
theorem eraseDupsBy_eq_self (h : l.Pairwise fun a b => r b a = false) : l.eraseDupsBy r = l := by
  induction h with
  | nil => rfl
  | cons ha _ ih => rw [List.eraseDupsBy_cons, List.filter_eq_self.2 (by simpa using ha), ih]

/-- Items can be picked before or after, if those that repeat each other are picked together. -/
theorem eraseDupsBy_filter (hp : ∀ a b, r a b = true → p a = p b) :
    (l.filter p).eraseDupsBy r = (l.eraseDupsBy r).filter p := by
  induction l using repeats_induction r with
  | nil => rfl
  | cons a l ih =>
    rw [List.eraseDupsBy_cons, List.filter_cons, List.filter_cons, ← ih, List.filter_comm]
    split
    · rw [List.eraseDupsBy_cons]
    · rename_i hpa
      -- no item that is picked repeats this one
      have hself : (l.filter p).filter (fun b => decide (r b a = false)) = l.filter p := by
        rw [List.filter_eq_self]
        intro b hb
        rw [decide_eq_true_eq, Bool.eq_false_iff]
        exact fun hr => hpa (hp b a hr ▸ (List.mem_filter.1 hb).2)
      rw [hself]

/-! ### Repetition that passes on -/

section Transitive

variable (htrans : ∀ a b c, r a b = true → r b c = true → r a c = true)
include htrans

/-- Of two lists after each other, the second one loses what repeats items of the first one, too. -/
theorem eraseDupsBy_append :
    (as ++ bs).eraseDupsBy r =
      as.eraseDupsBy r ++ (bs.filter fun b => !as.any (r b ·)).eraseDupsBy r := by
  induction as using repeats_induction r generalizing bs with
  | nil => simp
  | cons a as ih =>
    rw [List.cons_append, List.eraseDupsBy_cons, List.eraseDupsBy_cons, List.filter_append, ih,
      List.filter_filter, List.cons_append]
    congr 3
    refine List.filter_congr fun b _ => ?_
    rw [Bool.eq_iff_iff]
    simp only [List.any_cons, List.any_filter, Bool.not_eq_true', Bool.and_eq_true,
      decide_eq_true_eq, List.any_eq_false, Bool.or_eq_false_iff, Bool.not_eq_true]
    constructor
    · rintro ⟨hany, hba⟩
      refine ⟨hba, fun c hc => ?_⟩
      by_contra hbc
      rw [Bool.not_eq_false] at hbc
      by_cases hca : r c a = true
      · rw [htrans b c a hbc hca] at hba
        cases hba
      · exact hany c hc ⟨by simpa using hca, hbc⟩
    · rintro ⟨hba, hany⟩
      refine ⟨fun c hc hbc => ?_, hba⟩
      rw [hany c hc] at hbc
      cases hbc.2

/-- What repeats an item of a list repeats one that is left. -/
theorem any_eraseDupsBy : (l.eraseDupsBy r).any (r b ·) = l.any (r b ·) := by
  induction l using repeats_induction r with
  | nil => rfl
  | cons a l ih =>
    rw [List.eraseDupsBy_cons, List.any_cons, List.any_cons, ih, List.any_filter]
    cases hba : r b a with
    | true => rfl
    | false =>
      rw [Bool.false_or, Bool.false_or]
      refine List.any_congr rfl fun c => ?_
      cases hbc : r b c with
      | false => rw [Bool.and_false]
      | true =>
        have hca : r c a = false := by
          by_contra hca
          rw [htrans b c a hbc (by simpa using hca)] at hba
          cases hba
        rw [hca]
        rfl

variable (hsymm : ∀ a b, r a b = true → r b a = true)
include hsymm

/-- Items that repeat each other repeat the same items of a list. -/
theorem any_congr_of_repeats (h : r a b = true) : l.any (r a ·) = l.any (r b ·) := by
  refine List.any_congr rfl fun c => ?_
  rw [Bool.eq_iff_iff]
  exact ⟨htrans b a c (hsymm a b h), htrans a b c h⟩

/-- Repetitions within the parts of a list can be left out before those between the parts. -/
theorem eraseDupsBy_flatMap {parts : List (List α)} :
    (parts.flatMap (·.eraseDupsBy r)).eraseDupsBy r = parts.flatten.eraseDupsBy r := by
  induction parts with
  | nil => rfl
  | cons l parts ih =>
    have hp : ∀ a b, r a b = true → (!l.any (r a ·)) = !l.any (r b ·) := fun a b h => by
      rw [any_congr_of_repeats htrans hsymm h]
    rw [List.flatMap_cons, List.flatten_cons, eraseDupsBy_append htrans, eraseDupsBy_append htrans,
      eraseDupsBy_eq_self pairwise_eraseDupsBy]
    simp only [any_eraseDupsBy htrans]
    rw [eraseDupsBy_filter hp, eraseDupsBy_filter hp, ih]

end Transitive

end ContentSchema
