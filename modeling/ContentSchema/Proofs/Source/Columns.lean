import ContentSchema.Source.Table
import Mathlib.Algebra.Group.Nat.Defs

/-!
# Columns of stored rows

The text of a column is what a lookup compares and what a failure names a row by.  A column without
a value has none, and a number that is too long to be written stops who asks for its text.

* `isOversized_iff`: which numbers are too long.
* `Row.text?_eq_some_iff`: which text a column has.
* `Row.exists_text?_of_shows`, `Row.text?_of_not_shows`: whether it can be asked for its text.
-/

namespace ContentSchema

/-- A number is too long to be written from the first power of ten on that has a digit too many. -/
theorem isOversized_iff {n : Int} : isOversized n = true ↔ 10 ^ maxDigits ≤ n.natAbs := by
  have hlength := Nat.length_toDigits_le_iff (b := 10) (n := n.natAbs) (by decide)
    (show 0 < maxDigits by decide)
  unfold isOversized Decimal.digitsText
  rw [decide_eq_true_iff]
  omega

theorem isOversized_pow : isOversized (10 ^ maxDigits : Nat) = true :=
  isOversized_iff.2 (Nat.le_of_eq (Int.natAbs_natCast _).symm)

theorem Value.holdsOversized_ofText? (s : Option String) :
    (Value.ofText? s).holdsOversized = false := by
  cases s <;> rfl

namespace Row

variable {row : Value} {key s : String}

/-- What the row has in a column can be written, if it has anything there. -/
def Shows (key : String) (row : Value) : Prop :=
  ∀ v, row.get? key = some v → v.holdsOversized = false

instance (key : String) : DecidablePred (Shows key) := fun row =>
  decidable_of_iff ((row.get? key).all fun v => !v.holdsOversized) (by
    cases h : row.get? key <;> simp [Shows, h])

theorem text?_eq_some_iff : text? key row = .ok (some s) ↔
    ∃ v, row.get? key = some v ∧ v ≠ .null ∧ v.holdsOversized = false ∧ v.display = s := by
  unfold text?
  split
  · simp_all
  · simp_all
  · rename_i v hv hget
    by_cases hlong : v.holdsOversized = true <;> simp_all

theorem exists_text?_of_shows (h : Shows key row) : ∃ shown, text? key row = .ok shown := by
  unfold text?
  split
  · exact ⟨_, rfl⟩
  · exact ⟨_, rfl⟩
  · rename_i v _ hget
    exact ⟨_, if_neg (by simp [h v hget])⟩

theorem text?_of_not_shows (h : ¬ Shows key row) :
    text? key row = .error (.slip .oversizedNumber) := by
  obtain ⟨v, hget, hlong⟩ : ∃ v, row.get? key = some v ∧ v.holdsOversized = true := by
    simpa [Shows] using h
  cases v with
  | null => simp [Value.holdsOversized] at hlong
  | _ => simp [text?, hget, hlong]

/-- A row whose columns can be written is named by its slug and its number where it holds no
definition. -/
theorem exists_payloadFailure_eq (hslug : Shows "slug" row) (hid : Shows "id" row)
    (fault : PayloadFault) : ∃ slug id, payloadFailure row fault = .payload slug id fault := by
  obtain ⟨slug, hslug⟩ := exists_text?_of_shows hslug
  obtain ⟨id, hid⟩ := exists_text?_of_shows hid
  exact ⟨slug, id, by simp only [payloadFailure, hslug, hid]; rfl⟩

end Row

end ContentSchema
