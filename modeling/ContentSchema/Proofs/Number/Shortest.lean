import ContentSchema.Number.Decimal
import Mathlib.Algebra.Order.Field.Power
import Mathlib.Algebra.Order.Floor.Semifield
import Mathlib.Data.Rat.Floor
import Mathlib.Tactic.FieldSimp
import Mathlib.Tactic.Linarith
import Mathlib.Tactic.Ring

/-!
# Shortest decimals

The search for the shortest decimal of a double ends at one that reads back, on a grid that is fine
enough (`Decimal.close_shortest`).  It lies on the same side of every power of ten as the double,
but for a double that the power itself reads back as.  So the place of its first digit says between
which powers of ten the double lies (`Decimal.neg_four_le_order_iff`).
-/

namespace ContentSchema.Decimal

/-! ### Ratios and decimals as rational numbers -/

namespace Ratio

/-- The number that a ratio stands for. -/
def toRat (r : Ratio) : ℚ := r.num / r.den

variable {a b : Ratio}

theorem lt_iff (ha : 0 < a.den) (hb : 0 < b.den) : a.lt b = true ↔ a.toRat < b.toRat := by
  have ha' : (0 : ℚ) < a.den := Nat.cast_pos.2 ha
  have hb' : (0 : ℚ) < b.den := Nat.cast_pos.2 hb
  rw [lt, decide_eq_true_iff, toRat, toRat, div_lt_div_iff₀ ha' hb']
  exact_mod_cast Iff.rfl

theorem le_iff (ha : 0 < a.den) (hb : 0 < b.den) : a.le b = true ↔ a.toRat ≤ b.toRat := by
  have ha' : (0 : ℚ) < a.den := Nat.cast_pos.2 ha
  have hb' : (0 : ℚ) < b.den := Nat.cast_pos.2 hb
  rw [le, decide_eq_true_iff, toRat, toRat, div_le_div_iff₀ ha' hb']
  exact_mod_cast Iff.rfl

theorem den_scaled_pos {base : Nat} (hbase : 0 < base) (m : Nat) (e : Int) :
    0 < (scaled m base e).den := by
  rw [scaled]
  split
  · exact Nat.one_pos
  · exact Nat.pow_pos hbase

theorem toRat_scaled (m base : Nat) (e : Int) : (scaled m base e).toRat = m * (base : ℚ) ^ e := by
  rw [scaled]
  split
  · rename_i he
    obtain ⟨n, rfl⟩ := Int.eq_ofNat_of_zero_le he
    simp [toRat]
  · rename_i he
    obtain ⟨n, hn⟩ := Int.eq_ofNat_of_zero_le (a := -e) (by omega)
    obtain rfl : e = -(n : Int) := by omega
    simp [toRat, div_eq_mul_inv]

end Ratio

/-- The number that a decimal stands for. -/
def toRat (d : Decimal) : ℚ := d.digits * 10 ^ d.exponent

/-- The number `m * 2 ^ q`. -/
def binary (m : Nat) (q : Int) : ℚ := m * 2 ^ q

theorem ten_zpow_pos (e : Int) : (0 : ℚ) < 10 ^ e := zpow_pos (by norm_num) e

theorem two_zpow_pos (e : Int) : (0 : ℚ) < 2 ^ e := zpow_pos (by norm_num) e

variable {m : Nat} {q e : Int} {d : Decimal}

/-- The number in quarters of its unit. -/
theorem binary_eq_quarters (m : Nat) (q : Int) : binary m q = 4 * m * 2 ^ (q - 2) := by
  rw [binary, zpow_sub₀ (by norm_num)]
  ring

/-! ### Decimals that read back -/

theorem le_of_readsBack (h : readsBack m q d = true) : d.toRat ≤ (4 * m + 2) * 2 ^ (q - 2) := by
  have hden : ∀ n, 0 < (Ratio.scaled n 2 (q - 2)).den := fun n =>
    Ratio.den_scaled_pos (by decide) n _
  have hden' : 0 < (Ratio.scaled d.digits 10 d.exponent).den := Ratio.den_scaled_pos (by decide) _ _
  have hle : (Ratio.scaled d.digits 10 d.exponent).toRat ≤
      (Ratio.scaled (4 * m + 2) 2 (q - 2)).toRat := by
    rw [readsBack, roundingEnds] at h
    dsimp only at h
    split at h
    · exact (Ratio.le_iff hden' (hden _)).1 (Bool.and_eq_true_iff.1 h).2
    · exact ((Ratio.lt_iff hden' (hden _)).1 (Bool.and_eq_true_iff.1 h).2).le
  rw [Ratio.toRat_scaled, Ratio.toRat_scaled] at hle
  exact_mod_cast hle

/-- What is nearer than a quarter of a unit reads back. -/
theorem readsBack_of_near (hm : 0 < m) (h : |d.toRat - binary m q| < 2 ^ (q - 2)) :
    readsBack m q d = true := by
  have hden : ∀ n, 0 < (Ratio.scaled n 2 (q - 2)).den := fun n =>
    Ratio.den_scaled_pos (by decide) n _
  have hden' : 0 < (Ratio.scaled d.digits 10 d.exponent).den := Ratio.den_scaled_pos (by decide) _ _
  have hd : (Ratio.scaled d.digits 10 d.exponent).toRat = d.toRat := by
    rw [Ratio.toRat_scaled]
    rfl
  obtain ⟨hlow, hhigh⟩ := abs_lt.1 h
  rw [binary_eq_quarters] at hlow hhigh
  have hunit := two_zpow_pos (q - 2)
  have hlo : (Ratio.scaled (if m = Nat.pow 2 52 ∧ -1074 < q then 4 * m - 1 else 4 * m - 2)
      2 (q - 2)).toRat < d.toRat := by
    rw [Ratio.toRat_scaled]
    have hcast : ((if m = Nat.pow 2 52 ∧ -1074 < q then 4 * m - 1 else 4 * m - 2 : Nat) : ℚ) ≤
        4 * m - 1 := by
      rw [le_sub_iff_add_le]
      exact_mod_cast (by split <;> omega)
    have := mul_le_mul_of_nonneg_right hcast hunit.le
    push_cast at this ⊢
    linarith
  have hhi : d.toRat < (Ratio.scaled (4 * m + 2) 2 (q - 2)).toRat := by
    rw [Ratio.toRat_scaled]
    push_cast
    linarith
  rw [← hd] at hlo hhi
  rw [readsBack, roundingEnds]
  dsimp only
  split
  · exact Bool.and_eq_true_iff.2
      ⟨(Ratio.le_iff (hden _) hden').2 hlo.le, (Ratio.le_iff hden' (hden _)).2 hhi.le⟩
  · exact Bool.and_eq_true_iff.2
      ⟨(Ratio.lt_iff (hden _) hden').2 hlo, (Ratio.lt_iff hden' (hden _)).2 hhi⟩

/-! ### Grids -/

/-- The number `m * 2 ^ q` in units of `10 ^ e`. -/
def inUnits (m : Nat) (q e : Int) : Ratio :=
  let x := Ratio.scaled m 2 q
  if 0 ≤ e then ⟨x.num, x.den * Nat.pow 10 e.toNat⟩ else ⟨x.num * Nat.pow 10 (-e).toNat, x.den⟩

theorem den_inUnits_pos (m : Nat) (q e : Int) : 0 < (inUnits m q e).den := by
  have hden := Ratio.den_scaled_pos Nat.two_pos m q
  rw [inUnits]
  split
  · exact Nat.mul_pos hden (Nat.pow_pos (by decide))
  · exact hden

theorem toRat_inUnits (m : Nat) (q e : Int) : (inUnits m q e).toRat * 10 ^ e = binary m q := by
  have hx := Ratio.toRat_scaled m 2 q
  have hden : ((Ratio.scaled m 2 q).den : ℚ) ≠ 0 :=
    Nat.cast_ne_zero.2 (Ratio.den_scaled_pos (by decide) m q).ne'
  rw [Ratio.toRat] at hx
  rw [binary, ← Nat.cast_two, ← hx, inUnits]
  split
  · rename_i he
    obtain ⟨n, rfl⟩ := Int.eq_ofNat_of_zero_le he
    simp only [Ratio.toRat, Int.toNat_natCast, Nat.pow_eq, zpow_natCast]
    push_cast
    field_simp
  · rename_i he
    obtain ⟨n, hn⟩ := Int.eq_ofNat_of_zero_le (a := -e) (by omega)
    obtain rfl : e = -(n : Int) := by omega
    simp only [Ratio.toRat, neg_neg, Int.toNat_natCast, Nat.pow_eq, zpow_neg, zpow_natCast]
    push_cast
    field_simp

/-- The point of the grid at or below `m * 2 ^ q`. -/
def below (m : Nat) (q e : Int) : Nat := (inUnits m q e).num / (inUnits m q e).den

/-- No point of the grid at or below `m * 2 ^ q` is passed over. -/
theorem le_below {n : Nat} (h : n * (10 : ℚ) ^ e ≤ binary m q) : n ≤ below m q e := by
  have hden : (0 : ℚ) < (inUnits m q e).den := Nat.cast_pos.2 (den_inUnits_pos m q e)
  rw [← toRat_inUnits m q e, mul_le_mul_iff_of_pos_right (ten_zpow_pos e), Ratio.toRat,
    le_div_iff₀ hden] at h
  rw [below, Nat.le_div_iff_mul_le (den_inUnits_pos m q e)]
  exact_mod_cast h

/-- The quotient of two natural numbers is at most a half away from the whole number on the side to
which its rest is short. -/
theorem Ratio.abs_sub_toRat_le {r : Ratio} (h : 0 < r.den) :
    (2 * (r.num % r.den) ≤ r.den → |((r.num / r.den : Nat) : ℚ) - r.toRat| ≤ 1 / 2) ∧
      (r.den ≤ 2 * (r.num % r.den) → |((r.num / r.den + 1 : Nat) : ℚ) - r.toRat| ≤ 1 / 2) := by
  have hden : (0 : ℚ) < r.den := Nat.cast_pos.2 h
  have hsplit : r.toRat = (r.num / r.den : Nat) + ((r.num % r.den : Nat) : ℚ) / r.den := by
    have hdivision : (r.num : ℚ) = r.den * (r.num / r.den : Nat) + (r.num % r.den : Nat) := by
      exact_mod_cast (Nat.div_add_mod r.num r.den).symm
    rw [toRat]
    conv_lhs => rw [hdivision]
    field_simp
  have hnonneg : (0 : ℚ) ≤ (r.num % r.den : Nat) / r.den := div_nonneg (Nat.cast_nonneg _) hden.le
  have hone : ((r.num % r.den : Nat) : ℚ) / r.den ≤ 1 := by
    rw [div_le_one hden]
    exact_mod_cast (Nat.mod_lt _ h).le
  constructor
  · intro hshort
    have hhalf : ((r.num % r.den : Nat) : ℚ) / r.den ≤ 1 / 2 := by
      rw [div_le_div_iff₀ hden two_pos]
      exact_mod_cast (by omega : r.num % r.den * 2 ≤ 1 * r.den)
    rw [hsplit, abs_le]
    constructor <;> linarith
  · intro hlong
    have hhalf : (1 : ℚ) / 2 ≤ (r.num % r.den : Nat) / r.den := by
      rw [div_le_div_iff₀ two_pos hden]
      exact_mod_cast (by omega : 1 * r.den ≤ r.num % r.den * 2)
    rw [hsplit, abs_le]
    push_cast
    constructor <;> linarith

theorem abs_toRat_sub_binary (n m : Nat) (q e : Int) :
    |toRat ⟨n, e⟩ - binary m q| = |(n : ℚ) - (inUnits m q e).toRat| * 10 ^ e := by
  rw [toRat, ← toRat_inUnits m q e, ← sub_mul, abs_mul, abs_of_pos (ten_zpow_pos e)]

/-- The two neighbours are points of the grid, at or above the one below the number, and the first
one is at most half a unit away. -/
theorem exists_neighbours (m : Nat) (q e : Int) : ∃ d d', neighbours m q e = [d, d'] ∧
    (∀ c ∈ [d, d'], c.exponent = e ∧ below m q e ≤ c.digits) ∧
      |d.toRat - binary m q| ≤ 10 ^ e / 2 := by
  obtain ⟨hdown, hup⟩ := Ratio.abs_sub_toRat_le (den_inUnits_pos m q e)
  have hhalf : ∀ n : Nat, |(n : ℚ) - (inUnits m q e).toRat| ≤ 1 / 2 →
      |toRat ⟨n, e⟩ - binary m q| ≤ 10 ^ e / 2 := by
    intro n hn
    rw [abs_toRat_sub_binary]
    have := mul_le_mul_of_nonneg_right hn (ten_zpow_pos e).le
    linarith
  have heq : neighbours m q e =
      if (2 * ((inUnits m q e).num % (inUnits m q e).den) < (inUnits m q e).den ||
        (2 * ((inUnits m q e).num % (inUnits m q e).den) == (inUnits m q e).den &&
          below m q e % 2 == 0))
      then [⟨below m q e, e⟩, ⟨below m q e + 1, e⟩]
      else [⟨below m q e + 1, e⟩, ⟨below m q e, e⟩] := rfl
  rw [heq]
  split
  · rename_i hfirst
    rw [Bool.or_eq_true, Bool.and_eq_true, decide_eq_true_iff, beq_iff_eq] at hfirst
    exact ⟨_, _, rfl, by simp, hhalf _ (hdown (by omega))⟩
  · rename_i hfirst
    rw [Bool.or_eq_true, Bool.and_eq_true, decide_eq_true_iff, beq_iff_eq, not_or] at hfirst
    exact ⟨_, _, rfl, by simp, hhalf _ (hup (by omega))⟩

/-! ### The search -/

/-- The decimal is positive, not above all numbers that read back, and below no power of ten that
the number reaches. -/
structure Close (m : Nat) (q : Int) (d : Decimal) : Prop where
  /-- There are digits. -/
  pos : 0 < d.digits
  /-- The decimal is at most half a unit above the number. -/
  le : d.toRat ≤ (4 * m + 2) * 2 ^ (q - 2)
  /-- No power of ten lies between the number and a smaller decimal. -/
  power_le : ∀ p : Int, 10 ^ p ≤ binary m q → 10 ^ p ≤ d.toRat

/-- What the search looks for. -/
def accepts (m : Nat) (q : Int) (d : Decimal) : Bool := d.digits != 0 && readsBack m q d

/-- A neighbour that is accepted is close. -/
theorem close_of_mem_neighbours (hd : d ∈ neighbours m q e) (h : accepts m q d = true) :
    Close m q d := by
  obtain ⟨d₁, d₂, heq, hgrid, -⟩ := exists_neighbours m q e
  obtain ⟨rfl, hbelow⟩ := hgrid d (heq ▸ hd)
  obtain ⟨hne, hback⟩ := Bool.and_eq_true_iff.1 h
  have hpos : 0 < d.digits := Nat.pos_of_ne_zero (by simpa using hne)
  refine ⟨hpos, le_of_readsBack hback, fun p hp => ?_⟩
  have hunit := ten_zpow_pos d.exponent
  rw [toRat]
  rcases le_total d.exponent p with hle | hle
  · -- the power is a point of the grid
    obtain ⟨k, hk⟩ := Int.eq_ofNat_of_zero_le (Int.sub_nonneg_of_le hle)
    have hpower : (10 : ℚ) ^ p = (10 ^ k : Nat) * 10 ^ d.exponent := by
      rw [Nat.cast_pow, Nat.cast_ofNat, ← zpow_natCast, ← zpow_add₀ (by norm_num)]
      congr 1
      omega
    rw [hpower] at hp ⊢
    exact mul_le_mul_of_nonneg_right (Nat.cast_le.2 ((le_below hp).trans hbelow)) hunit.le
  · have hone : (1 : ℚ) ≤ d.digits := Nat.one_le_cast.2 hpos
    calc (10 : ℚ) ^ p ≤ 10 ^ d.exponent := zpow_le_zpow_right₀ (by norm_num) hle
      _ = 1 * 10 ^ d.exponent := (one_mul _).symm
      _ ≤ d.digits * 10 ^ d.exponent := mul_le_mul_of_nonneg_right hone hunit.le

/-- The search ends at a close decimal if its last grid has one. -/
theorem close_searchGrids {fuel : Nat} {start : Int}
    (hlast : ∃ d ∈ neighbours m q (start - fuel), accepts m q d = true) :
    Close m q (searchGrids m q (fuel + 1) start) := by
  induction fuel generalizing start with
  | zero =>
    obtain ⟨d, hd, haccepts⟩ := hlast
    rw [Nat.cast_zero, sub_zero] at hd
    rw [searchGrids]
    split
    · rename_i found hfound
      exact close_of_mem_neighbours (List.mem_of_find?_eq_some hfound) (List.find?_some hfound)
    · rename_i hnone
      exact absurd haccepts (List.find?_eq_none.1 hnone d hd)
  | succ fuel ih =>
    rw [searchGrids]
    split
    · rename_i found hfound
      exact close_of_mem_neighbours (List.mem_of_find?_eq_some hfound) (List.find?_some hfound)
    · refine ih ?_
      have hgrid : start - (fuel + 1 : Nat) = start - 1 - fuel := by
        push_cast
        ring
      rwa [hgrid] at hlast

/-- A grid with more than seventeen digits before its unit has a decimal that reads back. -/
theorem exists_accepts (hm : 0 < m) (hm' : m < 2 ^ 53) (h : 10 ^ (e + 18) ≤ binary m q) :
    ∃ d ∈ neighbours m q e, accepts m q d = true := by
  obtain ⟨d, d', heq, hgrid, hnear⟩ := exists_neighbours m q e
  refine ⟨d, heq ▸ List.mem_cons_self, Bool.and_eq_true_iff.2 ⟨?_, readsBack_of_near hm ?_⟩⟩
  · have hbelow : 10 ^ 18 ≤ below m q e := by
      refine le_below (le_of_eq_of_le ?_ h)
      rw [zpow_add₀ (by norm_num)]
      push_cast
      rw [mul_comm]
    have := (hgrid d List.mem_cons_self).2
    simp only [bne_iff_ne, ne_eq]
    omega
  · have hmantissa : (m : ℚ) < 2 ^ 53 := by exact_mod_cast hm'
    have hunit := two_zpow_pos (q - 2)
    have hbinary := mul_lt_mul_of_pos_right hmantissa hunit
    rw [binary_eq_quarters, zpow_add₀ (by norm_num)] at h
    norm_num at h hbinary
    refine hnear.trans_lt ?_
    linarith

/-! ### The first digit -/

/-- A positive number lies between the powers of ten that its number of digits names. -/
theorem length_digitsText_bounds {n : Nat} (hn : 0 < n) :
    10 ^ ((digitsText n).length - 1) ≤ n ∧ n < 10 ^ (digitsText n).length := by
  have hpos : 0 < (digitsText n).length := Nat.length_toDigits_pos
  refine ⟨?_, (Nat.length_toDigits_le_iff (by decide) hpos).1 le_rfl⟩
  rcases Nat.eq_zero_or_pos ((digitsText n).length - 1) with hzero | hlong
  · rw [hzero]
    exact hn
  · by_contra hlt
    have := (Nat.length_toDigits_le_iff (by decide) hlong).2 (Nat.lt_of_not_le hlt)
    rw [digitsText] at *
    omega

/-- Where the search starts. -/
def start (m : Nat) (q : Int) : Int :=
  let x := Ratio.scaled m 2 q
  if x.num / x.den = 0 then 1 - ((digitsText (x.den / x.num)).length : Int)
  else ((digitsText (x.num / x.den)).length : Int)

theorem num_scaled_pos (hm : 0 < m) : 0 < (Ratio.scaled m 2 q).num := by
  rw [Ratio.scaled]
  split
  · exact Nat.mul_pos hm (Nat.pow_pos (by decide))
  · exact hm

/-- The first grid is at most one digit too coarse. -/
theorem power_start_le (hm : 0 < m) : 10 ^ (start m q - 1) ≤ binary m q := by
  have hnum := num_scaled_pos (q := q) hm
  have hden := Ratio.den_scaled_pos Nat.two_pos m q
  have hx : ((Ratio.scaled m 2 q).num : ℚ) / (Ratio.scaled m 2 q).den = binary m q := by
    have := Ratio.toRat_scaled m 2 q
    rwa [Ratio.toRat, Nat.cast_two] at this
  rw [start, ← hx]
  generalize Ratio.scaled m 2 q = x at hnum hden
  have hnum' : (0 : ℚ) < x.num := Nat.cast_pos.2 hnum
  have hden' : (0 : ℚ) < x.den := Nat.cast_pos.2 hden
  split
  · -- below one it is the inverse whose digits are counted
    rename_i hzero
    have hless : x.num < x.den := (Nat.div_eq_zero_iff_lt hden).1 hzero
    obtain ⟨-, hbound⟩ := length_digitsText_bounds (Nat.div_pos hless.le hnum)
    rw [Nat.div_lt_iff_lt_mul hnum] at hbound
    have hbound' : (x.den : ℚ) < 10 ^ (digitsText (x.den / x.num)).length * x.num := by
      exact_mod_cast hbound
    have hpower := ten_zpow_pos ((digitsText (x.den / x.num)).length : Int)
    rw [zpow_natCast] at hpower
    rw [show (1 : Int) - ((digitsText (x.den / x.num)).length : Int) - 1 =
      -((digitsText (x.den / x.num)).length : Int) by ring, zpow_neg, zpow_natCast,
      le_div_iff₀ hden', inv_mul_le_iff₀ hpower]
    exact hbound'.le
  · rename_i hne
    obtain ⟨hbound, -⟩ := length_digitsText_bounds (Nat.pos_of_ne_zero hne)
    rw [Nat.le_div_iff_mul_le hden] at hbound
    have hlength : 0 < (digitsText (x.num / x.den)).length := Nat.length_toDigits_pos
    obtain ⟨k, hk⟩ := Nat.exists_eq_succ_of_ne_zero hlength.ne'
    rw [hk] at hbound ⊢
    rw [le_div_iff₀ hden', Nat.cast_succ, add_sub_cancel_right, zpow_natCast]
    exact_mod_cast hbound

/-- Taking zeros off the end of the digits leaves the number as it is. -/
theorem toRat_normalize (fuel : Nat) (d : Decimal) :
    (normalize fuel d).toRat = d.toRat ∧ (0 < d.digits → 0 < (normalize fuel d).digits) := by
  induction fuel generalizing d with
  | zero => exact ⟨rfl, id⟩
  | succ fuel ih =>
    rw [normalize]
    split
    · rename_i hzero
      obtain ⟨hvalue, hpos⟩ := ih ⟨d.digits / 10, d.exponent + 1⟩
      refine ⟨hvalue.trans ?_, fun _ => hpos (by dsimp only; omega)⟩
      have hdigits : (d.digits : ℚ) = (d.digits / 10 : Nat) * 10 := by
        exact_mod_cast (by omega : d.digits = d.digits / 10 * 10)
      rw [toRat, toRat, hdigits, zpow_add_one₀ (by norm_num)]
      dsimp only
      ring
    · exact ⟨rfl, id⟩

/-- The shortest decimal of a double is close to it. -/
theorem close_shortest (hm : 0 < m) (hm' : m < 2 ^ 53) : Close m q (shortest m q) := by
  have heq : shortest m q = normalize 20 (searchGrids m q 20 (start m q)) := rfl
  have hclose : Close m q (searchGrids m q 20 (start m q)) := by
    refine close_searchGrids (exists_accepts hm hm' (le_trans ?_ (power_start_le hm)))
    refine zpow_le_zpow_right₀ (by norm_num) ?_
    omega
  obtain ⟨hvalue, hpos⟩ := toRat_normalize 20 (searchGrids m q 20 (start m q))
  rw [heq]
  refine ⟨hpos hclose.pos, ?_, fun p hp => ?_⟩
  · rw [hvalue]
    exact hclose.le
  · rw [hvalue]
    exact hclose.power_le p hp

/-- The first digit of a decimal stands where the greatest power of ten in it is. -/
theorem le_order_iff (hd : 0 < d.digits) {p : Int} : p ≤ d.leading.2 ↔ 10 ^ p ≤ d.toRat := by
  obtain ⟨hlow, hhigh⟩ := length_digitsText_bounds hd
  have hlength : 0 < (digitsText d.digits).length := Nat.length_toDigits_pos
  obtain ⟨k, hk⟩ := Nat.exists_eq_succ_of_ne_zero hlength.ne'
  rw [hk] at hlow hhigh
  have hlow' : (10 : ℚ) ^ k ≤ d.digits := by exact_mod_cast hlow
  have hhigh' : (d.digits : ℚ) < 10 ^ (k + 1) := by exact_mod_cast hhigh
  have horder : d.leading.2 = k + d.exponent := by
    rw [leading]
    dsimp only
    rw [hk]
    push_cast
    ring
  have hunit := ten_zpow_pos d.exponent
  rw [horder, toRat]
  constructor
  · intro hp
    calc (10 : ℚ) ^ p ≤ 10 ^ (k + d.exponent) := zpow_le_zpow_right₀ (by norm_num) hp
      _ = 10 ^ k * 10 ^ d.exponent := by rw [zpow_add₀ (by norm_num), zpow_natCast]
      _ ≤ d.digits * 10 ^ d.exponent := mul_le_mul_of_nonneg_right hlow' hunit.le
  · intro hp
    have hlt : (10 : ℚ) ^ p < 10 ^ (k + 1 + d.exponent) := by
      calc (10 : ℚ) ^ p ≤ d.digits * 10 ^ d.exponent := hp
        _ < 10 ^ (k + 1) * 10 ^ d.exponent := mul_lt_mul_of_pos_right hhigh' hunit
        _ = 10 ^ (k + 1 + d.exponent) := by
          rw [zpow_add₀ (by norm_num) (k + 1 : Int)]
          norm_cast
    have := (zpow_lt_zpow_iff_right₀ (by norm_num)).1 hlt
    omega

/-! ### Where positional notation begins and ends -/

/-- The double next to `1e-4` lies above it, so no decimal between the two is that of a smaller one.
-/
theorem below_of_binary_lt (hm' : m < 2 ^ 53) (hnormal : -1074 < q → 2 ^ 52 ≤ m)
    (h : binary m q < 1 / 10000) : (4 * m + 2 : ℚ) * 2 ^ (q - 2) < 1 / 10000 := by
  rw [binary] at h
  rcases lt_trichotomy q (-66) with hq | rfl | hq
  · have hunit : (2 : ℚ) ^ (q - 2) ≤ 2 ^ (-69 : Int) :=
      zpow_le_zpow_right₀ (by norm_num) (by omega)
    have hmantissa : (4 * m + 2 : ℚ) ≤ 2 ^ 55 := by exact_mod_cast (by omega : 4 * m + 2 ≤ 2 ^ 55)
    calc (4 * m + 2 : ℚ) * 2 ^ (q - 2) ≤ 2 ^ 55 * 2 ^ (-69 : Int) :=
          mul_le_mul hmantissa hunit (two_zpow_pos _).le (by norm_num)
      _ < 1 / 10000 := by norm_num
  · -- the binade of `1e-4`, which lies nearer to the mantissa above it
    have hmantissa : m ≤ 7378697629483820 := by
      by_contra hlt
      have hcast : (7378697629483821 : ℚ) ≤ m := by
        exact_mod_cast (by omega : 7378697629483821 ≤ m)
      norm_num at h
      linarith
    have hcast : (m : ℚ) ≤ 7378697629483820 := by exact_mod_cast hmantissa
    norm_num
    linarith
  · have hunit : (2 : ℚ) ^ (-65 : Int) ≤ 2 ^ q := zpow_le_zpow_right₀ (by norm_num) (by omega)
    have hmantissa : (2 : ℚ) ^ 52 ≤ m := by exact_mod_cast hnormal (by omega)
    have := mul_le_mul hmantissa hunit (two_zpow_pos _).le (Nat.cast_nonneg m)
    norm_num at this h
    linarith

/-- The shortest decimal of a double reaches down to `1e-4` exactly if the double does. -/
theorem neg_four_le_order_iff (hm : 0 < m) (hm' : m < 2 ^ 53)
    (hnormal : -1074 < q → 2 ^ 52 ≤ m) :
    -4 ≤ (shortest m q).leading.2 ↔ 1 / 10000 ≤ binary m q := by
  have hclose := close_shortest (q := q) hm hm'
  have hpower : (10 : ℚ) ^ (-4 : Int) = 1 / 10000 := by norm_num
  rw [le_order_iff hclose.pos, hpower]
  constructor
  · intro h
    by_contra hless
    exact absurd (h.trans hclose.le) (not_le.2 (below_of_binary_lt hm' hnormal (not_le.1 hless)))
  · intro h
    have := hclose.power_le (-4)
    rw [hpower] at this
    exact this h

/-- The shortest decimal of a double below `2 ^ 52` ends before `1e16`. -/
theorem order_lt_sixteen (hm : 0 < m) (hm' : m < 2 ^ 53) (hq : q < 0) :
    (shortest m q).leading.2 < 16 := by
  have hclose := close_shortest (q := q) hm hm'
  rw [← not_le, le_order_iff hclose.pos, not_le]
  have hunit : (2 : ℚ) ^ (q - 2) ≤ 2 ^ (-3 : Int) :=
    zpow_le_zpow_right₀ (by norm_num) (by omega)
  have hmantissa : (4 * m + 2 : ℚ) ≤ 2 ^ 55 := by exact_mod_cast (by omega : 4 * m + 2 ≤ 2 ^ 55)
  calc (shortest m q).toRat ≤ (4 * m + 2) * 2 ^ (q - 2) := hclose.le
    _ ≤ 2 ^ 55 * 2 ^ (-3 : Int) := mul_le_mul hmantissa hunit (two_zpow_pos _).le (by norm_num)
    _ < 10 ^ (16 : Int) := by norm_num

end ContentSchema.Decimal
