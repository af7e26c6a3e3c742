import Mathlib.Algebra.Order.Round
import AstraConnect.Lib.Decimal

set_option autoImplicit false

/-! # Division to the nearest integer

* `NearestAway q n` says that no integer is nearer to `q` than `n`, and that `n` is the one further
  from zero when there are two. `roundHalfAway q` is the only such integer (`nearestAway_iff`).
* `addHalfDiv n d` is the idiom `(n + d / 2) / d` with divisions that truncate. It is right for
  every `n` from zero on (`nearestAway_addHalfDiv_of_nonneg`). For a negative `n` the half is added
  on the wrong side, and the quotient is one too large unless `n` lies nearer to zero than half of
  `d`, or half a unit short of the middle between two multiples of `d` (`addHalfDiv_of_neg`).
-/

namespace Rounding

open Decimal

/-! ## The nearest integer -/

/-- `n` is nearest to `q`, and among two integers that are, the one further from zero. -/
structure NearestAway (q : ℚ) (n : ℤ) : Prop where
  nearest : ∀ m : ℤ, |q - n| ≤ |q - m|
  away : ∀ m : ℤ, |q - m| = |q - n| → |m| ≤ |n|

variable {q : ℚ} {n m : ℤ}

theorem NearestAway.neg (h : NearestAway q n) : NearestAway (-q) (-n) := by
  have hdist : ∀ m : ℤ, |(-q) - m| = |q - (-m : ℤ)| := by
    intro m
    calc |(-q) - m| = |-(q - (-m : ℤ))| := by
          congr 1
          push_cast
          ring
      _ = |q - (-m : ℤ)| := abs_neg _
  constructor
  · intro m
    rw [hdist, hdist, neg_neg]
    exact h.nearest (-m)
  · intro m hm
    rw [hdist, hdist, neg_neg] at hm
    have haway := h.away (-m) hm
    rwa [abs_neg] at haway ⊢

/-- Two nearest integers are as far from zero, and on the same side of it. -/
theorem NearestAway.unique (h : NearestAway q n) (h' : NearestAway q m) : n = m := by
  have hdist : |q - n| = |q - m| := le_antisymm (h.nearest m) (h'.nearest n)
  have habs : |n| = |m| := le_antisymm (h'.away n hdist) (h.away m hdist.symm)
  rcases abs_eq_abs.mp habs with heq | hneg
  · exact heq
  · -- `q` is as far from `m` as from `-m`, so it is zero, and so is `m`
    rw [hneg] at hdist
    push_cast at hdist
    have hq : q * m = 0 := by
      have hsq := sq_eq_sq_iff_abs_eq_abs (q - -(m : ℚ)) (q - m) |>.mpr hdist
      linarith
    have hm : m = 0 := by
      rcases mul_eq_zero.mp hq with hq | hm
      · have hzero := h'.nearest 0
        rw [hq] at hzero
        simpa using hzero
      · exact_mod_cast hm
    omega

theorem roundHalfAway_of_nonneg (h : 0 ≤ q) : roundHalfAway q = round q := by
  rw [roundHalfAway, if_pos h, round_eq]

theorem nearestAway_round (h : 0 ≤ q) : NearestAway q (round q) := by
  constructor
  · exact round_le q
  · intro m hm
    have hge : 0 ≤ round q := by
      rw [round_eq]
      exact Int.floor_nonneg.mpr (by linarith)
    have hlow := round_le_add_half q
    have hhigh := sub_half_lt_round q
    have hclose : |q - m| ≤ 1 / 2 := hm ▸ abs_sub_round q
    obtain ⟨hm₁, hm₂⟩ := abs_le.mp hclose
    -- the other one is at most one below, and not below zero
    have hle : (m : ℚ) < round q + 1 := by
      by_contra hlt
      have hfar : q - m < -(1 / 2) := by linarith
      linarith
    have hmle : m ≤ round q := by
      have : m < round q + 1 := by exact_mod_cast hle
      omega
    have hneg : (-1 : ℚ) < m := by linarith
    have hmge : 0 ≤ m := by
      have : (-1 : ℤ) < m := by exact_mod_cast hneg
      omega
    rwa [abs_of_nonneg hmge, abs_of_nonneg hge]

theorem nearestAway_roundHalfAway (q : ℚ) : NearestAway q (roundHalfAway q) := by
  rcases le_total 0 q with h | h
  · rw [roundHalfAway_of_nonneg h]
    exact nearestAway_round h
  · have hneg : 0 ≤ -q := by linarith
    have hround := (nearestAway_round hneg).neg
    rw [← roundHalfAway_of_nonneg hneg, ← roundHalfAway_neg hneg] at hround
    simpa only [neg_neg] using hround

/-- **There is exactly one.** -/
theorem nearestAway_iff : NearestAway q n ↔ n = roundHalfAway q := by
  constructor
  · intro h
    exact h.unique (nearestAway_roundHalfAway q)
  · rintro rfl
    exact nearestAway_roundHalfAway q

/-! ## Adding half the divisor

`Int.tdiv` truncates toward zero, as the division of a machine does. The dividends are naturals and
their negations in turn, so each proof is about naturals. -/

/-- `(n + d / 2) / d`, with divisions that truncate. -/
def addHalfDiv (n d : ℤ) : ℤ := (n + d.tdiv 2).tdiv d

variable {d : ℤ} (a : ℕ) {b : ℕ}

theorem add_half_div (hb : 0 < b) :
    (a + b / 2) / b = a / b + if b ≤ 2 * (a % b) then 1 else 0 := by
  have hr : a % b < b := Nat.mod_lt a hb
  have hsplit : a + b / 2 = b * (a / b) + (a % b + b / 2) := by
    have := Nat.div_add_mod a b
    omega
  rw [hsplit, Nat.mul_add_div hb]
  congr 1
  by_cases h : b ≤ 2 * (a % b)
  · rw [if_pos h]
    exact Nat.div_eq_of_lt_le (by omega) (by omega)
  · rw [if_neg h]
    exact Nat.div_eq_of_lt (by omega)

theorem sub_half_div (hb : 0 < b) :
    (a - b / 2) / b = a / b - if a % b < b / 2 then 1 else 0 := by
  have hr : a % b < b := Nat.mod_lt a hb
  have ha := Nat.div_add_mod a b
  by_cases h : a % b < b / 2
  · rw [if_pos h]
    cases hq : a / b with
    | zero =>
        rw [hq, Nat.mul_zero] at ha
        exact Nat.div_eq_of_lt (by omega)
    | succ k =>
        rw [hq, Nat.mul_succ] at ha
        have hsplit : a - b / 2 = b * k + (b + a % b - b / 2) := by omega
        have hzero : (b + a % b - b / 2) / b = 0 := Nat.div_eq_of_lt (by omega)
        rw [hsplit, Nat.mul_add_div hb, hzero]
        rfl
  · rw [if_neg h]
    have hsplit : a - b / 2 = b * (a / b) + (a % b - b / 2) := by omega
    have hzero : (a % b - b / 2) / b = 0 := Nat.div_eq_of_lt (by omega)
    rw [hsplit, Nat.mul_add_div hb, hzero]
    rfl

theorem addHalfDiv_natCast : addHalfDiv a b = ((a + b / 2) / b : ℕ) := by
  rw [addHalfDiv, Int.ofNat_tdiv, Int.natCast_add, Int.ofNat_tdiv]
  rfl

theorem addHalfDiv_neg_natCast : addHalfDiv (-a) b = -(((a - b / 2) / b : ℕ) : ℤ) := by
  have hhalf : (b : ℤ).tdiv 2 = ((b / 2 : ℕ) : ℤ) := (Int.ofNat_tdiv b 2).symm
  rw [addHalfDiv, hhalf]
  rcases Nat.le_total a (b / 2) with h | h
  · -- the sum is not negative, and less than the divisor
    have hsum : -(a : ℤ) + ((b / 2 : ℕ) : ℤ) = ((b / 2 - a : ℕ) : ℤ) := by omega
    have hzero : (b / 2 - a) / b = 0 := by
      rcases Nat.eq_zero_or_pos b with rfl | hb
      · exact Nat.div_zero _
      · exact Nat.div_eq_of_lt (by omega)
    rw [hsum, ← Int.ofNat_tdiv, hzero, Nat.sub_eq_zero_of_le h, Nat.zero_div]
    rfl
  · have hsum : -(a : ℤ) + ((b / 2 : ℕ) : ℤ) = -((a - b / 2 : ℕ) : ℤ) := by omega
    rw [hsum, Int.neg_tdiv, ← Int.ofNat_tdiv]

theorem roundHalfAway_natCast_div (hb : 0 < b) :
    roundHalfAway ((a : ℚ) / b) = ((a / b + if b ≤ 2 * (a % b) then 1 else 0 : ℕ) : ℤ) := by
  have hdiv := roundHalfAway_div (a / b) (a % b) b hb (Nat.mod_lt a hb)
  rw [Nat.div_add_mod'] at hdiv
  rw [hdiv]
  push_cast
  rfl

/-- **From zero on the idiom rounds to the nearest integer.** -/
theorem nearestAway_addHalfDiv_of_nonneg (hd : 0 < d) (hn : 0 ≤ n) :
    NearestAway ((n : ℚ) / d) (addHalfDiv n d) := by
  obtain ⟨a, rfl⟩ := Int.eq_ofNat_of_zero_le hn
  obtain ⟨b, rfl⟩ := Int.eq_ofNat_of_zero_le hd.le
  have hb : 0 < b := by exact_mod_cast hd
  rw [nearestAway_iff, addHalfDiv_natCast, add_half_div a hb]
  exact (roundHalfAway_natCast_div a hb).symm

/-- Subtracting half of `b` gives one less than rounding, but for two kinds of `a`. -/
theorem round_eq_sub_half (hb : 0 < b) :
    (a / b + if b ≤ 2 * (a % b) then 1 else 0) =
      a / b - (if a % b < b / 2 then 1 else 0) + if 2 * a < b ∨ b ∣ 2 * a + 1 then 0 else 1 := by
  have hr : a % b < b := Nat.mod_lt a hb
  have ha := Nat.div_add_mod a b
  -- half a unit short of the middle
  have hdvd : b ∣ 2 * a + 1 ↔ 2 * (a % b) + 1 = b := by
    have hsplit : 2 * a + 1 = b * (2 * (a / b)) + (2 * (a % b) + 1) := by
      calc 2 * a + 1 = 2 * (b * (a / b) + a % b) + 1 := by rw [ha]
        _ = b * (2 * (a / b)) + (2 * (a % b) + 1) := by ring
    rw [hsplit, Nat.dvd_add_right (Nat.dvd_mul_right b _)]
    constructor
    · rintro ⟨k, hk⟩
      have hone : k = 1 := by
        rcases Nat.lt_trichotomy k 1 with hlt | heq | hgt
        · obtain rfl : k = 0 := by omega
          omega
        · exact heq
        · have : b * 2 ≤ b * k := Nat.mul_le_mul_left b hgt
          omega
      rw [hk, hone, Nat.mul_one]
    · intro h
      rw [h]
  have hsmall : 2 * a < b ↔ a / b = 0 ∧ 2 * (a % b) < b := by
    constructor
    · intro h
      have hq : a / b = 0 := Nat.div_eq_of_lt (by omega)
      exact ⟨hq, by omega⟩
    · rintro ⟨hq, h⟩
      rw [hq, Nat.mul_zero] at ha
      omega
  simp only [hdvd, hsmall]
  generalize a / b = quotient
  generalize a % b = rest at hr ⊢
  by_cases hlow : rest < b / 2
  · rw [if_pos hlow, if_neg (by omega)]
    split_ifs <;> omega
  · by_cases hhigh : b ≤ 2 * rest
    · rw [if_neg hlow, if_pos hhigh, if_neg (by omega), Nat.sub_zero]
    · rw [if_neg hlow, if_neg hhigh, if_pos (Or.inr (by omega)), Nat.sub_zero]

/-- **Below zero it is one too large, but in two cases.** -/
theorem addHalfDiv_of_neg (hd : 0 < d) (hn : n < 0) :
    addHalfDiv n d = roundHalfAway ((n : ℚ) / d) +
      if -2 * n < d ∨ d ∣ 2 * n - 1 then 0 else 1 := by
  obtain ⟨a, rfl⟩ : ∃ a : ℕ, n = -a := ⟨n.natAbs, by omega⟩
  obtain ⟨b, rfl⟩ := Int.eq_ofNat_of_zero_le hd.le
  have hb : 0 < b := by exact_mod_cast hd
  have hround : roundHalfAway (((-a : ℤ) : ℚ) / (b : ℤ)) =
      -((a / b + if b ≤ 2 * (a % b) then 1 else 0 : ℕ) : ℤ) := by
    calc roundHalfAway (((-a : ℤ) : ℚ) / (b : ℤ)) = roundHalfAway (-((a : ℚ) / b)) := by
          push_cast
          rw [neg_div]
      _ = -roundHalfAway ((a : ℚ) / b) := roundHalfAway_neg (by positivity)
      _ = _ := by rw [roundHalfAway_natCast_div a hb]
  have hdvd : (b : ℤ) ∣ 2 * (-a) - 1 ↔ b ∣ 2 * a + 1 := by
    have hneg : 2 * (-a : ℤ) - 1 = -((2 * a + 1 : ℕ) : ℤ) := by
      push_cast
      ring
    rw [hneg, dvd_neg, Int.natCast_dvd_natCast]
  have hlt : -2 * (-a : ℤ) < b ↔ 2 * a < b := by omega
  rw [hround, addHalfDiv_neg_natCast, sub_half_div a hb, round_eq_sub_half a hb]
  simp only [hdvd, hlt]
  split_ifs <;> push_cast <;> ring

theorem nearestAway_addHalfDiv_iff (hd : 0 < d) (hn : n < 0) :
    NearestAway ((n : ℚ) / d) (addHalfDiv n d) ↔ -2 * n < d ∨ d ∣ 2 * n - 1 := by
  rw [nearestAway_iff, addHalfDiv_of_neg hd hn]
  by_cases h : -2 * n < d ∨ d ∣ 2 * n - 1
  · rw [if_pos h]
    exact iff_of_true (add_zero _) h
  · rw [if_neg h]
    exact iff_of_false (by omega) h

end Rounding
