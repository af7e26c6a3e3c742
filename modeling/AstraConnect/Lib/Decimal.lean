import Mathlib.Tactic
import Mathlib.Data.Rat.Floor

set_option autoImplicit false

/-! # Decimal numerals and rounding

Positional decimal numerals as lists of characters, most significant digit first, and
rounding of a rational to the nearest integer with ties away from zero.

* `numeral` is the number a list of digits denotes; `numeral_append` and `numeral_lt` are how
  it splits and how large it is.
* `roundHalfAway` on a quotient of naturals is decided by the remainder
  (`roundHalfAway_div`), and for a decimal numeral by the first dropped digit
  (`roundHalfAway_numeral`).
* `DecimalText` is the syntax of a signed decimal, `DecimalText.value` the number it denotes.
-/

namespace Decimal

/-! ## Digits -/

/-- The value of a digit character. -/
def digitVal (c : Char) : Nat := c.toNat - 48

/-- The character of a digit below ten. -/
def digitChar (d : Nat) : Char := Char.ofNat (48 + d)

/-- A decimal digit. -/
def IsDigit (c : Char) : Prop := '0' ≤ c ∧ c ≤ '9'

instance (c : Char) : Decidable (IsDigit c) := inferInstanceAs (Decidable (_ ∧ _))

theorem isDigit_toNat {c : Char} : IsDigit c ↔ 48 ≤ c.toNat ∧ c.toNat ≤ 57 := by
  unfold IsDigit
  rw [Char.le_def, Char.le_def, UInt32.le_iff_toNat_le, UInt32.le_iff_toNat_le]
  exact Iff.rfl

theorem digitChar_toNat {d : Nat} (h : d < 10) : (digitChar d).toNat = 48 + d := by
  interval_cases d <;> rfl

theorem digitVal_digitChar {d : Nat} (h : d < 10) : digitVal (digitChar d) = d := by
  rw [digitVal, digitChar_toNat h]
  omega

theorem isDigit_digitChar {d : Nat} (h : d < 10) : IsDigit (digitChar d) := by
  rw [isDigit_toNat, digitChar_toNat h]
  omega

theorem digitVal_le {c : Char} (h : IsDigit c) : digitVal c ≤ 9 := by
  rw [isDigit_toNat] at h
  unfold digitVal
  omega

theorem isDigit_ne_point {c : Char} (h : IsDigit c) : c ≠ '.' := by
  rintro rfl
  revert h
  decide

/-! ## Numerals -/

/-- The number a list of digits denotes, most significant digit first. -/
def numeral (s : List Char) : Nat := s.foldl (fun v c => 10 * v + digitVal c) 0

@[simp] theorem numeral_nil : numeral [] = 0 := rfl

theorem foldl_numeral (s : List Char) (v : Nat) :
    s.foldl (fun v c => 10 * v + digitVal c) v = v * 10 ^ s.length + numeral s := by
  induction s generalizing v with
  | nil => simp
  | cons c s ih =>
      rw [numeral, List.foldl_cons, List.foldl_cons, ih, ih (10 * 0 + digitVal c),
        List.length_cons, pow_succ]
      ring

theorem numeral_append (s t : List Char) :
    numeral (s ++ t) = numeral s * 10 ^ t.length + numeral t := by
  rw [numeral, List.foldl_append, foldl_numeral]
  rfl

theorem numeral_singleton (c : Char) : numeral [c] = digitVal c := by
  simp [numeral]

theorem numeral_concat (s : List Char) (c : Char) :
    numeral (s ++ [c]) = 10 * numeral s + digitVal c := by
  rw [numeral_append, numeral_singleton, List.length_singleton]
  ring

theorem numeral_cons (c : Char) (s : List Char) :
    numeral (c :: s) = digitVal c * 10 ^ s.length + numeral s := by
  rw [← List.singleton_append, numeral_append, numeral_singleton]

theorem numeral_lt {s : List Char} (h : ∀ c ∈ s, IsDigit c) : numeral s < 10 ^ s.length := by
  induction s with
  | nil => simp
  | cons c s ih =>
      have hs := ih (fun d hd => h d (by simp [hd]))
      have hc := digitVal_le (h c (by simp))
      rw [numeral_cons, List.length_cons, pow_succ]
      have : digitVal c * 10 ^ s.length ≤ 9 * 10 ^ s.length := Nat.mul_le_mul_right _ hc
      omega

/-! ## Rounding half away from zero

A quotient of naturals is rounded by its remainder. For a decimal numeral that is cut off, the
remainder is the numeral of the digits dropped, and the first of them decides. -/

/-- The nearest integer, ties away from zero. -/
def roundHalfAway (q : ℚ) : ℤ := if 0 ≤ q then ⌊q + 1 / 2⌋ else -⌊-q + 1 / 2⌋

theorem roundHalfAway_neg {q : ℚ} (h : 0 ≤ q) : roundHalfAway (-q) = -roundHalfAway q := by
  rcases eq_or_lt_of_le h with h0 | hpos
  · subst h0
    norm_num [roundHalfAway]
  · have hneg : ¬ (0 : ℚ) ≤ -q := by linarith
    rw [roundHalfAway, if_neg hneg, neg_neg, roundHalfAway, if_pos h]

theorem roundHalfAway_natCast (n : Nat) : roundHalfAway (n : ℚ) = n := by
  rw [roundHalfAway, if_pos (Nat.cast_nonneg n), Int.floor_eq_iff]
  constructor
  · push_cast
    linarith
  · push_cast
    linarith

/-- A quotient rounds up exactly when twice the remainder reaches the divisor. -/
theorem roundHalfAway_div (v r m : Nat) (hm : 0 < m) (hr : r < m) :
    roundHalfAway ((v * m + r : Nat) / (m : ℚ)) = v + if m ≤ 2 * r then 1 else 0 := by
  have hmq : (0 : ℚ) < m := by exact_mod_cast hm
  have hq : (((v * m + r : Nat) : ℚ) / m) = v + r / m := by
    push_cast
    field_simp
  have hr0 : (0 : ℚ) ≤ r / m := by positivity
  have hr1 : (r : ℚ) / m < 1 := by
    rw [div_lt_one hmq]
    exact_mod_cast hr
  rw [hq, roundHalfAway, if_pos (by positivity), Int.floor_eq_iff]
  by_cases h : m ≤ 2 * r
  · have hh : (1 : ℚ) / 2 ≤ r / m := by
      rw [div_le_div_iff₀ (by norm_num) hmq]
      have : (m : ℚ) ≤ 2 * r := by exact_mod_cast h
      linarith
    rw [if_pos h]
    push_cast
    constructor <;> linarith
  · have hh : (r : ℚ) / m < 1 / 2 := by
      rw [div_lt_div_iff₀ hmq (by norm_num)]
      have : (2 * r : ℚ) < m := by exact_mod_cast Nat.lt_of_not_le h
      linarith
    rw [if_neg h]
    push_cast
    constructor <;> linarith

/-- Dropping digits: the first dropped one decides the rounding. -/
theorem roundHalfAway_numeral (kept : List Char) (c : Char) (rest : List Char)
    (hc : IsDigit c) (hrest : ∀ d ∈ rest, IsDigit d) :
    roundHalfAway (numeral (kept ++ c :: rest) / (10 : ℚ) ^ (rest.length + 1))
      = numeral kept + if '5' ≤ c then 1 else 0 := by
  have hlt : numeral (c :: rest) < 10 ^ (rest.length + 1) := by
    have := numeral_lt (s := c :: rest) (by
      intro d hd
      rcases List.mem_cons.mp hd with rfl | hd
      · exact hc
      · exact hrest d hd)
    rwa [List.length_cons] at this
  have hsplit := numeral_append kept (c :: rest)
  rw [List.length_cons] at hsplit
  have hdiv := roundHalfAway_div (numeral kept) (numeral (c :: rest)) (10 ^ (rest.length + 1))
    (by positivity) hlt
  rw [← hsplit] at hdiv
  push_cast at hdiv
  rw [hdiv]
  -- `10^(k+1) ≤ 2 * (d * 10^k + tail)` with `tail < 10^k` says exactly `5 ≤ d`
  have hfive : 10 ^ (rest.length + 1) ≤ 2 * numeral (c :: rest) ↔ '5' ≤ c := by
    have htail := numeral_lt hrest
    have hcd : '5' ≤ c ↔ 5 ≤ digitVal c := by
      rw [isDigit_toNat] at hc
      rw [Char.le_def, UInt32.le_iff_toNat_le]
      show 53 ≤ c.toNat ↔ _
      unfold digitVal
      omega
    rw [hcd, numeral_cons, pow_succ]
    constructor
    · intro h
      by_contra hlt5
      have : digitVal c * 10 ^ rest.length ≤ 4 * 10 ^ rest.length :=
        Nat.mul_le_mul_right _ (by omega)
      omega
    · intro h
      have : 5 * 10 ^ rest.length ≤ digitVal c * 10 ^ rest.length := Nat.mul_le_mul_right _ h
      omega
  simp only [hfive]

/-! ## Signed decimals

The syntax is a structure, so that a text is a decimal by being one rendered, and its value is
computed from the parts. -/

/-- The sign in front of a decimal, if any. -/
inductive Sign where
  | absent
  | plus
  | minus
  deriving DecidableEq, Repr

def Sign.chars : Sign → List Char
  | absent => []
  | plus => ['+']
  | minus => ['-']

/-- **The syntax of a decimal**: a sign, digits, and optionally a point with more digits, at
least one digit in all. `fraction` is `none` when there is no point. -/
structure DecimalText where
  sign : Sign
  whole : List Char
  fraction : Option (List Char)
  whole_digits : ∀ c ∈ whole, IsDigit c
  fraction_digits : ∀ c ∈ fraction.getD [], IsDigit c
  some_digit : whole ++ fraction.getD [] ≠ []

namespace DecimalText

/-- The digits after the point. -/
def decimals (d : DecimalText) : List Char := d.fraction.getD []

/-- The characters after the sign. -/
def body (d : DecimalText) : List Char :=
  d.whole ++ d.fraction.elim [] ('.' :: ·)

/-- The text itself. -/
def render (d : DecimalText) : List Char := d.sign.chars ++ d.body

/-- The absolute value of the number denoted. -/
def abs (d : DecimalText) : ℚ := numeral (d.whole ++ d.decimals) / 10 ^ d.decimals.length

/-- The number denoted. -/
def value (d : DecimalText) : ℚ := if d.sign = .minus then -d.abs else d.abs

theorem abs_nonneg (d : DecimalText) : 0 ≤ d.abs := by
  unfold abs
  positivity

end DecimalText

end Decimal
