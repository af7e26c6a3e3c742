import AstraConnect.Utils.FixedPointParse

set_option autoImplicit false

/-! # `formatFixed` is the canonical inverse of `parseFixed`

The text of `v` is a `DecimalText` denoting exactly `v / 10^8` (`exists_format`), so the round
trip is `parseFixedValue_render`. The whole part has no more digits than its value needs
(`wholeDigits_spec`), and the last decimal kept is not zero (`stripZeros_spec`); with the
uniqueness of the whole and the fractional part of a number this is why no text is shorter.
-/

namespace AstraConnect.Utils

open Decimal

/-! ## The whole part -/

/-- The digits of the whole part, least significant first: enough room for the value is enough
room for the loop, and no digit is superfluous. -/
theorem wholeDigits_spec (room n : Nat) (hroom : 0 < room) (h : n < 10 ^ room) :
    ∃ l, wholeDigits room n = some l ∧ l ≠ [] ∧ (∀ c ∈ l, IsDigit c) ∧
      numeral l.reverse = n ∧ (1 < l.length → 10 ^ (l.length - 1) ≤ n) := by
  induction room generalizing n with
  | zero => omega
  | succ room ih =>
      have hmod : n % 10 < 10 := Nat.mod_lt _ (by omega)
      -- the last digit stands first, the rest is the quotient
      by_cases hz : n / 10 = 0
      · refine ⟨[digitChar (n % 10)], by rw [wholeDigits, if_pos hz], by simp, ?_, ?_, by simp⟩
        · intro c hc
          rw [List.mem_singleton.mp hc]
          exact isDigit_digitChar hmod
        · rw [List.reverse_singleton, numeral_singleton, digitVal_digitChar hmod]
          omega
      · have hroom' : 0 < room := by
          rcases Nat.eq_zero_or_pos room with rfl | hr
          · simp at h; omega
          · exact hr
        rw [pow_succ] at h
        obtain ⟨l, hl, hne, hdig, hnum, hlen⟩ := ih (n / 10) hroom' (by omega)
        refine ⟨digitChar (n % 10) :: l, by rw [wholeDigits, if_neg hz, hl]; rfl, by simp,
          ?_, ?_, ?_⟩
        · intro c hc
          rcases List.mem_cons.mp hc with rfl | hc
          · exact isDigit_digitChar hmod
          · exact hdig c hc
        · rw [List.reverse_cons, numeral_concat, hnum, digitVal_digitChar hmod]
          omega
        · intro _
          rw [List.length_cons, Nat.add_sub_cancel]
          have hpos : 0 < l.length := List.length_pos_iff.mpr hne
          rcases Nat.lt_or_ge 1 l.length with h1 | h1
          · have hle := hlen h1
            have hpow : 10 ^ l.length = 10 * 10 ^ (l.length - 1) := by
              rw [← pow_succ', Nat.sub_add_cancel hpos]
            omega
          · have : l.length = 1 := by omega
            rw [this]
            omega

/-- A numeral without superfluous digits has no leading zero. -/
theorem head_ne_zero_of_le {l : List Char} (hdig : ∀ c ∈ l, IsDigit c)
    (hle : 1 < l.length → 10 ^ (l.length - 1) ≤ numeral l) (h0 : l.head? = some '0') :
    l = ['0'] := by
  cases l with
  | nil => cases h0
  | cons c rest =>
      have hc : c = '0' := by simpa using h0
      subst hc
      cases rest with
      | nil => rfl
      | cons d rest =>
          have hlt := numeral_lt (s := d :: rest) (fun x hx => hdig x (by simp [hx]))
          have hge := hle (by simp)
          rw [numeral_cons] at hge
          simp [digitVal] at hge hlt
          omega

/-! ## The decimals

Eight digits are written from the right, and the zeros at their end taken off. What is left is the
shortest numeral for the fraction. -/

theorem fractionDigits_spec (k f : Nat) :
    (fractionDigits k f).length = k ∧ (∀ c ∈ fractionDigits k f, IsDigit c) ∧
      (f < 10 ^ k → numeral (fractionDigits k f) = f) := by
  induction k generalizing f with
  | zero =>
      refine ⟨rfl, by simp [fractionDigits], ?_⟩
      intro hf
      rw [pow_zero] at hf
      have : f = 0 := by omega
      rw [this]
      rfl
  | succ k ih =>
      obtain ⟨hlen, hdig, hnum⟩ := ih (f / 10)
      have hmod : f % 10 < 10 := Nat.mod_lt _ (by omega)
      refine ⟨by simp [fractionDigits, hlen], ?_, ?_⟩
      · intro c hc
        rw [fractionDigits, List.mem_append, List.mem_singleton] at hc
        rcases hc with hc | rfl
        · exact hdig c hc
        · exact isDigit_digitChar hmod
      · intro hf
        rw [pow_succ] at hf
        rw [fractionDigits, numeral_concat, hnum (by omega), digitVal_digitChar hmod]
        omega

/-- Stripping keeps the value: what is cut off is zeros, and the last digit kept is not one. -/
theorem stripZeros_spec (ds : List Char) (len : Nat) (h : len ≤ ds.length) :
    stripZeros ds len ≤ len ∧
      numeral (ds.take len)
        = numeral (ds.take (stripZeros ds len)) * 10 ^ (len - stripZeros ds len) ∧
      (ds.take (stripZeros ds len)).getLast? ≠ some '0' := by
  induction len with
  | zero => simp [stripZeros]
  | succ len ih =>
      obtain ⟨hle, hnum, hlast⟩ := ih (by omega)
      have hget : ds[len]? = some ds[len] := List.getElem?_eq_getElem (by omega)
      have htake : ds.take (len + 1) = ds.take len ++ [ds[len]] := by
        rw [List.take_add_one, hget]
        rfl
      rw [stripZeros]
      split_ifs with hz
      · have hz' : ds[len] = '0' := by simpa [hget] using hz
        refine ⟨by omega, ?_, hlast⟩
        rw [htake, numeral_concat, hz', hnum,
          show len + 1 - stripZeros ds len = len - stripZeros ds len + 1 by omega, pow_succ]
        simp [digitVal]
        ring
      · refine ⟨Nat.le_refl _, by simp, ?_⟩
        rw [htake, List.getLast?_concat, ← hget]
        exact hz

/-- A numeral whose last digit is not zero is no multiple of ten. -/
theorem numeral_mod_ten {l : List Char} (hne : l ≠ []) (hdig : ∀ c ∈ l, IsDigit c)
    (hlast : l.getLast? ≠ some '0') : numeral l % 10 ≠ 0 := by
  obtain ⟨m, c, rfl⟩ : ∃ m c, l = m ++ [c] := ⟨_, _, (List.dropLast_append_getLast hne).symm⟩
  rw [List.getLast?_concat] at hlast
  have hc := isDigit_toNat.mp (hdig c (by simp))
  rw [numeral_concat, digitVal]
  intro h0
  have h48 : c.toNat = 48 := by omega
  exact hlast (by rw [← Char.ofNat_toNat c, h48])

/-! ## The text of a value

`Canonical` is said of a text, `Formats` of a magnitude and the two parts that `formatFixed` writes
for it. The sign is put in front at the end. -/

theorem magnitude_eq {I : IntType} {v : Int} (h : I.InRange v) : magnitude I v = v.natAbs := by
  obtain ⟨h1, h2⟩ := h
  have hw := two_mul_negLimit I
  have hpos := ten_le_negLimit I
  have hcast : (2 : Int) ^ I.width = (2 * I.negLimit : Nat) := by
    rw [hw]
    push_cast
    rfl
  rw [magnitude, IntType.toUnsigned, hcast, ← hw]
  by_cases hneg : v < 0
  · have hemod : v % ((2 * I.negLimit : Nat) : Int) = v + (2 * I.negLimit : Nat) := by
      rw [← Int.add_emod_right, Int.emod_eq_of_lt (by omega) (by omega)]
    rw [if_pos hneg, hemod, Nat.mod_eq_of_lt (by omega)]
    omega
  · rw [if_neg hneg, Int.emod_eq_of_lt (by omega) (by omega)]
    omega

theorem magnitude_lt {I : IntType} {v : Int} (h : I.InRange v) :
    magnitude I v / FIXED_SCALE < 10 ^ 48 := by
  have hle : magnitude I v ≤ I.negLimit := by
    rw [magnitude_eq h]
    obtain ⟨h1, h2⟩ := h
    omega
  have hlim : I.negLimit ≤ 2 ^ 127 := by
    cases I <;> norm_num [IntType.negLimit, IntType.width]
  calc magnitude I v / FIXED_SCALE
      ≤ magnitude I v := Nat.div_le_self _ _
    _ ≤ 2 ^ 127 := Nat.le_trans hle hlim
    _ < 10 ^ 48 := by norm_num

/-- A canonical text: no superfluous digit, point or sign. -/
structure Canonical (d : DecimalText) : Prop where
  whole_ne_nil : d.whole ≠ []
  no_leading_zero : d.whole.head? = some '0' → d.whole = ['0']
  fraction_ne_nil : d.fraction ≠ some []
  no_trailing_zero : d.decimals.getLast? ≠ some '0'
  no_plus : d.sign ≠ .plus
  no_minus_zero : d.sign = .minus → d.value ≠ 0

/-- What the two parts of `formatFixed` amount to: the decimal of the magnitude `a`. -/
structure Formats (a : Nat) (d : DecimalText) : Prop where
  whole_ne_nil : d.whole ≠ []
  whole_value : numeral d.whole = a / FIXED_SCALE
  whole_short : 1 < d.whole.length → 10 ^ (d.whole.length - 1) ≤ a / FIXED_SCALE
  decimals_le : d.decimals.length ≤ FIXED_DIGITS
  decimals_value : numeral d.decimals * 10 ^ (FIXED_DIGITS - d.decimals.length) = a % FIXED_SCALE
  decimals_last : d.decimals.getLast? ≠ some '0'
  fraction_ne_nil : d.fraction ≠ some []

/-- The decimals after the point, `none` when there is no point. -/
theorem exists_fraction {f : Nat} (hf : f < FIXED_SCALE) :
    ∃ fr : Option (List Char), formatFraction f = fr.elim [] ('.' :: ·) ∧
      (∀ c ∈ fr.getD [], IsDigit c) ∧ (fr.getD []).length ≤ FIXED_DIGITS ∧
      numeral (fr.getD []) * 10 ^ (FIXED_DIGITS - (fr.getD []).length) = f ∧
      (fr.getD []).getLast? ≠ some '0' ∧ fr ≠ some [] := by
  by_cases h0 : f = 0
  · exact ⟨none, by simp [formatFraction, h0], by simp, by simp, by simp [h0], by simp, by simp⟩
  · obtain ⟨hlen, hdig, hnum⟩ := fractionDigits_spec FIXED_DIGITS f
    have hval := hnum (by simpa [FIXED_DIGITS, FIXED_SCALE] using hf)
    obtain ⟨hle, hstrip, hlast⟩ :=
      stripZeros_spec (fractionDigits FIXED_DIGITS f) FIXED_DIGITS (by rw [hlen])
    set m := stripZeros (fractionDigits FIXED_DIGITS f) FIXED_DIGITS with hm
    have hmlen : ((fractionDigits FIXED_DIGITS f).take m).length = m := by
      rw [List.length_take, hlen]
      omega
    rw [List.take_of_length_le (by rw [hlen]), hval] at hstrip
    refine ⟨some ((fractionDigits FIXED_DIGITS f).take m), ?_, ?_, ?_, ?_, hlast, ?_⟩
    · rw [formatFraction, if_neg h0]
      rfl
    · intro c hc
      exact hdig c (List.mem_of_mem_take hc)
    · rw [Option.getD_some, hmlen]
      exact hle
    · rw [Option.getD_some, hmlen]
      exact hstrip.symm
    · intro hnil
      rw [Option.some.inj hnil] at hstrip
      simp at hstrip
      exact h0 hstrip

/-- **`formatFixed` writes the decimal of `v`.** -/
theorem exists_format {I : IntType} {v : Int} (h : I.InRange v) :
    ∃ d : DecimalText, formatFixed I v = some d.render ∧ Formats v.natAbs d ∧
      d.sign = if v < 0 then .minus else .absent := by
  obtain ⟨l, hl, hne, hdig, hnum, hshort⟩ :=
    wholeDigits_spec 48 (magnitude I v / FIXED_SCALE) (by omega) (magnitude_lt h)
  have hmod : magnitude I v % FIXED_SCALE < FIXED_SCALE := Nat.mod_lt _ (by decide)
  obtain ⟨fr, hfr, hfdig, hflen, hfval, hflast, hfne⟩ := exists_fraction hmod
  have hwne : l.reverse ≠ [] := by simpa using hne
  rw [magnitude_eq h] at hnum hshort hfval
  refine ⟨⟨if v < 0 then .minus else .absent, l.reverse, fr, by simpa using hdig, hfdig,
    by simp [hne]⟩, ?_, ⟨hwne, hnum, by simpa using hshort, hflen, hfval, hflast, hfne⟩, rfl⟩
  rw [formatFixed, hl, Option.map_some, hfr, DecimalText.render, DecimalText.body,
    List.append_assoc]
  by_cases hneg : v < 0
  · simp only [hneg, if_true, Sign.chars]
  · simp only [hneg, if_false, Sign.chars]

/-- A formatted magnitude denotes exactly `a / 10^8`. -/
theorem Formats.abs_eq {a : Nat} {d : DecimalText} (h : Formats a d) :
    d.abs = a / FIXED_SCALE := by
  have hscale : FIXED_SCALE = 10 ^ d.decimals.length * 10 ^ (FIXED_DIGITS - d.decimals.length) := by
    rw [← pow_add, Nat.add_sub_cancel' h.decimals_le]
    rfl
  have hnat : numeral (d.whole ++ d.decimals) * 10 ^ (FIXED_DIGITS - d.decimals.length) = a := by
    calc numeral (d.whole ++ d.decimals) * 10 ^ (FIXED_DIGITS - d.decimals.length)
        = numeral d.whole * FIXED_SCALE
          + numeral d.decimals * 10 ^ (FIXED_DIGITS - d.decimals.length) := by
          rw [numeral_append, hscale]
          ring
      _ = a / FIXED_SCALE * FIXED_SCALE + a % FIXED_SCALE := by
          rw [h.whole_value, h.decimals_value]
      _ = a := Nat.div_add_mod' _ _
  have hq : (a : ℚ)
      = numeral (d.whole ++ d.decimals) * 10 ^ (FIXED_DIGITS - d.decimals.length) := by
    exact_mod_cast hnat.symm
  rw [DecimalText.abs, hq, hscale]
  push_cast
  field_simp

theorem value_of_formats {v : Int} {d : DecimalText} (h : Formats v.natAbs d)
    (hs : d.sign = if v < 0 then .minus else .absent) : d.value = v / FIXED_SCALE := by
  rw [DecimalText.value, hs, h.abs_eq]
  by_cases hneg : v < 0
  · have hcast : ((v.natAbs : Nat) : ℚ) = -v := by
      rw [Nat.cast_natAbs, abs_of_neg hneg]
      push_cast
      rfl
    simp only [hneg, if_true, hcast]
    ring
  · have hcast : ((v.natAbs : Nat) : ℚ) = v := by
      rw [Nat.cast_natAbs, abs_of_nonneg (by omega)]
    simp only [hneg, if_false, hcast]
    simp

theorem scale_ne_zero : ((FIXED_SCALE : Nat) : ℚ) ≠ 0 := by norm_num [FIXED_SCALE]

theorem roundHalfAway_intCast (v : Int) : roundHalfAway (v : ℚ) = v := by
  rcases le_or_gt 0 v with h | h
  · obtain ⟨n, rfl⟩ := Int.eq_ofNat_of_zero_le h
    exact_mod_cast roundHalfAway_natCast n
  · obtain ⟨n, rfl⟩ : ∃ n : Nat, v = -n := ⟨v.natAbs, by omega⟩
    push_cast
    rw [roundHalfAway_neg (by positivity), roundHalfAway_natCast]

theorem fixedValue_of_value {v : Int} {d : DecimalText} (h : d.value = v / FIXED_SCALE) :
    fixedValue d = v := by
  rw [fixedValue, h, div_mul_cancel₀ _ scale_ne_zero, roundHalfAway_intCast]

theorem Formats.canonical {v : Int} {d : DecimalText} (h : Formats v.natAbs d)
    (hs : d.sign = if v < 0 then .minus else .absent) : Canonical d where
  whole_ne_nil := h.whole_ne_nil
  no_leading_zero := head_ne_zero_of_le d.whole_digits (by
    intro h1
    rw [h.whole_value]
    exact h.whole_short h1)
  fraction_ne_nil := h.fraction_ne_nil
  no_trailing_zero := h.decimals_last
  no_plus := by rw [hs]; split_ifs <;> decide
  no_minus_zero := by
    intro hm
    have hneg : v < 0 := by
      by_contra hn
      rw [hs, if_neg hn] at hm
      cases hm
    rw [value_of_formats h hs]
    exact div_ne_zero (by exact_mod_cast hneg.ne) scale_ne_zero

/-! ## No shorter text -/

/-- The whole part and the decimals of any text for `a / 10^8`. -/
theorem parts_of_abs {a : Nat} {t : DecimalText} (h : t.abs = a / FIXED_SCALE) :
    numeral t.whole = a / FIXED_SCALE ∧
      numeral t.decimals * FIXED_SCALE = a % FIXED_SCALE * 10 ^ t.decimals.length := by
  have hnat : numeral (t.whole ++ t.decimals) * FIXED_SCALE = a * 10 ^ t.decimals.length := by
    have hpow : ((10 : ℚ) ^ t.decimals.length) ≠ 0 := by positivity
    rw [DecimalText.abs, div_eq_div_iff hpow scale_ne_zero] at h
    exact_mod_cast h
  rw [numeral_append] at hnat
  have hlt : numeral t.decimals < 10 ^ t.decimals.length := numeral_lt t.fraction_digits
  set P := 10 ^ t.decimals.length with hP
  have hPpos : 0 < P := by positivity
  have hS : 0 < FIXED_SCALE := by decide
  have ha := Nat.div_add_mod a FIXED_SCALE
  have hmod := Nat.mod_lt a hS
  generalize a / FIXED_SCALE = q at ha ⊢
  generalize a % FIXED_SCALE = r at ha hmod ⊢
  generalize numeral t.whole = W at hnat ⊢
  generalize numeral t.decimals = F at hnat hlt ⊢
  generalize FIXED_SCALE = S at hnat ha hmod hS ⊢
  -- both sides are `S * P` times the whole part plus less than `S * P`
  have hsum : W * (S * P) + F * S = q * (S * P) + r * P := by
    rw [← ha] at hnat
    nlinarith
  have h1 : F * S < S * P := by nlinarith
  have h2 : r * P < S * P := by nlinarith
  have hW : W = q := by
    have e1 := congrArg (· / (S * P)) hsum
    have hpos : 0 < S * P := Nat.mul_pos hS hPpos
    rw [Nat.mul_comm W, Nat.mul_comm q, Nat.mul_add_div hpos, Nat.mul_add_div hpos,
      Nat.div_eq_of_lt h1, Nat.div_eq_of_lt h2] at e1
    omega
  refine ⟨hW, ?_⟩
  rw [hW] at hsum
  omega

theorem whole_length_le {a : Nat} {d t : DecimalText} (h : Formats a d)
    (ht : t.abs = a / FIXED_SCALE) (hw : t.whole ≠ []) : d.whole.length ≤ t.whole.length := by
  by_contra hlt
  have hpos : 0 < t.whole.length := List.length_pos_iff.mpr hw
  have hge := h.whole_short (by omega)
  have hval := numeral_lt t.whole_digits
  rw [(parts_of_abs ht).1] at hval
  have hpow : 10 ^ t.whole.length ≤ 10 ^ (d.whole.length - 1) :=
    Nat.pow_le_pow_right (by omega) (by omega)
  omega

/-- Fewer decimals would make the stripped fraction a multiple of ten. -/
theorem decimals_length_le {a : Nat} {d t : DecimalText} (h : Formats a d)
    (ht : t.abs = a / FIXED_SCALE) : d.decimals.length ≤ t.decimals.length := by
  by_contra hlt
  have hne : d.decimals ≠ [] := by
    intro hnil
    rw [hnil] at hlt
    simp at hlt
  have hmod := numeral_mod_ten hne d.fraction_digits h.decimals_last
  have hle := h.decimals_le
  have hval := (parts_of_abs ht).2
  rw [← h.decimals_value] at hval
  set m := d.decimals.length with hm
  set k := t.decimals.length with hk
  have hscale : FIXED_SCALE = 10 ^ (FIXED_DIGITS - m) * 10 ^ k * 10 ^ (m - k) := by
    rw [← pow_add, ← pow_add, show FIXED_DIGITS - m + k + (m - k) = FIXED_DIGITS by omega]
    rfl
  have hcancel : numeral t.decimals * 10 ^ (m - k) = numeral d.decimals := by
    rw [hscale] at hval
    have hpos : 0 < 10 ^ (FIXED_DIGITS - m) * 10 ^ k := by positivity
    apply Nat.eq_of_mul_eq_mul_left hpos
    linarith
  rw [← hcancel, show m - k = m - k - 1 + 1 by omega, pow_succ, ← Nat.mul_assoc,
    Nat.mul_mod_left] at hmod
  exact hmod rfl

theorem sign_length_le {v : Int} {d t : DecimalText}
    (hs : d.sign = if v < 0 then .minus else .absent) (ht : t.value = v / FIXED_SCALE) :
    d.sign.chars.length ≤ t.sign.chars.length := by
  rw [hs]
  split_ifs with hneg
  · have hvneg : t.value < 0 := by
      rw [ht]
      exact div_neg_of_neg_of_pos (by exact_mod_cast hneg) (by norm_num [FIXED_SCALE])
    have hminus : t.sign = .minus := by
      by_contra hn
      rw [DecimalText.value, if_neg hn] at hvneg
      exact absurd t.abs_nonneg (by linarith)
    rw [hminus]
  · exact Nat.zero_le _

theorem abs_of_value {v : Int} {t : DecimalText} (ht : t.value = v / FIXED_SCALE) :
    t.abs = v.natAbs / FIXED_SCALE := by
  have hcast : ((v.natAbs : Nat) : ℚ) = |(v : ℚ)| := by
    rw [Nat.cast_natAbs]
    push_cast
    rfl
  have habs : |t.value| = t.abs := by
    rw [DecimalText.value]
    split_ifs
    · rw [abs_neg, abs_of_nonneg t.abs_nonneg]
    · rw [abs_of_nonneg t.abs_nonneg]
  rw [← habs, ht, abs_div, hcast, abs_of_pos (show (0 : ℚ) < (FIXED_SCALE : Nat) by
    norm_num [FIXED_SCALE])]

theorem body_length (d : DecimalText) :
    d.body.length = d.whole.length + d.fraction.elim 0 (fun f => f.length + 1) := by
  rw [DecimalText.body, List.length_append]
  cases d.fraction <;> simp

theorem body_length_le {a : Nat} {d t : DecimalText} (h : Formats a d)
    (ht : t.abs = a / FIXED_SCALE) (hw : t.whole ≠ []) : d.body.length ≤ t.body.length := by
  have h1 := whole_length_le h ht hw
  have h2 := decimals_length_le h ht
  have h3 := h.fraction_ne_nil
  rw [body_length, body_length]
  simp only [DecimalText.decimals] at h2
  cases hd : d.fraction with
  | none => simp only [Option.elim_none]; omega
  | some f =>
      have hf : 0 < f.length := by
        rw [hd] at h3
        exact List.length_pos_iff.mpr (fun hnil => h3 (by rw [hnil]))
      rw [hd] at h2
      cases htf : t.fraction with
      | none =>
          rw [htf] at h2
          simp only [Option.getD_some, Option.getD_none, List.length_nil] at h2
          omega
      | some g =>
          rw [htf] at h2
          simp only [Option.getD_some] at h2
          simp only [Option.elim_some]
          omega

theorem Formats.render_length {a : Nat} {d : DecimalText} (h : Formats a d)
    (ha : a / FIXED_SCALE < 10 ^ 48) : d.render.length < 2 ^ 31 := by
  have hwhole : d.whole.length ≤ 48 := by
    by_contra hlt
    have hge := h.whole_short (by omega)
    have := (Nat.pow_lt_pow_iff_right (a := 10) (by omega)).mp (Nat.lt_of_le_of_lt hge ha)
    omega
  have hdec := h.decimals_le
  have hfrac : d.fraction.elim 0 (fun f => f.length + 1) ≤ d.decimals.length + 1 := by
    rw [DecimalText.decimals]
    cases d.fraction <;> simp
  have hsign : d.sign.chars.length ≤ 1 := by cases d.sign <;> simp [Sign.chars]
  rw [DecimalText.render, List.length_append, body_length]
  simp only [FIXED_DIGITS] at hdec
  omega

theorem parseFixed_of_formats {I : IntType} {v : Int} {d : DecimalText} (hv : I.InRange v)
    (hd : Formats v.natAbs d) (hs : d.sign = if v < 0 then .minus else .absent) (out : Int) :
    parseFixed I d.render out = some (true, v) := by
  have hlen := hd.render_length (magnitude_eq hv ▸ magnitude_lt hv)
  have hparse := parseFixedValue_render (I := I) d hlen
  rw [fixedValue_of_value (value_of_formats hd hs), if_pos hv] at hparse
  rw [parseFixed, hparse]

/-- **`formatFixed` is the exact, canonical and shortest inverse of `parseFixed`**, for every
value of `int64_t` and `__int128`: the 48 bytes suffice, the text parses back to `v`, it has no
superfluous character, and no decimal for `v / 10^8` with a digit before the point is shorter. -/
theorem formatFixed_inverse (I : IntType) (v : Int) (hv : I.InRange v) :
    ∃ s, formatFixed I v = some s ∧
      (∀ out, parseFixed I s out = some (true, v)) ∧
      (∃ d : DecimalText, d.render = s ∧ Canonical d) ∧
      ∀ t : DecimalText, t.value = v / FIXED_SCALE → t.whole ≠ [] →
        s.length ≤ t.render.length := by
  obtain ⟨d, hfmt, hd, hs⟩ := exists_format hv
  refine ⟨d.render, hfmt, ?_, ⟨d, rfl, hd.canonical hs⟩, ?_⟩
  · exact parseFixed_of_formats hv hd hs
  · intro t ht hw
    rw [DecimalText.render, DecimalText.render, List.length_append, List.length_append]
    exact Nat.add_le_add (sign_length_le hs ht) (body_length_le hd (abs_of_value ht) hw)

/-- The most negative `int64_t`. -/
theorem formatFixed_inverse_min :
    ∃ s, formatFixed .int64 (-9223372036854775808) = some s ∧
      (∀ out, parseFixed .int64 s out = some (true, -9223372036854775808)) ∧
      (∃ d : DecimalText, d.render = s ∧ Canonical d) ∧
      ∀ t : DecimalText, t.value = ((-9223372036854775808 : Int) : ℚ) / FIXED_SCALE →
        t.whole ≠ [] → s.length ≤ t.render.length :=
  formatFixed_inverse .int64 (-9223372036854775808) (by decide)

/-! ## The values that are parsed -/

/-- Some text is parsed to `v`. -/
def Parsed (I : IntType) (v : Int) : Prop := ∃ text out, parseFixed I text out = some (true, v)

theorem inRange_ofUnsigned (I : IntType) (n : Nat) : I.InRange (I.ofUnsigned n) := by
  have hpos := ten_le_negLimit I
  have hlow := Int.le_bmod (x := n) (m := 2 * I.negLimit) (by omega)
  have hhigh := Int.bmod_lt (x := n) (m := 2 * I.negLimit) (by omega)
  rw [IntType.InRange, IntType.ofUnsigned, ← two_mul_negLimit I]
  omega

theorem inRange_of_parseFixedValue {I : IntType} {s : List Char} {v : Int}
    (h : parseFixedValue I s = .ok v) : I.InRange v := by
  unfold parseFixedValue at h
  simp only [bind, Except.bind, pure, Except.pure] at h
  -- every other way out is an error
  repeat' split at h
  all_goals cases h
  all_goals exact inRange_ofUnsigned I _

/-- **Exactly the values of the type are parsed.** -/
theorem parsed_iff_inRange {I : IntType} {v : Int} : Parsed I v ↔ I.InRange v := by
  constructor
  · rintro ⟨text, out, h⟩
    rw [parseFixed] at h
    split at h
    · rename_i w hw
      obtain rfl : w = v := congrArg Prod.snd (Option.some.inj h)
      exact inRange_of_parseFixedValue hw
    · cases h
    · cases h
  · intro hv
    obtain ⟨d, -, hd, hs⟩ := exists_format hv
    exact ⟨d.render, 0, parseFixed_of_formats hv hd hs 0⟩

end AstraConnect.Utils
