import AstraConnect.Utils.FixedPoint

set_option autoImplicit false

/-! # `parseFixed` accepts its grammar and computes the rounded value

The guarded digit loop is compared with the same loop on unbounded naturals (`scanChar`): as
appending a digit never makes the value smaller, a guard that fires once says that the final
value is above the limit (`parseChars_eq`). What the unbounded loop computes is read off the
syntax of the text (`scanChars_body`), and the rest is the arithmetic of the dropped digits
(`rounded_eq`).
-/

namespace AstraConnect.Utils

open Decimal

/-! ## The guards

A guard compares before it computes, so that the operation behind it cannot overflow. Each of them
refuses exactly when the result would be above the limit. -/

theorem two_mul_negLimit (I : IntType) : 2 * I.negLimit = 2 ^ I.width := by
  cases I <;> norm_num [IntType.negLimit, IntType.width]

theorem ten_le_negLimit (I : IntType) : 10 ≤ I.negLimit := by
  cases I <;> norm_num [IntType.negLimit, IntType.width]

theorem fitU_of_le {I : IntType} {n : Nat} (h : n ≤ I.negLimit) : fitU I n = .ok n := by
  have hw := two_mul_negLimit I
  have hpos := ten_le_negLimit I
  have hlt : (n : Int) < 2 ^ I.width := by
    have : n < 2 ^ I.width := by omega
    exact_mod_cast this
  rw [fitU, if_pos ⟨by omega, hlt⟩, Int.toNat_natCast]

/-- Appending a digit is refused exactly when the result would pass the limit. -/
theorem pushDigit_eq {I : IntType} {value digit : Nat} (hd : digit ≤ 9) :
    pushDigit I value digit
      = if 10 * value + digit ≤ I.negLimit then .ok (10 * value + digit) else .error .reject := by
  have hten := ten_le_negLimit I
  have hroom : fitU I ((I.negLimit : Int) - digit) = .ok (I.negLimit - digit) := by
    rw [← Nat.cast_sub (by omega)]
    exact fitU_of_le (by omega)
  simp only [pushDigit, hroom]
  by_cases h : 10 * value + digit ≤ I.negLimit
  · have hguard : ¬ value > (I.negLimit - digit) / 10 := by omega
    have h1 : fitU I ((value : Int) * 10) = .ok (value * 10) := by
      exact_mod_cast fitU_of_le (I := I) (n := value * 10) (by omega)
    have h2 : fitU I (((value * 10 : Nat) : Int) + digit) = .ok (value * 10 + digit) := by
      exact_mod_cast fitU_of_le (I := I) (n := value * 10 + digit) (by omega)
    rw [if_pos h]
    simp only [bind, Except.bind, hguard, if_false, h1, h2]
    rw [Nat.mul_comm]
  · have hguard : value > (I.negLimit - digit) / 10 := by omega
    rw [if_neg h]
    simp only [bind, Except.bind, hguard, if_true]
    rfl

/-- The padding loop multiplies by a power of ten, or refuses when that passes the limit. -/
theorem padValue_eq {I : IntType} (k value : Nat) (hv : value ≤ I.negLimit) :
    padValue I k value
      = if value * 10 ^ k ≤ I.negLimit then .ok (value * 10 ^ k) else .error .reject := by
  induction k generalizing value with
  | zero => simp [padValue, hv]
  | succ k ih =>
      have hpow : value * 10 ^ (k + 1) = value * 10 * 10 ^ k := by ring
      rw [padValue, hpow]
      by_cases h : value * 10 ≤ I.negLimit
      · have hguard : ¬ value > I.negLimit / 10 := by omega
        have h1 : fitU I ((value : Int) * 10) = .ok (value * 10) := by
          exact_mod_cast fitU_of_le (I := I) h
        simp only [bind, Except.bind, hguard, if_false, h1]
        exact ih (value * 10) h
      · have hguard : value > I.negLimit / 10 := by omega
        have hbig : ¬ value * 10 * 10 ^ k ≤ I.negLimit := by
          have : 1 ≤ 10 ^ k := Nat.one_le_pow _ _ (by omega)
          nlinarith
        rw [if_neg hbig]
        simp only [bind, Except.bind, hguard, if_true]
        rfl

theorem roundValue_eq {I : IntType} (roundUp : Bool) {value : Nat} (hv : value ≤ I.negLimit) :
    roundValue I roundUp value
      = if value + roundUp.toNat ≤ I.negLimit then .ok (value + roundUp.toNat)
        else .error .reject := by
  cases roundUp with
  | false => simp [roundValue, hv, pure, Except.pure]
  | true =>
      by_cases h : value + 1 ≤ I.negLimit
      · have hguard : ¬ value ≥ I.negLimit := by omega
        have h1 : fitU I ((value : Int) + 1) = .ok (value + 1) := by
          exact_mod_cast fitU_of_le (I := I) h
        simp [roundValue, hguard, h1, h]
      · have hguard : value ≥ I.negLimit := by omega
        simp [roundValue, hguard, h, bind, Except.bind]
        rfl

/-! ## The digit loop on unbounded naturals -/

/-- `parseChar` without a limit on `value` and `decimals`; `none` is a malformed text. -/
def scanChar (st : ParseState) (c : Char) : Option ParseState :=
  if c = '.' then
    if st.decimals ≥ 0 then none else some { st with decimals := 0 }
  else if ¬ IsDigit c then none
  else if st.decimals ≥ FIXED_DIGITS then
    some { st with
      anyDigit := true
      roundUp := if st.decimals = FIXED_DIGITS then decide (c ≥ '5') else st.roundUp
      decimals := st.decimals + 1 }
  else
    some { st with
      anyDigit := true
      value := 10 * st.value + digitVal c
      decimals := if st.decimals ≥ 0 then st.decimals + 1 else st.decimals }

/-- The unbounded result, cut off at the limit. -/
def capped (I : IntType) : Option ParseState → Except Exit ParseState
  | none => .error .reject
  | some st => if st.value ≤ I.negLimit then .ok st else .error .reject

theorem not_isDigit_iff {c : Char} : (c < '0' ∨ c > '9') ↔ ¬ IsDigit c := by
  rw [IsDigit, not_and_or, Char.not_le, Char.not_le]

theorem fitInt_ok {n : Int} (h0 : 0 ≤ n) (h : n < 2 ^ 31) : fitInt n = .ok n := by
  rw [fitInt, if_pos ⟨by omega, h⟩]

theorem parseChar_eq {I : IntType} {st : ParseState} (c : Char) (hv : st.value ≤ I.negLimit)
    (hd : st.decimals + 1 < 2 ^ 31) : parseChar I st c = capped I (scanChar st c) := by
  by_cases hp : c = '.'
  · by_cases h0 : st.decimals ≥ 0
    · simp [parseChar, scanChar, capped, hp, h0, bind, Except.bind, throw, throwThe,
        MonadExceptOf.throw]
    · simp [parseChar, scanChar, capped, hp, h0, hv, pure, Except.pure]
  · by_cases hdig : IsDigit c
    · have hnd : ¬ (c < '0' ∨ c > '9') := by rw [not_isDigit_iff]; simpa using hdig
      by_cases h8 : st.decimals ≥ FIXED_DIGITS
      · have hf := fitInt_ok (n := st.decimals + 1) (by omega) hd
        simp [parseChar, scanChar, capped, hp, hnd, hdig, h8, hf, hv, pure, Except.pure, bind,
          Except.bind]
      · by_cases hle : 10 * st.value + digitVal c ≤ I.negLimit
        · by_cases h0 : st.decimals ≥ 0
          · have hf := fitInt_ok (n := st.decimals + 1) (by omega) hd
            simp [parseChar, scanChar, capped, hp, hnd, hdig, h8, hf, hle, h0,
              pushDigit_eq (digitVal_le hdig), pure, Except.pure, bind, Except.bind]
          · simp [parseChar, scanChar, capped, hp, hnd, hdig, h8, hle, h0,
              pushDigit_eq (digitVal_le hdig), pure, Except.pure, bind, Except.bind]
        · simp [parseChar, scanChar, capped, hp, hnd, hdig, h8, hle,
            pushDigit_eq (digitVal_le hdig), bind, Except.bind]
    · have hnd : c < '0' ∨ c > '9' := not_isDigit_iff.mpr hdig
      simp [parseChar, scanChar, capped, hp, hnd, hdig, bind, Except.bind, throw,
        throwThe, MonadExceptOf.throw]

/-- What one accepted character does to the counters. -/
theorem scanChar_some {st st' : ParseState} {c : Char} (h : scanChar st c = some st') :
    st.value ≤ st'.value ∧
    ((c = '.' ∧ st.decimals < 0 ∧ st'.decimals = 0) ∨
      (IsDigit c ∧ 0 ≤ st.decimals ∧ st'.decimals = st.decimals + 1) ∨
      (IsDigit c ∧ st.decimals < 0 ∧ st'.decimals = st.decimals)) := by
  unfold scanChar at h
  by_cases hp : c = '.'
  · rw [if_pos hp] at h
    split_ifs at h with h0
    cases h
    exact ⟨Nat.le_refl _, Or.inl ⟨hp, by omega, rfl⟩⟩
  · rw [if_neg hp] at h
    by_cases hdig : IsDigit c
    · rw [if_neg (not_not.mpr hdig)] at h
      by_cases h8 : st.decimals ≥ FIXED_DIGITS
      · rw [if_pos h8] at h
        cases h
        exact ⟨Nat.le_refl _, Or.inr (Or.inl ⟨hdig, by omega, rfl⟩)⟩
      · rw [if_neg h8] at h
        cases h
        refine ⟨by dsimp only; omega, Or.inr ?_⟩
        by_cases h0 : st.decimals ≥ 0
        · exact Or.inl ⟨hdig, h0, if_pos h0⟩
        · exact Or.inr ⟨hdig, by omega, if_neg h0⟩
    · rw [if_pos hdig] at h
      cases h

theorem scanChars_value_le {body : List Char} {st st' : ParseState}
    (h : body.foldlM scanChar st = some st') : st.value ≤ st'.value := by
  induction body generalizing st with
  | nil => cases h; exact Nat.le_refl _
  | cons c body ih =>
      rw [List.foldlM_cons] at h
      obtain ⟨st1, h1, h2⟩ := Option.bind_eq_some_iff.mp h
      exact Nat.le_trans (scanChar_some h1).1 (ih h2)

/-- **The guards fire exactly when the final value is above the limit.** -/
theorem parseChars_eq {I : IntType} (body : List Char) (st : ParseState)
    (hv : st.value ≤ I.negLimit) (h0 : -1 ≤ st.decimals)
    (hd : st.decimals + body.length < 2 ^ 31) :
    body.foldlM (parseChar I) st = capped I (body.foldlM scanChar st) := by
  induction body generalizing st with
  | nil => simp [capped, hv, pure, Except.pure]
  | cons c body ih =>
      rw [List.length_cons] at hd
      push_cast at hd
      rw [List.foldlM_cons, List.foldlM_cons, parseChar_eq c hv (by omega)]
      cases hs : scanChar st c with
      | none => rfl
      | some st1 =>
          have h1 : -1 ≤ st1.decimals ∧ st1.decimals ≤ st.decimals + 1 := by
            have := (scanChar_some hs).2
            omega
          by_cases hv1 : st1.value ≤ I.negLimit
          · simp only [capped, hv1, if_true]
            exact ih st1 hv1 h1.1 (by omega)
          · -- the value has passed the limit and stays above it
            simp only [capped, hv1, if_false]
            show Except.error Exit.reject = capped I (body.foldlM scanChar st1)
            cases hb : body.foldlM scanChar st1 with
            | none => rfl
            | some st2 =>
                have := scanChars_value_le hb
                rw [capped, if_neg (by omega)]

/-! ## What the loop computes from the syntax

A text that the loop does not reject is digits with at most one point, and conversely. On such a
text the counters at the end are those of the syntax. -/

theorem scanChars_whole {w : List Char} (st : ParseState) (hw : ∀ c ∈ w, IsDigit c)
    (hd : st.decimals = -1) :
    w.foldlM scanChar st = some { st with
      value := st.value * 10 ^ w.length + numeral w
      anyDigit := st.anyDigit || !w.isEmpty } := by
  induction w generalizing st with
  | nil => simp
  | cons c w ih =>
      have hc := hw c (by simp)
      have hstep : scanChar st c = some { st with
          anyDigit := true, value := 10 * st.value + digitVal c } := by
        have h8 : ¬ st.decimals ≥ FIXED_DIGITS := by rw [hd]; decide
        have h0 : ¬ st.decimals ≥ 0 := by rw [hd]; decide
        rw [scanChar, if_neg (isDigit_ne_point hc), if_neg (not_not.mpr hc), if_neg h8, if_neg h0]
      rw [List.foldlM_cons, hstep]
      show w.foldlM scanChar _ = _
      rw [ih _ (fun d h => hw d (by simp [h])) (by exact hd), numeral_cons, List.length_cons,
        pow_succ]
      simp only [Option.some.injEq, ParseState.mk.injEq, List.isEmpty_cons]
      refine ⟨by ring, trivial, by simp, trivial⟩

/-- Decimals past the eighth are dropped; the first of them decides `roundUp`. -/
theorem scanChars_decimals {f : List Char} (st : ParseState) {d : Nat}
    (hf : ∀ c ∈ f, IsDigit c) (hd : st.decimals = d) :
    f.foldlM scanChar st = some {
      value := st.value * 10 ^ (f.take (FIXED_DIGITS - d)).length
        + numeral (f.take (FIXED_DIGITS - d))
      decimals := d + f.length
      anyDigit := st.anyDigit || !f.isEmpty
      roundUp := if d ≤ FIXED_DIGITS
        then (f[FIXED_DIGITS - d]?).elim st.roundUp (fun c => decide (c ≥ '5'))
        else st.roundUp } := by
  induction f generalizing st d with
  | nil => cases st; simp_all
  | cons c f ih =>
      have hc := hf c (by simp)
      have hrest : ∀ x ∈ f, IsDigit x := fun x h => hf x (by simp [h])
      rw [List.foldlM_cons, scanChar, if_neg (isDigit_ne_point hc), if_neg (not_not.mpr hc)]
      -- the ninth decimal sets `roundUp`, the later ones only count
      by_cases h8 : FIXED_DIGITS ≤ d
      · have hge : st.decimals ≥ FIXED_DIGITS := by rw [hd]; exact_mod_cast h8
        rw [if_pos hge]
        show f.foldlM scanChar _ = _
        rw [ih _ (d := d + 1) hrest (by dsimp only; omega)]
        have hz : FIXED_DIGITS - d = 0 := by omega
        have hz' : FIXED_DIGITS - (d + 1) = 0 := by omega
        simp only [hz, hz', List.take_zero, List.length_cons, Option.some.injEq,
          ParseState.mk.injEq]
        refine ⟨trivial, by push_cast; ring, by simp, ?_⟩
        rw [if_neg (by omega)]
        by_cases he : d = FIXED_DIGITS
        · rw [if_pos (by rw [hd, he]), if_pos (by omega)]
          simp
        · rw [if_neg (by rw [hd]; exact_mod_cast he), if_neg (by omega)]
      · have hge : ¬ st.decimals ≥ FIXED_DIGITS := by rw [hd]; exact_mod_cast h8
        have h0 : st.decimals ≥ 0 := by rw [hd]; omega
        rw [if_neg hge, if_pos h0]
        show f.foldlM scanChar _ = _
        rw [ih _ (d := d + 1) hrest (by dsimp only; omega)]
        have hs : FIXED_DIGITS - d = FIXED_DIGITS - (d + 1) + 1 := by omega
        rw [hs]
        simp only [List.take_succ_cons, List.length_cons, Option.some.injEq,
          ParseState.mk.injEq, numeral_cons, List.getElem?_cons_succ]
        refine ⟨by ring, by push_cast; ring, by simp, ?_⟩
        rw [if_pos (by omega), if_pos (by omega)]

/-- Whether the first dropped decimal rounds the value up. -/
def roundsUp (d : DecimalText) : Bool := (d.decimals[FIXED_DIGITS]?).elim false (fun c => c ≥ '5')

/-- **The loop on a well formed text.** -/
theorem scanChars_body (d : DecimalText) :
    d.body.foldlM scanChar {} = some {
      value := numeral (d.whole ++ d.decimals.take FIXED_DIGITS)
      decimals := d.fraction.elim (-1) (fun f => (f.length : Int))
      anyDigit := true
      roundUp := roundsUp d } := by
  have hany := d.some_digit
  rw [DecimalText.body, List.foldlM_append, scanChars_whole _ d.whole_digits rfl]
  cases hf : d.fraction with
  | none =>
      rw [hf] at hany
      have hw : d.whole ≠ [] := by simpa using hany
      simp [roundsUp, DecimalText.decimals, hf, hw]
  | some f =>
      have hdig : ∀ c ∈ f, IsDigit c := fun c hc => d.fraction_digits c (by simpa [hf] using hc)
      rw [hf] at hany
      simp only [Option.bind_eq_bind, Option.bind_some, Option.elim_some]
      rw [List.foldlM_cons, scanChar, if_pos rfl, if_neg (by simp)]
      simp only [Option.bind_eq_bind, Option.bind_some]
      rw [scanChars_decimals _ (d := 0) hdig rfl]
      simp only [roundsUp, DecimalText.decimals, hf, Option.getD_some,
        Option.some.injEq, ParseState.mk.injEq, Nat.sub_zero, numeral_append]
      refine ⟨by ring, by simp, ?_, by simp⟩
      simp only [Option.getD_some, ne_eq, List.append_eq_nil_iff, not_and] at hany
      cases hw : d.whole with
      | nil => simpa [List.isEmpty_eq_false_iff] using hany hw
      | cons c w => simp

theorem digits_of_scanChars {f : List Char} {st st' : ParseState} (h0 : 0 ≤ st.decimals)
    (h : f.foldlM scanChar st = some st') : ∀ c ∈ f, IsDigit c := by
  induction f generalizing st with
  | nil => intro c hc; cases hc
  | cons a f ih =>
      rw [List.foldlM_cons] at h
      obtain ⟨st1, h1, h2⟩ := Option.bind_eq_some_iff.mp h
      have ha : IsDigit a ∧ 0 ≤ st1.decimals := by
        rcases (scanChar_some h1).2 with ⟨-, h, -⟩ | ⟨hdig, -, h⟩ | ⟨-, h, -⟩
        · omega
        · exact ⟨hdig, by omega⟩
        · omega
      intro c hc
      rcases List.mem_cons.mp hc with rfl | hc
      · exact ha.1
      · exact ih ha.2 h2 c hc

/-- A text the loop does not reject is digits with at most one point. -/
theorem body_of_scanChars {body : List Char} {st st' : ParseState} (h0 : st.decimals = -1)
    (h : body.foldlM scanChar st = some st') :
    ∃ (whole : List Char) (fraction : Option (List Char)),
      (∀ c ∈ whole, IsDigit c) ∧ (∀ c ∈ fraction.getD [], IsDigit c) ∧
      body = whole ++ fraction.elim [] ('.' :: ·) := by
  induction body generalizing st with
  | nil => exact ⟨[], none, by simp, by simp, rfl⟩
  | cons a body ih =>
      rw [List.foldlM_cons] at h
      obtain ⟨st1, h1, h2⟩ := Option.bind_eq_some_iff.mp h
      by_cases hp : a = '.'
      · rw [scanChar, if_pos hp, if_neg (by rw [h0]; decide)] at h1
        cases h1
        exact ⟨[], some body, by simp, digits_of_scanChars (by simp) h2, by simp [hp]⟩
      · have ha : IsDigit a ∧ st1.decimals = -1 := by
          rcases (scanChar_some h1).2 with ⟨h, -⟩ | ⟨-, h, -⟩ | ⟨hdig, -, h⟩
          · exact absurd h hp
          · omega
          · exact ⟨hdig, by omega⟩
        obtain ⟨w, f, hw, hf, rfl⟩ := ih ha.2 h2
        refine ⟨a :: w, f, ?_, hf, rfl⟩
        intro c hc
        rcases List.mem_cons.mp hc with rfl | hc
        · exact ha.1
        · exact hw c hc

/-! ## The sign -/

theorem readSign_render (d : DecimalText) :
    readSign d.render = (decide (d.sign = .minus), d.body) := by
  have hhead : ∀ c s, d.body = c :: s → ¬ (c = '-' ∨ c = '+') := by
    intro c s hb hc
    have hmem : IsDigit c ∨ c = '.' := by
      rw [DecimalText.body] at hb
      cases hw : d.whole with
      | nil =>
          rw [hw] at hb
          cases hf : d.fraction with
          | none => simp [hf] at hb
          | some f => simp [hf] at hb; exact Or.inr hb.1.symm
      | cons a w =>
          rw [hw] at hb
          injection hb with hac _
          exact Or.inl (d.whole_digits c (by rw [hw, hac]; simp))
    rcases hc with rfl | rfl <;> revert hmem <;> decide
  rw [DecimalText.render]
  cases hs : d.sign with
  | plus => rfl
  | minus => rfl
  | absent =>
      show readSign d.body = _
      cases hb : d.body with
      | nil => rfl
      | cons c s => rw [readSign, if_neg (hhead c s hb)]; rfl

theorem readSign_chars (s : List Char) :
    ∃ sign : Sign, s = sign.chars ++ (readSign s).2 := by
  cases s with
  | nil => exact ⟨.absent, rfl⟩
  | cons c s =>
      rw [readSign]
      split_ifs with hc
      · rcases hc with rfl | rfl
        · exact ⟨.minus, rfl⟩
        · exact ⟨.plus, rfl⟩
      · exact ⟨.absent, rfl⟩

/-- A text accepted by the digit loop is a decimal. -/
theorem exists_decimalText {s : List Char} {st : ParseState}
    (h : (readSign s).2.foldlM scanChar {} = some st) (hany : st.anyDigit = true) :
    ∃ d : DecimalText, d.render = s := by
  obtain ⟨sign, hs⟩ := readSign_chars s
  obtain ⟨w, f, hw, hf, hb⟩ := body_of_scanChars rfl h
  have hsome : w ++ f.getD [] ≠ [] := by
    intro hnil
    obtain ⟨rfl, hfn⟩ := List.append_eq_nil_iff.mp hnil
    rw [hb] at h
    cases f with
    | none => cases h; cases hany
    | some f =>
        have hf' : f = [] := hfn
        subst hf'
        rw [List.nil_append, Option.elim_some, List.foldlM_cons, scanChar, if_pos rfl,
          if_neg (by decide)] at h
        cases h
        cases hany
  refine ⟨⟨sign, w, f, hw, hf, hsome⟩, ?_⟩
  rw [hs, hb]
  rfl

/-! ## The value

Up to eight decimals the numeral is padded with zeros, beyond that it is cut and rounded on the
first digit dropped. Both are the same rounding of the number denoted. -/

/-- The number `d` denotes in `10^-8` units, rounded half away from zero. -/
def fixedValue (d : DecimalText) : Int := roundHalfAway (d.value * FIXED_SCALE)

/-- The magnitude the code ends with: the kept digits, padded, plus the rounding. -/
def fixedMagnitude (d : DecimalText) : Nat :=
  numeral (d.whole ++ d.decimals.take FIXED_DIGITS) * 10 ^ (FIXED_DIGITS - d.decimals.length)
    + (roundsUp d).toNat

/-- Padding, or dropping digits and rounding on the first of them, is rounding. -/
theorem rounded_eq (d : DecimalText) :
    roundHalfAway (d.abs * FIXED_SCALE) = fixedMagnitude d := by
  have hscale : ((FIXED_SCALE : Nat) : ℚ) = 10 ^ FIXED_DIGITS := by
    norm_num [FIXED_SCALE, FIXED_DIGITS]
  rw [DecimalText.abs, fixedMagnitude, hscale]
  -- up to eight decimals are padded; of more the ninth decides
  by_cases hlen : d.decimals.length ≤ FIXED_DIGITS
  · have hnone : d.decimals[FIXED_DIGITS]? = none := List.getElem?_eq_none hlen
    have hpow : (10 : ℚ) ^ FIXED_DIGITS
        = 10 ^ d.decimals.length * 10 ^ (FIXED_DIGITS - d.decimals.length) := by
      rw [← pow_add, Nat.add_sub_cancel' hlen]
    rw [List.take_of_length_le hlen, roundsUp, hnone, hpow]
    have hval : (numeral (d.whole ++ d.decimals) : ℚ) / 10 ^ d.decimals.length
        * (10 ^ d.decimals.length * 10 ^ (FIXED_DIGITS - d.decimals.length))
        = (numeral (d.whole ++ d.decimals) * 10 ^ (FIXED_DIGITS - d.decimals.length) : Nat) := by
      push_cast
      field_simp
    rw [hval, roundHalfAway_natCast]
    simp
  · have h8 : FIXED_DIGITS < d.decimals.length := by omega
    obtain ⟨c, rest, hsplit⟩ : ∃ c rest, d.decimals.drop FIXED_DIGITS = c :: rest :=
      ⟨_, _, List.drop_eq_getElem_cons h8⟩
    have hdec : d.decimals = d.decimals.take FIXED_DIGITS ++ c :: rest := by
      rw [← hsplit, List.take_append_drop]
    have hrlen : d.decimals.length = FIXED_DIGITS + (rest.length + 1) := by
      have := congrArg List.length hsplit
      rw [List.length_drop, List.length_cons] at this
      omega
    have hget : d.decimals[FIXED_DIGITS]? = some c := by
      rw [← List.head?_drop, hsplit]
      rfl
    have hmem : ∀ x ∈ c :: rest, IsDigit x := fun x hx =>
      d.fraction_digits x (List.mem_of_mem_drop (hsplit ▸ hx))
    have hround := roundHalfAway_numeral (d.whole ++ d.decimals.take FIXED_DIGITS) c rest
      (hmem c (by simp)) (fun x hx => hmem x (by simp [hx]))
    have hval : (numeral (d.whole ++ d.decimals) : ℚ) / 10 ^ d.decimals.length * 10 ^ FIXED_DIGITS
        = numeral (d.whole ++ d.decimals.take FIXED_DIGITS ++ c :: rest)
          / 10 ^ (rest.length + 1) := by
      rw [List.append_assoc, ← hdec, hrlen, pow_add]
      field_simp
    rw [hval, hround, roundsUp, hget, Nat.sub_eq_zero_of_le (by omega), pow_zero, mul_one]
    by_cases h5 : c ≥ '5'
    · have h5' : '5' ≤ c := h5
      simp [h5']
    · have h5' : ¬ '5' ≤ c := h5
      simp [h5']

theorem fixedValue_eq (d : DecimalText) :
    fixedValue d = if d.sign = .minus then -(fixedMagnitude d : Int) else fixedMagnitude d := by
  have habs : 0 ≤ d.abs * FIXED_SCALE := mul_nonneg d.abs_nonneg (by positivity)
  rw [fixedValue, DecimalText.value]
  split_ifs
  · rw [neg_mul, roundHalfAway_neg habs, rounded_eq]
  · rw [rounded_eq]

theorem ofUnsigned_of_lt {I : IntType} {n : Nat} (h : n < I.negLimit) : I.ofUnsigned n = n := by
  rw [IntType.ofUnsigned, ← two_mul_negLimit I]
  exact Int.bmod_eq_of_le (by omega) (by omega)

theorem ofUnsigned_neg {I : IntType} {n : Nat} (h : n ≤ I.negLimit) :
    I.ofUnsigned (2 ^ I.width - n) = -n := by
  have hpos := ten_le_negLimit I
  rw [IntType.ofUnsigned, ← two_mul_negLimit I]
  have hcast : ((2 * I.negLimit - n : Nat) : Int) = -n + (2 * I.negLimit : Nat) := by omega
  rw [hcast, Int.add_bmod_right]
  exact Int.bmod_eq_of_le (by omega) (by omega)

theorem inRange_fixedValue {I : IntType} (d : DecimalText) :
    I.InRange (fixedValue d) ↔
      ¬ (fixedMagnitude d > I.negLimit ∨
        ((!decide (d.sign = .minus)) = true ∧ fixedMagnitude d = I.negLimit)) := by
  rw [fixedValue_eq, IntType.InRange]
  have hpos := ten_le_negLimit I
  by_cases hs : d.sign = .minus <;> simp [hs] <;> omega

/-- **`parseFixed` on a well formed text.** -/
theorem parseFixedValue_render {I : IntType} (d : DecimalText) (hlen : d.render.length < 2 ^ 31) :
    parseFixedValue I d.render
      = if I.InRange (fixedValue d) then .ok (fixedValue d) else .error .reject := by
  have hbody : d.body.length < 2 ^ 31 := by
    have : d.render.length = d.sign.chars.length + d.body.length := by
      rw [DecimalText.render, List.length_append]
    omega
  have hloop := parseChars_eq (I := I) d.body {} (Nat.zero_le _) (by decide) (by dsimp only; omega)
  have hpad : (d.fraction.elim (-1) (fun f => (f.length : Int))).toNat = d.decimals.length := by
    rw [DecimalText.decimals]
    cases d.fraction <;> rfl
  rw [scanChars_body d] at hloop
  -- each guard on the way is implied by the last one
  have hmono : numeral (d.whole ++ d.decimals.take FIXED_DIGITS)
      ≤ numeral (d.whole ++ d.decimals.take FIXED_DIGITS)
        * 10 ^ (FIXED_DIGITS - d.decimals.length) :=
    Nat.le_mul_of_pos_right _ (by positivity)
  set v := numeral (d.whole ++ d.decimals.take FIXED_DIGITS) with hv
  set k := FIXED_DIGITS - d.decimals.length with hk
  have hmag : fixedMagnitude d = v * 10 ^ k + (roundsUp d).toNat := rfl
  have hrange := inRange_fixedValue (I := I) d
  rw [hmag] at hrange
  simp only [parseFixedValue, readSign_render, hloop, capped]
  by_cases h1 : v ≤ I.negLimit
  · rw [if_pos h1]
    simp only [bind, Except.bind, pure, Except.pure, Bool.not_true, Bool.false_eq_true, if_false,
      hpad, ← hk, padValue_eq k v h1]
    by_cases h2 : v * 10 ^ k ≤ I.negLimit
    · simp only [h2, if_true, roundValue_eq (roundsUp d) h2]
      by_cases h3 : v * 10 ^ k + (roundsUp d).toNat ≤ I.negLimit
      · simp only [h3, if_true]
        by_cases hin : I.InRange (fixedValue d)
        · rw [if_pos hin, if_neg (hrange.mp hin), fixedValue_eq, hmag]
          by_cases hs : d.sign = .minus
          · simp only [hs, decide_true, if_true]
            rw [ofUnsigned_neg h3]
          · have hlt : v * 10 ^ k + (roundsUp d).toNat < I.negLimit := by
              have := hrange.mp hin
              simp only [hs, decide_false, Bool.not_false, true_and] at this
              omega
            simp only [hs, decide_false, Bool.false_eq_true, if_false]
            rw [ofUnsigned_of_lt hlt]
        · rw [if_neg hin, if_pos (by rwa [hrange, not_not] at hin)]
          rfl
      · have hout : ¬ I.InRange (fixedValue d) := by
          rw [hrange, not_not]
          exact Or.inl (by omega)
        simp only [h3, hout, if_false]
    · have hout : ¬ I.InRange (fixedValue d) := by
        rw [hrange, not_not]
        exact Or.inl (by omega)
      simp only [h2, hout, if_false]
  · have hout : ¬ I.InRange (fixedValue d) := by
      rw [hrange, not_not]
      exact Or.inl (by omega)
    simp only [h1, hout, if_false]
    rfl

/-- A text that is no decimal is rejected. -/
theorem parseFixedValue_malformed {I : IntType} {s : List Char} (hlen : s.length < 2 ^ 31)
    (h : ¬ ∃ d : DecimalText, d.render = s) : parseFixedValue I s = .error .reject := by
  have hbody : (readSign s).2.length < 2 ^ 31 := by
    obtain ⟨sign, hs⟩ := readSign_chars s
    have := congrArg List.length hs
    rw [List.length_append] at this
    omega
  have hloop := parseChars_eq (I := I) (readSign s).2 {} (Nat.zero_le _) (by decide)
    (by dsimp only; omega)
  simp only [parseFixedValue, hloop]
  cases hscan : (readSign s).2.foldlM scanChar {} with
  | none => rfl
  | some st =>
      have hany : st.anyDigit = false := by
        by_contra hne
        exact h (exists_decimalText hscan (by simpa using hne))
      by_cases hv : st.value ≤ I.negLimit
      · simp only [capped, hv, if_true, bind, Except.bind, hany]
        rfl
      · simp only [capped, hv, if_false]
        rfl

/-- **`parseFixed` accepts exactly its grammar and computes the rounded value.** On every text
shorter than `2^31` no operation leaves its type's range, the result is `true` exactly for the
decimals whose rounded value fits `Int`, `out` is then that value, and is untouched otherwise. -/
theorem parseFixed_correct (I : IntType) (s : List Char) (out : Int) (hlen : s.length < 2 ^ 31) :
    ∃ (ok : Bool) (out' : Int), parseFixed I s out = some (ok, out') ∧
      (ok = true ↔ ∃ d : DecimalText, d.render = s ∧ I.InRange (fixedValue d)) ∧
      (ok = true → ∀ d : DecimalText, d.render = s → out' = fixedValue d) ∧
      (ok = false → out' = out) := by
  -- every decimal with this text has the value that is computed
  by_cases hd : ∃ d : DecimalText, d.render = s
  · obtain ⟨d, rfl⟩ := hd
    have hres : ∀ d' : DecimalText, d'.render = d.render →
        parseFixedValue I d.render
          = if I.InRange (fixedValue d') then .ok (fixedValue d') else .error .reject := by
      intro d' h'
      rw [← h']
      exact parseFixedValue_render d' (h' ▸ hlen)
    by_cases hin : I.InRange (fixedValue d)
    · have hok := hres d rfl
      rw [if_pos hin] at hok
      refine ⟨true, fixedValue d, by rw [parseFixed, hok], by simpa using ⟨d, rfl, hin⟩, ?_,
        by simp⟩
      intro _ d' h'
      have h2 := hres d' h'
      rw [hok] at h2
      split_ifs at h2
      exact Except.ok.inj h2
    · have hno := hres d rfl
      rw [if_neg hin] at hno
      refine ⟨false, out, by rw [parseFixed, hno], ?_, by simp, by simp⟩
      simp only [Bool.false_eq_true, false_iff, not_exists, not_and]
      intro d' h' hin'
      have h2 := hres d' h'
      rw [if_pos hin', hno] at h2
      cases h2
  · refine ⟨false, out, by rw [parseFixed, parseFixedValue_malformed hlen hd], ?_, by simp, by simp⟩
    simp only [Bool.false_eq_true, false_iff, not_exists, not_and]
    intro d' h'
    exact absurd ⟨d', h'⟩ hd

/-- The most negative value of `int64_t`, and its positive counterpart. -/
theorem parseFixed_correct_limit :
    ∃ (ok : Bool) (out' : Int),
      parseFixed .int64 "-92233720368.54775808".toList 7 = some (ok, out') ∧
      (ok = true ↔ ∃ d : DecimalText, d.render = "-92233720368.54775808".toList ∧
        IntType.InRange .int64 (fixedValue d)) ∧
      (ok = true → ∀ d : DecimalText, d.render = "-92233720368.54775808".toList →
        out' = fixedValue d) ∧
      (ok = false → out' = 7) :=
  parseFixed_correct .int64 "-92233720368.54775808".toList 7 (by decide)

end AstraConnect.Utils
