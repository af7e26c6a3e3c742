import Mathlib.Tactic
import Mathlib.Data.List.Sort

set_option autoImplicit false

/-! # Visitors that can stop, and scans over the set bits of a word

* `foldUntil fn s l` visits `l` in order with a state, until the visitor `fn` answers `false`;
  `Calls` says which calls of `fn` that makes (`foldUntil_calls`).
* `setBits x` lists the positions of the set bits of a machine word. Taking the lowest one off
  with `x &&& (x - 1)`, or the highest one with a mask, takes off the head of the list or of its
  reverse (`setBits_ctz`, `setBits_clz`); these are the steps of a bit scan.
-/

namespace Scan

/-! ## Visiting until told to stop

The visitor is a function of its state, so a visit is a fold with an early end. Visits of parts,
one after the other, are a visit of the whole as long as none of them was told to stop. -/

section foldUntil

variable {σ α β : Type*}

/-- Visit a list in order until `fn` answers `false`. The flag is `false` when it did. -/
def foldUntil (fn : σ → α → σ × Bool) (s : σ) : List α → σ × Bool
  | [] => (s, true)
  | a :: l => if (fn s a).2 then foldUntil fn (fn s a).1 l else ((fn s a).1, false)

@[simp] theorem foldUntil_nil (fn : σ → α → σ × Bool) (s : σ) : foldUntil fn s [] = (s, true) := rfl

theorem foldUntil_append (fn : σ → α → σ × Bool) (s : σ) (l m : List α) :
    foldUntil fn s (l ++ m)
      = if (foldUntil fn s l).2 then foldUntil fn (foldUntil fn s l).1 m else foldUntil fn s l := by
  induction l generalizing s with
  | nil => simp
  | cons a l ih =>
      rw [List.cons_append, foldUntil, foldUntil]
      by_cases h : (fn s a).2 = true
      · rw [if_pos h, if_pos h, ih]
      · rw [if_neg h, if_neg h]
        simp

theorem foldUntil_map (fn : σ → β → σ × Bool) (f : α → β) (s : σ) (l : List α) :
    foldUntil fn s (l.map f) = foldUntil (fun s a => fn s (f a)) s l := by
  induction l generalizing s with
  | nil => rfl
  | cons a l ih => rw [List.map_cons, foldUntil, foldUntil, ih]

/-- Visiting a list of lists, each with its own scan, is visiting their concatenation. -/
theorem foldUntil_flatMap (fn : σ → β → σ × Bool) (f : α → List β) (s : σ) (l : List α) :
    foldUntil (fun s a => foldUntil fn s (f a)) s l = foldUntil fn s (l.flatMap f) := by
  induction l generalizing s with
  | nil => rfl
  | cons a l ih =>
      rw [List.flatMap_cons, foldUntil_append, foldUntil]
      by_cases h : (foldUntil fn s (f a)).2 = true
      · rw [if_pos h, if_pos h, ih]
      · rw [if_neg h, if_neg h]
        exact Prod.ext rfl (by simpa using h)

/-- The calls of `fn` in a visit: it is called on the items of the list one after the other, each
time with the state that the call before has left, and never again after it has answered `false`.
The last argument is the state left in the end, and whether every call has answered `true`. -/
inductive Calls (fn : σ → α → σ × Bool) : σ → List α → σ × Bool → Prop
  | none (s : σ) : Calls fn s [] (s, true)
  | stop {s s' : σ} {a : α} (h : fn s a = (s', false)) : Calls fn s [a] (s', false)
  | next {s s' : σ} {a : α} {l : List α} {r : σ × Bool} (h : fn s a = (s', true))
      (hrest : Calls fn s' l r) : Calls fn s (a :: l) r

/-- A visit calls `fn` on a prefix of the list, and on all of it unless it was told to stop. -/
theorem foldUntil_calls (fn : σ → α → σ × Bool) (s : σ) (l : List α) :
    ∃ visited skipped, l = visited ++ skipped ∧ Calls fn s visited (foldUntil fn s l) ∧
      ((foldUntil fn s l).2 = true → skipped = []) := by
  induction l generalizing s with
  | nil => exact ⟨[], [], rfl, .none s, fun _ => rfl⟩
  | cons a l ih =>
      rw [foldUntil]
      rcases hfn : fn s a with ⟨s', ok⟩
      cases ok with
      | true =>
          obtain ⟨visited, skipped, hl, hcalls, hall⟩ := ih s'
          exact ⟨a :: visited, skipped, by rw [hl, List.cons_append], .next hfn hcalls, hall⟩
      | false =>
          refine ⟨[a], l, rfl, .stop hfn, fun h => ?_⟩
          cases h

/-- The visitor that writes the items to consecutive cells of an array, and stops when `count`
of them are written. -/
def writeUpTo (count : Nat) (st : (Nat → α) × Nat) (a : α) : ((Nat → α) × Nat) × Bool :=
  ((Function.update st.1 st.2 a, st.2 + 1), decide (st.2 + 1 < count))

/-- It writes the first `count` items and nothing else. -/
theorem foldUntil_writeUpTo (l : List α) (count : Nat) (out : Nat → α) (n : Nat)
    (hn : n < count) :
    (foldUntil (writeUpTo count) (out, n) l).1
      = (fun i => if n ≤ i then ((l.take (count - n))[i - n]?).getD (out i) else out i,
          n + min (count - n) l.length) := by
  induction l generalizing out n with
  | nil => simp
  | cons a l ih =>
      obtain ⟨k, hk⟩ : ∃ k, count - n = k + 1 := ⟨count - n - 1, by omega⟩
      -- the cell written now, against the cells of the list shifted by one
      have hcell : ∀ i m, (if n ≤ i then (((a :: l).take (m + 1))[i - n]?).getD (out i) else out i)
          = if n + 1 ≤ i then ((l.take m)[i - (n + 1)]?).getD (Function.update out n a i)
            else Function.update out n a i := by
        intro i m
        rcases Nat.lt_trichotomy i n with hlt | rfl | hgt
        · rw [if_neg (by omega), if_neg (by omega), Function.update_of_ne (by omega)]
        · rw [if_pos (Nat.le_refl _), if_neg (by omega)]
          simp
        · rw [if_pos (by omega), if_pos (by omega), Function.update_of_ne (by omega),
            List.take_succ_cons, show i - n = i - (n + 1) + 1 by omega, List.getElem?_cons_succ]
      rw [foldUntil]
      by_cases h : n + 1 < count
      · rw [if_pos (by simpa [writeUpTo] using h)]
        simp only [writeUpTo]
        rw [ih (Function.update out n a) (n + 1) h, hk, show count - (n + 1) = k by omega]
        refine Prod.ext (funext fun i => (hcell i k).symm) ?_
        simp only [List.length_cons]
        omega
      · have hk0 : k = 0 := by omega
        rw [if_neg (by simpa [writeUpTo] using h), hk, hk0]
        refine Prod.ext (funext fun i => ?_) ?_
        · refine Eq.trans ?_ (hcell i 0).symm
          simp [writeUpTo]
        · simp only [writeUpTo, List.length_cons]
          omega

end foldUntil

/-! ## The set bits of a word

An ascending scan takes the lowest set bit off, a descending one the highest. Both make the word
smaller, so both end. -/

section setBits

variable {w : Nat}

/-- The positions of the set bits, lowest first. -/
def setBits (x : BitVec w) : List Nat := (List.range w).filter (fun i => x.getLsbD i)

theorem mem_setBits {x : BitVec w} {i : Nat} : i ∈ setBits x ↔ x.getLsbD i = true := by
  rw [setBits, List.mem_filter, List.mem_range]
  exact ⟨fun h => h.2, fun h => ⟨BitVec.lt_of_getLsbD h, h⟩⟩

theorem pairwise_setBits (x : BitVec w) : (setBits x).Pairwise (· < ·) :=
  List.pairwise_lt_range.filter _

@[simp] theorem setBits_zero : setBits (0 : BitVec w) = [] := by
  simp [setBits]

/-- The lowest set bit is the only one that `x &&& (x - 1)` clears. -/
theorem getLsbD_and_sub_one {x : BitVec w} (hx : x ≠ 0) (i : Nat) :
    (x &&& (x - 1)).getLsbD i = (x.getLsbD i && decide (i ≠ x.ctz.toNat)) := by
  set c := x.ctz.toNat with hc
  have hbit : x.getLsbD c = true := BitVec.getLsbD_true_ctz_of_ne_zero hx
  have hlow : x.toNat % 2 ^ c = 0 := by
    apply Nat.eq_of_testBit_eq
    intro j
    rw [Nat.testBit_mod_two_pow, Nat.zero_testBit]
    by_cases hj : j < c
    · have := BitVec.getLsbD_false_of_lt_ctz (x := x) hj
      rw [BitVec.getLsbD] at this
      simp [this]
    · simp [hj]
  -- `x = 2^(c+1) q + 2^c`, so `x - 1` differs from it in the bits up to `c` only
  obtain ⟨q, hq⟩ : ∃ q, x.toNat = 2 ^ (c + 1) * q + 2 ^ c := by
    have hodd : x.toNat / 2 ^ c % 2 = 1 := by
      rw [BitVec.getLsbD, Nat.testBit_eq_decide_div_mod_eq] at hbit
      simpa using hbit
    refine ⟨x.toNat / 2 ^ c / 2, ?_⟩
    have h1 := Nat.div_add_mod x.toNat (2 ^ c)
    have h2 := Nat.div_add_mod (x.toNat / 2 ^ c) 2
    rw [hlow] at h1
    rw [hodd] at h2
    rw [pow_succ, Nat.mul_assoc]
    calc x.toNat = 2 ^ c * (x.toNat / 2 ^ c) := by omega
      _ = 2 ^ c * (2 * (x.toNat / 2 ^ c / 2) + 1) := by rw [h2]
      _ = 2 ^ c * (2 * (x.toNat / 2 ^ c / 2)) + 2 ^ c := by ring
  have hpos : 0 < 2 ^ c := by positivity
  have hsub : (x - 1).toNat = 2 ^ (c + 1) * q + (2 ^ c - 1) := by
    have hlt := x.isLt
    have hw : 1 < 2 ^ w := by
      rcases Nat.eq_zero_or_pos w with rfl | h
      · exact absurd (BitVec.of_length_zero (x := x)) hx
      · exact Nat.one_lt_two_pow (by omega)
    have h1 : (1 : BitVec w).toNat = 1 := Nat.mod_eq_of_lt hw
    rw [BitVec.toNat_sub_of_le (by rw [BitVec.le_def, h1]; omega), h1, hq]
    omega
  have hcmp : ∀ b < 2 ^ (c + 1), ∀ j, (2 ^ (c + 1) * q + b).testBit j
      = if j < c + 1 then b.testBit j else q.testBit (j - (c + 1)) :=
    fun b hb j => Nat.testBit_two_pow_mul_add q hb j
  have hpow : 2 ^ (c + 1) = 2 * 2 ^ c := by rw [pow_succ]; ring
  rw [BitVec.getLsbD_and, BitVec.getLsbD, BitVec.getLsbD, hq, hsub,
    hcmp _ (by omega), hcmp _ (by omega)]
  by_cases hi : i < c + 1
  · rw [if_pos hi, if_pos hi, Nat.testBit_two_pow_sub_one, Nat.testBit_two_pow]
    by_cases he : c = i
    · simp [he]
    · have : i < c := by omega
      simp [he]
  · rw [if_neg hi, if_neg hi]
    have : i ≠ c := by omega
    simp [this]

/-- **One step of an ascending scan.** -/
theorem setBits_ctz {x : BitVec w} (hx : x ≠ 0) :
    setBits x = x.ctz.toNat :: setBits (x &&& (x - 1)) := by
  have hmem : ∀ i, i ∈ setBits (x &&& (x - 1)) ↔ i ∈ setBits x ∧ i ≠ x.ctz.toNat := by
    intro i
    rw [mem_setBits, mem_setBits, getLsbD_and_sub_one hx]
    simp
  have hsorted : (x.ctz.toNat :: setBits (x &&& (x - 1))).Pairwise (· < ·) := by
    refine List.pairwise_cons.mpr ⟨?_, pairwise_setBits _⟩
    intro i hi
    obtain ⟨h1, h2⟩ := (hmem i).mp hi
    rcases Nat.lt_or_ge i x.ctz.toNat with hlt | hge
    · rw [mem_setBits, BitVec.getLsbD_false_of_lt_ctz hlt] at h1
      cases h1
    · omega
  refine (pairwise_setBits x).eq_of_mem_iff hsorted ?_
  intro i
  have hbit : x.ctz.toNat ∈ setBits x := mem_setBits.mpr (BitVec.getLsbD_true_ctz_of_ne_zero hx)
  rw [List.mem_cons, hmem]
  constructor
  · intro h
    by_cases he : i = x.ctz.toNat
    · exact Or.inl he
    · exact Or.inr ⟨h, he⟩
  · rintro (rfl | h)
    · exact hbit
    · exact h.1

theorem getLsbD_and_not_shift {x : BitVec w} {b : Nat} (i : Nat) :
    (x &&& ~~~(1#w <<< b)).getLsbD i = (x.getLsbD i && decide (i ≠ b)) := by
  by_cases hi : i < w
  · have hone : (1#w <<< b).getLsbD i = decide (i = b) := by
      rw [BitVec.getLsbD_shiftLeft, BitVec.getLsbD_one]
      by_cases he : i = b
      · subst he; simp [hi]; omega
      · by_cases hlt : i < b
        · simp [hlt, he]
        · have : i - b ≠ 0 := by omega
          simp [hlt, he, this]
    rw [BitVec.getLsbD_and, BitVec.getLsbD_not, hone]
    simp [hi]
  · rw [BitVec.getLsbD_of_ge _ _ (by omega), BitVec.getLsbD_of_ge _ _ (by omega)]
    rfl

/-- The position of the highest set bit, as `63 - clz` computes it on a 64-bit word. -/
def highestBit (x : BitVec w) : Nat := w - 1 - x.clz.toNat

theorem getLsbD_highestBit {x : BitVec w} (hx : x ≠ 0) : x.getLsbD (highestBit x) = true := by
  have hw : 0 < w := by
    rcases Nat.eq_zero_or_pos w with rfl | h
    · exact absurd (BitVec.of_length_zero (x := x)) hx
    · exact h
  exact BitVec.getLsbD_true_clz_of_ne_zero hw hx

theorem le_highestBit {x : BitVec w} {i : Nat} (h : x.getLsbD i = true) : i ≤ highestBit x := by
  have hlt := BitVec.toNat_lt_two_pow_sub_clz (x := x)
  have hge : 2 ^ i ≤ x.toNat := Nat.ge_two_pow_of_testBit h
  have := (Nat.pow_lt_pow_iff_right (a := 2) (by omega)).mp (Nat.lt_of_le_of_lt hge hlt)
  unfold highestBit
  omega

/-- **One step of a descending scan.** -/
theorem setBits_clz {x : BitVec w} (hx : x ≠ 0) :
    (setBits x).reverse
      = highestBit x :: (setBits (x &&& ~~~(1#w <<< highestBit x))).reverse := by
  have hmem : ∀ i, i ∈ setBits (x &&& ~~~(1#w <<< highestBit x)) ↔
      i ∈ setBits x ∧ i ≠ highestBit x := by
    intro i
    rw [mem_setBits, mem_setBits, getLsbD_and_not_shift]
    simp
  have hsorted : (setBits (x &&& ~~~(1#w <<< highestBit x)) ++ [highestBit x]).Pairwise
      (· < ·) := by
    refine List.pairwise_append.mpr ⟨pairwise_setBits _, List.pairwise_singleton _ _, ?_⟩
    intro i hi j hj
    obtain ⟨h1, h2⟩ := (hmem i).mp hi
    have := le_highestBit (mem_setBits.mp h1)
    rw [List.mem_singleton.mp hj]
    omega
  have heq : setBits x = setBits (x &&& ~~~(1#w <<< highestBit x)) ++ [highestBit x] := by
    refine (pairwise_setBits x).eq_of_mem_iff hsorted ?_
    intro i
    rw [List.mem_append, hmem, List.mem_singleton]
    constructor
    · intro h
      by_cases he : i = highestBit x
      · exact Or.inr he
      · exact Or.inl ⟨h, he⟩
    · rintro (h | rfl)
      · exact h.1
      · exact mem_setBits.mpr (getLsbD_highestBit hx)
  rw [heq, List.reverse_append]
  rfl

/-- Both scans make progress. -/
theorem toNat_and_sub_one_lt {x : BitVec w} (hx : x ≠ 0) : (x &&& (x - 1)).toNat < x.toNat := by
  have hle : (x &&& (x - 1)).toNat ≤ x.toNat := by
    rw [BitVec.toNat_and]
    exact Nat.and_le_left
  refine Nat.lt_of_le_of_ne hle (fun heq => ?_)
  have hb := BitVec.getLsbD_true_ctz_of_ne_zero hx
  have h := getLsbD_and_sub_one hx x.ctz.toNat
  rw [BitVec.eq_of_toNat_eq heq, hb] at h
  simp at h

theorem toNat_and_not_highest_lt {x : BitVec w} (hx : x ≠ 0) :
    (x &&& ~~~(1#w <<< highestBit x)).toNat < x.toNat := by
  have hle : (x &&& ~~~(1#w <<< highestBit x)).toNat ≤ x.toNat := by
    rw [BitVec.toNat_and]
    exact Nat.and_le_left
  refine Nat.lt_of_le_of_ne hle (fun heq => ?_)
  have hb := getLsbD_highestBit hx
  have h := getLsbD_and_not_shift (x := x) (b := highestBit x) (highestBit x)
  rw [BitVec.eq_of_toNat_eq heq, hb] at h
  simp at h

end setBits

end Scan
