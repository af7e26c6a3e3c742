import AstraConnect.Lib.Scan

set_option autoImplicit false

/-! # A block of price levels (`PriceLevel` in `api/orderbook/topBook.hpp`)

128 consecutive ticks of one side of the book. A set bit means that a level exists at that tick,
and `slots` maps the tick to the level's index in the side's array of entries. `offsets` is the
list of the ticks present; everything the block does is stated through it: `set` and `reset`
add and remove one offset, and `forEach` visits them in price order (`forEach_price_order`).
-/

namespace AstraConnect.Orderbook

open Scan

/-- `TICKS`. -/
def TICKS : Nat := 128

/-- `bits[0]` covers the offsets 0-63, `bits[1]` the offsets 64-127. A slot is the number that the
16 bits of `slots[offset]` are. -/
structure PriceLevel where
  bits : Nat → BitVec 64
  slots : Nat → Nat
  blockId : Int

namespace PriceLevel

def empty (l : PriceLevel) : Bool := (l.bits 0 ||| l.bits 1) = 0

def test (l : PriceLevel) (offset : Nat) : Bool :=
  ((l.bits (offset >>> 6) >>> (offset &&& 63)) &&& 1#64) ≠ 0#64

def set (l : PriceLevel) (offset : Nat) : PriceLevel :=
  let word := l.bits (offset >>> 6) ||| (1#64 <<< (offset &&& 63))
  { l with bits := Function.update l.bits (offset >>> 6) word }

def reset (l : PriceLevel) (offset : Nat) : PriceLevel :=
  let word := l.bits (offset >>> 6) &&& ~~~(1#64 <<< (offset &&& 63))
  { l with bits := Function.update l.bits (offset >>> 6) word }

/-- `slots[offset] = slot`. -/
def assignSlot (l : PriceLevel) (offset slot : Nat) : PriceLevel :=
  { l with slots := Function.update l.slots offset slot }

section forEach

variable {σ : Type*}

/-- The loop over one word of `forEach<true>`: highest bit first. -/
def scanDown (l : PriceLevel) (fn : σ → Nat → σ × Bool) (word : Nat) (s : σ)
    (remaining : BitVec 64) : σ × Bool :=
  if _h : remaining = 0 then (s, true)
  else
    -- `63 - __builtin_clzll(remaining)`
    let bit := highestBit remaining
    let r := fn s (l.slots (word * 64 + bit))
    if r.2 then l.scanDown fn word r.1 (remaining &&& ~~~(1#64 <<< bit)) else (r.1, false)
termination_by remaining.toNat
decreasing_by exact toNat_and_not_highest_lt _h

/-- The loop over one word of `forEach<false>`: lowest bit first. -/
def scanUp (l : PriceLevel) (fn : σ → Nat → σ × Bool) (word : Nat) (s : σ)
    (remaining : BitVec 64) : σ × Bool :=
  if _h : remaining = 0 then (s, true)
  else
    -- `__builtin_ctzll(remaining)`
    let bit := remaining.ctz.toNat
    let r := fn s (l.slots (word * 64 + bit))
    if r.2 then l.scanUp fn word r.1 (remaining &&& (remaining - 1)) else (r.1, false)
termination_by remaining.toNat
decreasing_by exact toNat_and_sub_one_lt _h

/-- Calls `fn` on the slot of each level, highest price first when `descending`, until `fn`
answers `false`. -/
def forEach (l : PriceLevel) (descending : Bool) (fn : σ → Nat → σ × Bool) (s : σ) : σ × Bool :=
  if descending then foldUntil (fun s word => l.scanDown fn word s (l.bits word)) s [1, 0]
  else foldUntil (fun s word => l.scanUp fn word s (l.bits word)) s [0, 1]

end forEach

/-! ## The offsets present -/

/-- The offsets of the levels present, ascending. -/
def offsets (l : PriceLevel) : List Nat := (List.range TICKS).filter (fun o => l.test o)

/-- The offsets in the order of `forEach`. -/
def walk (l : PriceLevel) (descending : Bool) : List Nat :=
  if descending then l.offsets.reverse else l.offsets

theorem test_eq (l : PriceLevel) (o : Nat) : l.test o = (l.bits (o / 64)).getLsbD (o % 64) := by
  have hmask : o &&& 63 = o % 64 := Nat.and_two_pow_sub_one_eq_mod o 6
  rw [test, BitVec.and_one_eq_setWidth_ofBool_getLsbD, hmask, Nat.shiftRight_eq_div_pow,
    BitVec.getLsbD_ushiftRight, Nat.add_zero]
  cases (l.bits (o / 2 ^ 6)).getLsbD (o % 64) <;> decide

theorem mem_offsets {l : PriceLevel} {o : Nat} : o ∈ l.offsets ↔ o < TICKS ∧ l.test o = true := by
  rw [offsets, List.mem_filter, List.mem_range]

theorem pairwise_offsets (l : PriceLevel) : l.offsets.Pairwise (· < ·) :=
  List.pairwise_lt_range.filter _

theorem nodup_offsets (l : PriceLevel) : l.offsets.Nodup :=
  (pairwise_offsets l).imp (fun h => Nat.ne_of_lt h)

/-- The two words of the bitmap, one after the other. -/
theorem offsets_eq (l : PriceLevel) :
    l.offsets = setBits (l.bits 0) ++ (setBits (l.bits 1)).map (64 + ·) := by
  have hlow : (List.range 64).filter (fun o => l.test o) = setBits (l.bits 0) := by
    refine List.filter_congr (fun o ho => ?_)
    have := List.mem_range.mp ho
    rw [test_eq, show o / 64 = 0 by omega, show o % 64 = o by omega]
  have hhigh : ((List.range 64).map (64 + ·)).filter (fun o => l.test o)
      = (setBits (l.bits 1)).map (64 + ·) := by
    rw [List.filter_map, setBits]
    congr 1
    refine List.filter_congr (fun o ho => ?_)
    have := List.mem_range.mp ho
    rw [Function.comp_apply, test_eq, show (64 + o) / 64 = 1 by omega,
      show (64 + o) % 64 = o by omega]
  rw [offsets, TICKS, show 128 = 64 + 64 from rfl, List.range_add, List.filter_append, hlow, hhigh]

/-! ## Setting, resetting and emptiness -/

theorem getLsbD_one_shiftLeft {n i : Nat} (hi : i < 64) :
    (1#64 <<< n).getLsbD i = decide (i = n) := by
  rw [BitVec.getLsbD_shiftLeft, BitVec.getLsbD_one, Bool.eq_iff_iff]
  simp only [hi, decide_true, Bool.true_and, Bool.and_eq_true, Bool.not_eq_true',
    decide_eq_false_iff_not,
    decide_eq_true_eq]
  omega

theorem test_set (l : PriceLevel) (o p : Nat) :
    (l.set o).test p = (decide (p = o) || l.test p) := by
  have hmask : o &&& 63 = o % 64 := Nat.and_two_pow_sub_one_eq_mod o 6
  have hshift : o >>> 6 = o / 64 := Nat.shiftRight_eq_div_pow o 6
  rw [test_eq, test_eq, set, hmask, hshift]
  by_cases hw : p / 64 = o / 64
  · have hpo : p % 64 = o % 64 ↔ p = o := by omega
    simp only [hw, Function.update_self, BitVec.getLsbD_or,
      getLsbD_one_shiftLeft (Nat.mod_lt p (by omega : 0 < 64)), hpo]
    rw [Bool.or_comm]
  · have hne : p ≠ o := fun h => hw (by rw [h])
    simp only [Function.update_of_ne hw, hne, decide_false, Bool.false_or]

theorem test_reset (l : PriceLevel) (o p : Nat) :
    (l.reset o).test p = (l.test p && decide (p ≠ o)) := by
  have hmask : o &&& 63 = o % 64 := Nat.and_two_pow_sub_one_eq_mod o 6
  have hshift : o >>> 6 = o / 64 := Nat.shiftRight_eq_div_pow o 6
  rw [test_eq, test_eq, reset, hmask, hshift]
  by_cases hw : p / 64 = o / 64
  · have hpo : p % 64 = o % 64 ↔ p = o := by omega
    simp only [hw, Function.update_self, getLsbD_and_not_shift, ne_eq, hpo]
  · have hne : p ≠ o := fun h => hw (by rw [h])
    simp only [Function.update_of_ne hw, ne_eq, hne, not_false_eq_true, decide_true, Bool.and_true]

@[simp] theorem assignSlot_blockId (l : PriceLevel) (o slot : Nat) :
    (l.assignSlot o slot).blockId = l.blockId := rfl

@[simp] theorem assignSlot_offsets (l : PriceLevel) (o slot : Nat) :
    (l.assignSlot o slot).offsets = l.offsets := rfl

@[simp] theorem set_slots (l : PriceLevel) (o : Nat) : (l.set o).slots = l.slots := rfl

@[simp] theorem set_blockId (l : PriceLevel) (o : Nat) : (l.set o).blockId = l.blockId := rfl

@[simp] theorem reset_slots (l : PriceLevel) (o : Nat) : (l.reset o).slots = l.slots := rfl

@[simp] theorem reset_blockId (l : PriceLevel) (o : Nat) : (l.reset o).blockId = l.blockId := rfl

/-- A new offset joins the others. -/
theorem offsets_set_perm {l : PriceLevel} {o : Nat} (ho : o < TICKS) (h : l.test o = false) :
    (l.set o).offsets.Perm (o :: l.offsets) := by
  have hnot : o ∉ l.offsets := fun hm => by rw [(mem_offsets.mp hm).2] at h; cases h
  refine (List.perm_ext_iff_of_nodup (nodup_offsets _)
    (List.nodup_cons.mpr ⟨hnot, nodup_offsets l⟩)).mpr ?_
  intro p
  rw [List.mem_cons, mem_offsets, mem_offsets, test_set]
  by_cases hp : p = o
  · simp [hp, ho]
  · simp [hp]

/-- The offset reset leaves the others. -/
theorem offsets_reset_perm {l : PriceLevel} {o : Nat} (ho : o < TICKS) (h : l.test o = true) :
    l.offsets.Perm (o :: (l.reset o).offsets) := by
  have hnot : o ∉ (l.reset o).offsets := fun hm => by
    have := (mem_offsets.mp hm).2
    rw [test_reset] at this
    simp at this
  refine (List.perm_ext_iff_of_nodup (nodup_offsets _)
    (List.nodup_cons.mpr ⟨hnot, nodup_offsets _⟩)).mpr ?_
  intro p
  rw [List.mem_cons, mem_offsets, mem_offsets, test_reset]
  by_cases hp : p = o
  · simp [hp, ho, h]
  · simp [hp]

theorem empty_iff {l : PriceLevel} : l.empty = true ↔ l.offsets = [] := by
  have hnil : ∀ x : BitVec 64, setBits x = [] ↔ x = 0 := by
    intro x
    constructor
    · intro h
      by_contra hx
      rw [setBits_ctz hx] at h
      cases h
    · rintro rfl
      exact setBits_zero
  rw [offsets_eq, List.append_eq_nil_iff, List.map_eq_nil_iff, hnil, hnil, empty,
    decide_eq_true_iff]
  exact BitVec.or_eq_zero_iff

/-! ## `forEach` walks the offsets in price order

Each of the two loops takes one bit off its word until the word is zero. By induction on the word
it visits what `setBits` lists, and the words follow each other in the order of the prices. -/

section forEach

variable {σ : Type*} (l : PriceLevel) (fn : σ → Nat → σ × Bool) (word : Nat)

theorem scanDown_eq (s : σ) (x : BitVec 64) :
    l.scanDown fn word s x
      = foldUntil fn s ((setBits x).reverse.map (fun bit => l.slots (word * 64 + bit))) := by
  induction hn : x.toNat using Nat.strong_induction_on generalizing s x with
  | _ n ih =>
      rw [scanDown]
      by_cases hx : x = 0
      · rw [dif_pos hx, hx, setBits_zero]
        rfl
      · rw [dif_neg hx, setBits_clz hx, List.map_cons, foldUntil]
        dsimp only
        rw [ih _ (hn ▸ toNat_and_not_highest_lt hx) _ _ rfl]

theorem scanUp_eq (s : σ) (x : BitVec 64) :
    l.scanUp fn word s x
      = foldUntil fn s ((setBits x).map (fun bit => l.slots (word * 64 + bit))) := by
  induction hn : x.toNat using Nat.strong_induction_on generalizing s x with
  | _ n ih =>
      rw [scanUp]
      by_cases hx : x = 0
      · rw [dif_pos hx, hx, setBits_zero]
        rfl
      · rw [dif_neg hx, setBits_ctz hx, List.map_cons, foldUntil]
        dsimp only
        rw [ih _ (hn ▸ toNat_and_sub_one_lt hx) _ _ rfl]

/-- **`forEach` visits the slots of the offsets present, in price order.** -/
theorem forEach_eq (descending : Bool) (s : σ) :
    l.forEach descending fn s = foldUntil fn s ((l.walk descending).map l.slots) := by
  cases descending with
  | true =>
      have h : (l.walk true).map l.slots
          = [1, 0].flatMap (fun word => (setBits (l.bits word)).reverse.map
              (fun bit => l.slots (word * 64 + bit))) := by
        simp [walk, offsets_eq, Function.comp_def]
      rw [h, ← foldUntil_flatMap, forEach, if_pos rfl]
      simp only [scanDown_eq]
  | false =>
      have h : (l.walk false).map l.slots
          = [0, 1].flatMap (fun word => (setBits (l.bits word)).map
              (fun bit => l.slots (word * 64 + bit))) := by
        simp [walk, offsets_eq, Function.comp_def]
      rw [h, ← foldUntil_flatMap, forEach, if_neg (by decide)]
      simp only [scanUp_eq]

end forEach

/-! ## The block by its bits -/

/-- The bit of an offset. -/
def bitAt (l : PriceLevel) (o : Nat) : Bool := (l.bits (o / 64)).getLsbD (o % 64)

/-- `l'` is `l` with the bit of `offset` set to `value`, and nothing else is different. -/
structure ChangedAt (l : PriceLevel) (offset : Nat) (value : Bool) (l' : PriceLevel) : Prop where
  named : l'.bitAt offset = value
  others : ∀ o, o ≠ offset → l'.bitAt o = l.bitAt o
  slots : l'.slots = l.slots
  blockId : l'.blockId = l.blockId

theorem changedAt_set (l : PriceLevel) (o : Nat) : l.ChangedAt o true (l.set o) where
  named := by rw [bitAt, ← test_eq, test_set, decide_eq_true rfl, Bool.true_or]
  others := fun p hp => by
    rw [bitAt, bitAt, ← test_eq, ← test_eq, test_set, decide_eq_false hp, Bool.false_or]
  slots := rfl
  blockId := rfl

theorem changedAt_reset (l : PriceLevel) (o : Nat) : l.ChangedAt o false (l.reset o) where
  named := by rw [bitAt, ← test_eq, test_reset, decide_eq_false (fun h => h rfl), Bool.and_false]
  others := fun p hp => by
    rw [bitAt, bitAt, ← test_eq, ← test_eq, test_reset, decide_eq_true hp, Bool.and_true]
  slots := rfl
  blockId := rfl

theorem mem_walk {l : PriceLevel} {descending : Bool} {o : Nat} :
    o ∈ l.walk descending ↔ o < TICKS ∧ l.bitAt o = true := by
  rw [bitAt, ← test_eq, ← mem_offsets]
  cases descending with
  | true => exact List.mem_reverse
  | false => exact Iff.rfl

theorem pairwise_walk (l : PriceLevel) (descending : Bool) :
    (l.walk descending).Pairwise (if descending then (· > ·) else (· < ·)) := by
  cases descending with
  | true => exact List.pairwise_reverse.mpr (pairwise_offsets l)
  | false => exact pairwise_offsets l

/-- **`forEach` walks the bitmap in price order.** It calls `fn` on the slots of exactly the offsets
whose bit is set, each of them once, the highest first when `descending` and the lowest first
otherwise, until `fn` answers `false`; it returns `false` exactly when `fn` has. `set`, `reset` and
`test` concern the bit of the offset named and no other. -/
theorem forEach_price_order {σ : Type*} (l : PriceLevel) (descending : Bool)
    (fn : σ → Nat → σ × Bool) (s : σ) :
    (∃ visited skipped : List Nat,
      (visited ++ skipped).Pairwise (if descending then (· > ·) else (· < ·)) ∧
      (∀ o, o ∈ visited ++ skipped ↔ o < TICKS ∧ l.bitAt o = true) ∧
      Calls (fun s o => fn s (l.slots o)) s visited (l.forEach descending fn s) ∧
      ((l.forEach descending fn s).2 = true → skipped = [])) ∧
    ∀ o < TICKS, l.test o = l.bitAt o ∧ l.ChangedAt o true (l.set o) ∧
      l.ChangedAt o false (l.reset o) := by
  refine ⟨?_, fun o _ => ⟨test_eq l o, changedAt_set l o, changedAt_reset l o⟩⟩
  obtain ⟨visited, skipped, hwalk, hcalls, hall⟩ :=
    foldUntil_calls (fun s o => fn s (l.slots o)) s (l.walk descending)
  have hvisit : foldUntil (fun s o => fn s (l.slots o)) s (l.walk descending) =
      l.forEach descending fn s := by
    rw [forEach_eq, foldUntil_map]
  rw [hvisit] at hcalls hall
  refine ⟨visited, skipped, ?_, ?_, hcalls, hall⟩
  · rw [← hwalk]
    exact pairwise_walk l descending
  · intro o
    rw [← hwalk]
    exact mem_walk

end PriceLevel

end AstraConnect.Orderbook
