import Mathlib.Data.Finmap
import AstraConnect.Lib.NearestDivision
import AstraConnect.Orderbook.SortedBook

set_option autoImplicit false

/-! # What a side of the book is for

A side, apart from how it is laid out, is a finite map from ticks to entries that holds at most
`MAX_LEVELS` levels in at most `MAX_BLOCKS` blocks of 128 ticks. `applyLevels` is what a list of
absolute levels does to such a map when there is room for them; `fitting` is the part of the list
before the first level that has no room, and `tryLevels` applies every level that has.
-/

namespace AstraConnect.Orderbook

open Rounding

/-- One side of a book as a map from ticks to entries. -/
abbrev LevelMap := Finmap (fun _ : Int => Entry)

namespace LevelMap

/-- The blocks of 128 ticks that have a level. -/
def blockIds (m : LevelMap) : Finset Int := m.keys.image blockOf

/-- There is a level at the tick, or room for one. -/
def Fits (m : LevelMap) (tick : Int) : Prop :=
  tick ∈ m ∨ m.keys.card < MAX_LEVELS ∧
    (blockOf tick ∈ m.blockIds ∨ m.blockIds.card < MAX_BLOCKS)

/-- A removal, or a level that fits. -/
def Accepts (m : LevelMap) (tick volume : Int) : Prop := volume = 0 ∨ m.Fits tick

instance (m : LevelMap) (tick : Int) : Decidable (m.Fits tick) :=
  inferInstanceAs (Decidable (_ ∨ _))

instance (m : LevelMap) (tick volume : Int) : Decidable (m.Accepts tick volume) :=
  inferInstanceAs (Decidable (_ ∨ _))

/-- The absolute level `(price, volume)` at `tick`; volume 0 removes it. -/
def setLevel (m : LevelMap) (tick price volume : Int) : LevelMap :=
  if volume = 0 then m.erase tick else m.insert tick ⟨price, volume⟩

theorem lookup_setLevel (m : LevelMap) (tick price volume t : Int) :
    (m.setLevel tick price volume).lookup t
      = if t = tick then (if volume = 0 then none else some ⟨price, volume⟩)
        else m.lookup t := by
  unfold setLevel
  by_cases ht : t = tick
  · subst ht
    by_cases hv : volume = 0 <;> simp [hv]
  · by_cases hv : volume = 0
    · rw [if_pos hv, if_neg ht, Finmap.lookup_erase_ne ht]
    · rw [if_neg hv, if_neg ht, Finmap.lookup_insert_of_ne _ ht]

theorem keys_setLevel_subset (m : LevelMap) (tick price volume : Int) :
    (m.setLevel tick price volume).keys ⊆ insert tick m.keys := by
  intro t ht
  rw [Finmap.mem_keys, ← Finmap.lookup_isSome, lookup_setLevel] at ht
  rw [Finset.mem_insert, Finmap.mem_keys, ← Finmap.lookup_isSome]
  by_cases he : t = tick
  · exact Or.inl he
  · rw [if_neg he] at ht
    exact Or.inr ht

theorem card_setLevel_le (m : LevelMap) (tick price volume : Int) :
    (m.setLevel tick price volume).keys.card ≤ m.keys.card + 1 :=
  (Finset.card_le_card (keys_setLevel_subset m tick price volume)).trans (Finset.card_insert_le _ _)

/-- A side with fewer levels than there are blocks has room. -/
theorem fits_of_card_lt {m : LevelMap} (h : m.keys.card < MAX_BLOCKS) (tick : Int) :
    m.Fits tick := by
  have hle : MAX_BLOCKS ≤ MAX_LEVELS := by decide
  have hblocks : m.blockIds.card ≤ m.keys.card := Finset.card_image_le
  exact Or.inr ⟨by omega, Or.inr (by omega)⟩

/-! ## Lists of levels

Absolute levels with different prices can be applied in any order. What is at a tick afterwards is
what the one level with that tick says, or what was there. -/

section levels

variable (tickSize : Int)

/-- One absolute level at the tick of its price. -/
def applyLevel (m : LevelMap) (e : Entry) : LevelMap :=
  m.setLevel (toTick tickSize e.price) e.price e.volume

def applyLevels (m : LevelMap) (l : List Entry) : LevelMap := l.foldl (applyLevel tickSize) m

/-- The levels before the first one that has no room. -/
def fitting (m : LevelMap) : List Entry → List Entry
  | [] => []
  | e :: l =>
      if m.Accepts (toTick tickSize e.price) e.volume then e :: fitting (m.applyLevel tickSize e) l
      else []

/-- A level that has no room is left out. -/
def tryLevel (m : LevelMap) (e : Entry) : LevelMap :=
  if m.Accepts (toTick tickSize e.price) e.volume then m.applyLevel tickSize e else m

def tryLevels (m : LevelMap) (l : List Entry) : LevelMap := l.foldl (tryLevel tickSize) m

variable {tickSize}

@[simp] theorem applyLevels_cons (m : LevelMap) (e : Entry) (l : List Entry) :
    m.applyLevels tickSize (e :: l) = (m.applyLevel tickSize e).applyLevels tickSize l := rfl

theorem fitting_eq_cons {m : LevelMap} {e : Entry} {l : List Entry} :
    m.fitting tickSize (e :: l) = e :: l ↔ m.Accepts (toTick tickSize e.price) e.volume ∧
      (m.applyLevel tickSize e).fitting tickSize l = l := by
  rw [fitting]
  by_cases h : m.Accepts (toTick tickSize e.price) e.volume
  · rw [if_pos h]
    simp [h]
  · rw [if_neg h]
    simp [h]

/-- A list that is short enough fits as a whole. -/
theorem fitting_of_card {l : List Entry} {m : LevelMap}
    (h : m.keys.card + l.length ≤ MAX_BLOCKS) : m.fitting tickSize l = l := by
  induction l generalizing m with
  | nil => rfl
  | cons e l ih =>
      rw [List.length_cons] at h
      refine fitting_eq_cons.mpr ⟨Or.inr (fits_of_card_lt (by omega) _), ih ?_⟩
      have := card_setLevel_le m (toTick tickSize e.price) e.price e.volume
      unfold applyLevel
      omega

theorem tryLevels_of_fitting {l : List Entry} {m : LevelMap} (h : m.fitting tickSize l = l) :
    m.tryLevels tickSize l = m.applyLevels tickSize l := by
  induction l generalizing m with
  | nil => rfl
  | cons e l ih =>
      obtain ⟨hacc, hrest⟩ := fitting_eq_cons.mp h
      rw [tryLevels, List.foldl_cons, tryLevel, if_pos hacc]
      exact ih hrest

/-- Levels with a volume only add ticks. -/
theorem keys_applyLevels {l : List Entry} {m : LevelMap} (h : ∀ e ∈ l, e.volume ≠ 0) :
    (m.applyLevels tickSize l).keys
      = (l.map (fun e => toTick tickSize e.price)).toFinset ∪ m.keys := by
  induction l generalizing m with
  | nil => simp [applyLevels]
  | cons e l ih =>
      rw [applyLevels_cons, ih (fun e' he' => h e' (List.mem_cons_of_mem _ he')), applyLevel,
        setLevel, if_neg (h e (List.mem_cons_self ..))]
      ext t
      simp only [Finset.mem_union, List.mem_toFinset, List.mem_map, Finmap.mem_keys,
        Finmap.mem_insert, List.map_cons, List.mem_cons]
      exact or_left_comm.trans or_assoc.symm

/-- A tick that no level of the list has. -/
theorem lookup_applyLevels_of_forall_ne {l : List Entry} {m : LevelMap} {t : Int}
    (h : ∀ e ∈ l, toTick tickSize e.price ≠ t) :
    (m.applyLevels tickSize l).lookup t = m.lookup t := by
  induction l generalizing m with
  | nil => rfl
  | cons e l ih =>
      rw [applyLevels_cons, ih (fun e' he' => h e' (List.mem_cons_of_mem _ he')), applyLevel,
        lookup_setLevel, if_neg (fun he => h e (List.mem_cons_self ..) he.symm)]

/-- A level of the list, when no other one has its tick. -/
theorem lookup_applyLevels_of_mem {l : List Entry} {m : LevelMap} {e : Entry} (he : e ∈ l)
    (huniq : ∀ e' ∈ l, toTick tickSize e'.price = toTick tickSize e.price → e' = e) :
    (m.applyLevels tickSize l).lookup (toTick tickSize e.price)
      = if e.volume = 0 then none else some e := by
  induction l generalizing m with
  | nil => cases he
  | cons e' l ih =>
      rw [applyLevels_cons]
      by_cases hin : e ∈ l
      · exact ih hin (fun e'' he'' => huniq e'' (List.mem_cons_of_mem _ he''))
      · obtain rfl : e = e' := (List.mem_cons.mp he).resolve_right hin
        rw [lookup_applyLevels_of_forall_ne, applyLevel, lookup_setLevel, if_pos rfl]
        intro e'' he'' htick
        exact hin (huniq e'' (List.mem_cons_of_mem _ he'') htick ▸ he'')

end levels

end LevelMap

/-! ## Prices on the grid

For multiples of the tick size whose sum does not wrap, `toTick` is division, and different prices
have different ticks. -/

/-- A sum that fits `int64_t` does not wrap. -/
theorem toTick_eq {tickSize price : Int} (hlow : -2 ^ 63 ≤ price + tickSize.tdiv 2)
    (hhigh : price + tickSize.tdiv 2 < 2 ^ 63) :
    toTick tickSize price = addHalfDiv price tickSize := by
  have hbmod : Int.bmod (price + tickSize.tdiv 2) (2 ^ 64) = price + tickSize.tdiv 2 := by
    refine Int.bmod_eq_of_le ?_ ?_
    · norm_num
      omega
    · norm_num
      omega
  rw [toTick, hbmod, addHalfDiv]

/-- A positive multiple of the tick size that `toTick` does not overflow on. -/
def OnGrid (tickSize price : Int) : Prop :=
  0 < price ∧ tickSize ∣ price ∧ price + tickSize / 2 < 2 ^ 63

theorem toTick_mul {tickSize price : Int} (hts : 0 < tickSize) (h : OnGrid tickSize price) :
    toTick tickSize price * tickSize = price := by
  obtain ⟨hpos, ⟨k, rfl⟩, hlt⟩ := h
  have hk : 0 < k := by
    by_contra hk
    have : tickSize * k ≤ 0 := mul_nonpos_of_nonneg_of_nonpos (by omega) (by omega)
    omega
  have hhalf : tickSize.tdiv 2 = tickSize / 2 := Int.tdiv_eq_ediv_of_nonneg (by omega)
  have hdiv : (tickSize * k + tickSize / 2) / tickSize = k := by
    rw [Int.add_comm, Int.add_mul_ediv_left _ _ (by omega)]
    have : tickSize / 2 / tickSize = 0 := Int.ediv_eq_zero_of_lt (by omega) (by omega)
    omega
  rw [toTick_eq (by omega) (by omega), addHalfDiv, hhalf, Int.tdiv_eq_ediv_of_nonneg (by omega),
    hdiv, Int.mul_comm]

/-- On the grid a tick has one price. -/
theorem toTick_inj {tickSize p q : Int} (hts : 0 < tickSize) (hp : OnGrid tickSize p)
    (hq : OnGrid tickSize q) (h : toTick tickSize p = toTick tickSize q) : p = q := by
  rw [← toTick_mul hts hp, h, toTick_mul hts hq]

end AstraConnect.Orderbook
