import AstraConnect.Utils.FixedPointFormat
import AstraConnect.Orderbook.DepthDecoding
import AstraConnect.Orderbook.SortedBookBounds

set_option autoImplicit false

/-! # The tick nearest to a price

`toTick` adds half of the tick size and divides. That is right for prices from zero on, up to the
ones so large that the sum leaves `int64_t`. For a negative price the division truncates upwards,
and the level ends up one tick too high (`toTick_of_neg`) but for two kinds of prices
(`rounds_to_nearest_iff`). Prices and tick sizes are those that `parseFixed` returns, which are all
of `int64_t` (`parsed_iff_inRange`); the ones of a decoded event are among them (`parsed_of_sent`).
-/

namespace AstraConnect.Orderbook

open Rounding Decimal AstraConnect.Utils

/-! ## `toTick`, operation by operation

Each of the three results is tested for `int64_t`. The half and the quotient are no larger than
what they are made from, so the test can fail at the sum only. -/

/-- The result of an operation on `int64_t`. -/
def fitFixed (n : Int) : Option Int :=
  (require (IntType.int64.InRange n)).bind fun _ => some n

/-- `(price + tickSize / 2) / tickSize`, where each of the three results has to fit. -/
def toTickInt64 (tickSize price : Int) : Option Int :=
  (fitFixed (tickSize.tdiv 2)).bind fun half =>
  (fitFixed (price + half)).bind fun sum =>
  (require (tickSize ≠ 0)).bind fun _ =>
  fitFixed (sum.tdiv tickSize)

theorem inRange_int64 {n : Int} : IntType.int64.InRange n ↔ -2 ^ 63 ≤ n ∧ n < 2 ^ 63 := by
  norm_num [IntType.InRange, IntType.negLimit, IntType.width]

theorem fitFixed_of_inRange {n : Int} (h : IntType.int64.InRange n) : fitFixed n = some n :=
  require_bind h _

theorem fitFixed_of_not_inRange {n : Int} (h : ¬ IntType.int64.InRange n) : fitFixed n = none := by
  rw [fitFixed, require, if_neg h]
  rfl

/-- A quotient by a positive number is no further from zero. -/
theorem inRange_tdiv {n d : Int} (hd : 0 < d) (h : IntType.int64.InRange n) :
    IntType.int64.InRange (n.tdiv d) := by
  rw [inRange_int64] at h ⊢
  have habs := Int.natAbs_tdiv_le_natAbs n d
  rcases Int.le_total 0 n with hn | hn
  · have := Int.tdiv_nonneg hn hd.le
    omega
  · have hneg := Int.tdiv_nonneg (neg_nonneg.mpr hn) hd.le
    rw [Int.neg_tdiv] at hneg
    omega

theorem toTickInt64_of_noOverflow {tickSize price : Int} (hpos : 0 < tickSize)
    (hts : IntType.int64.InRange tickSize) (h : SortedBook.NoOverflow tickSize price) :
    toTickInt64 tickSize price = some (toTick tickSize price) := by
  have hsum : IntType.int64.InRange (price + tickSize.tdiv 2) := inRange_int64.mpr h
  rw [toTickInt64, fitFixed_of_inRange (inRange_tdiv (by decide) hts), Option.bind_some,
    fitFixed_of_inRange hsum, Option.bind_some, require_bind (ne_of_gt hpos),
    fitFixed_of_inRange (inRange_tdiv hpos hsum), toTick_eq h.1 h.2, addHalfDiv]

theorem toTickInt64_of_overflow {tickSize price : Int} (hts : IntType.int64.InRange tickSize)
    (h : ¬ SortedBook.NoOverflow tickSize price) : toTickInt64 tickSize price = none := by
  have hsum : ¬ IntType.int64.InRange (price + tickSize.tdiv 2) := fun hin =>
    h (inRange_int64.mp hin)
  rw [toTickInt64, fitFixed_of_inRange (inRange_tdiv (by decide) hts), Option.bind_some,
    fitFixed_of_not_inRange hsum]
  rfl

/-- Only the sum can leave `int64_t`. -/
theorem toTickInt64_eq {tickSize : Int} (hpos : 0 < tickSize)
    (hts : IntType.int64.InRange tickSize) (price : Int) :
    toTickInt64 tickSize price = SortedBook.checkedToTick tickSize price := by
  unfold SortedBook.checkedToTick
  by_cases h : SortedBook.NoOverflow tickSize price
  · rw [toTickInt64_of_noOverflow hpos hts h, require_bind ⟨ne_of_gt hpos, h⟩]
  · rw [toTickInt64_of_overflow hts h, require, if_neg (fun hboth => h hboth.2)]
    rfl

/-! ## The block and the offset of a price -/

namespace SortedBook

variable {IsBid : Bool} {b : SortedBook IsBid}

/-- There is a level in the block of the tick, at its offset, and this is its entry. -/
def HasLevel (b : SortedBook IsBid) (tick : Int) (entry : Entry) : Prop :=
  ∃ level, b.findBlock (blockOf tick) = some level ∧
    (b.blocks level).test (offsetOf tick) = true ∧
    b.entries ((b.blocks level).slots (offsetOf tick)) = entry

/-- `update` and `find` take the price for the tick: a level that is accepted is in the block and
at the offset of the tick, a removal clears them, no other tick is touched, and a lookup gives what
is there. -/
structure UsesTick (b : SortedBook IsBid) (price tick : Int) : Prop where
  placed : ∀ volume, volume ≠ 0 → (b.update price volume).2 = true →
    (b.update price volume).1.HasLevel tick ⟨price, volume⟩
  removed : ∀ entry, ¬ (b.update price 0).1.HasLevel tick entry
  others : ∀ volume t entry, t ≠ tick →
    ((b.update price volume).1.HasLevel t entry ↔ b.HasLevel t entry)
  found : ∀ entry out, b.HasLevel tick entry → b.find price out = (true, entry)
  absent : ∀ out, (∀ entry, ¬ b.HasLevel tick entry) → b.find price out = (false, out)

theorem hasLevel_iff (hl : Layout b) {tick : Int} {entry : Entry} :
    b.HasLevel tick entry ↔ b.toMap.lookup tick = some entry := by
  rw [lookup_toMap hl]
  constructor
  · rintro ⟨level, hf, htest, hentry⟩
    exact ⟨_, (mem_located hl).mpr ⟨level, hf, htest, rfl⟩, hentry⟩
  · rintro ⟨s, hs, hentry⟩
    obtain ⟨level, hf, htest, rfl⟩ := (mem_located hl).mp hs
    exact ⟨level, hf, htest, hentry⟩

/-- A call, refused or not, changes the map at the tick of the price only. -/
theorem lookup_update_of_ne (h : Inv b) (price volume : Int) {t : Int}
    (hne : t ≠ toTick b.tickSize price) :
    (b.update price volume).1.toMap.lookup t = b.toMap.lookup t := by
  have hu := update_spec h price volume
  cases hok : (b.update price volume).2 with
  | true => rw [hu.applied hok, LevelMap.lookup_setLevel, if_neg hne]
  | false => rw [hu.refused hok]

/-- **`update` and `find` use the tick of `toTick`.** -/
theorem usesTick (h : Inv b) (price : Int) : b.UsesTick price (toTick b.tickSize price) := by
  have hu := update_spec h price
  refine ⟨?_, ?_, ?_, ?_, ?_⟩
  · intro volume hv hok
    rw [hasLevel_iff (hu volume).inv.layout, (hu volume).applied hok, LevelMap.lookup_setLevel,
      if_pos rfl, if_neg hv]
  · intro entry
    have hok : (b.update price 0).2 = true := (hu 0).accepted.mpr (Or.inl rfl)
    rw [hasLevel_iff (hu 0).inv.layout, (hu 0).applied hok, LevelMap.lookup_setLevel, if_pos rfl,
      if_pos rfl]
    exact fun hnone => by cases hnone
  · intro volume t entry hne
    rw [hasLevel_iff (hu volume).inv.layout, hasLevel_iff h.layout,
      lookup_update_of_ne h price volume hne]
  · intro entry out hlevel
    rw [find_eq h.layout, (hasLevel_iff h.layout).mp hlevel, found]
  · intro out hno
    have hnone : b.toMap.lookup (toTick b.tickSize price) = none := by
      rw [Option.eq_none_iff_forall_ne_some]
      exact fun entry hsome => hno entry ((hasLevel_iff h.layout).mpr hsome)
    rw [find_eq h.layout, hnone, found]

end SortedBook

/-! ## Rounding to the nearest tick

That a quotient is the nearest integer is a fact about `addHalfDiv`. What is added here is when the
sum overflows and what the book does with the tick. -/

/-- `toTick` is evaluated without overflow, to the tick nearest to the price with ties away from
zero, and every book with this tick size keeps the price in the block and at the offset of that
tick. -/
def RoundsToNearest (tickSize price : Int) : Prop :=
  ∃ tick, toTickInt64 tickSize price = some tick ∧ NearestAway ((price : ℚ) / tickSize) tick ∧
    ∀ (IsBid : Bool) (b : SortedBook IsBid), b.Inv → b.tickSize = tickSize → b.UsesTick price tick

theorem roundsToNearest_iff_nearestAway {tickSize price : Int} (hpos : 0 < tickSize)
    (hts : IntType.int64.InRange tickSize) :
    RoundsToNearest tickSize price ↔ SortedBook.NoOverflow tickSize price ∧
      NearestAway ((price : ℚ) / tickSize) (addHalfDiv price tickSize) := by
  constructor
  · rintro ⟨tick, heval, hnearest, -⟩
    by_cases h : SortedBook.NoOverflow tickSize price
    · rw [toTickInt64_of_noOverflow hpos hts h, toTick_eq h.1 h.2] at heval
      obtain rfl := Option.some.inj heval
      exact ⟨h, hnearest⟩
    · rw [toTickInt64_of_overflow hts h] at heval
      cases heval
  · rintro ⟨h, hnearest⟩
    rw [← toTick_eq h.1 h.2] at hnearest
    refine ⟨_, toTickInt64_of_noOverflow hpos hts h, hnearest, fun IsBid b hinv hsize => ?_⟩
    rw [← hsize]
    exact SortedBook.usesTick hinv price

theorem noOverflow_of_neg {tickSize price : Int} (hpos : 0 < tickSize)
    (hts : IntType.int64.InRange tickSize) (hprice : IntType.int64.InRange price)
    (hneg : price < 0) : SortedBook.NoOverflow tickSize price := by
  rw [inRange_int64] at hts hprice
  rw [SortedBook.NoOverflow, Int.tdiv_eq_ediv_of_nonneg hpos.le]
  omega

/-- A negative price gets its nearest tick or the one above. -/
theorem toTick_of_neg {tickSize price : Int} (hpos : 0 < tickSize)
    (hts : IntType.int64.InRange tickSize) (hprice : IntType.int64.InRange price)
    (hneg : price < 0) :
    toTick tickSize price = roundHalfAway ((price : ℚ) / tickSize) +
      if -2 * price < tickSize ∨ tickSize ∣ 2 * price - 1 then 0 else 1 := by
  have hsum := noOverflow_of_neg hpos hts hprice hneg
  rw [toTick_eq hsum.1 hsum.2, addHalfDiv_of_neg hpos hneg]

/-- **When a price is rounded to the nearest tick.** From zero on every price is, unless the sum
with half of the tick size leaves `int64_t`. A negative price is in two cases only: when it is
nearer to zero than half of a tick, and when twice the price is one more than a multiple of the
tick size. -/
theorem rounds_to_nearest_iff (tickSize price : Int) (hpos : 0 < tickSize)
    (hts : Parsed .int64 tickSize) (hprice : Parsed .int64 price) :
    RoundsToNearest tickSize price ↔
      (0 ≤ price ∧ price + tickSize / 2 < 2 ^ 63) ∨
        (price < 0 ∧ (-2 * price < tickSize ∨ tickSize ∣ 2 * price - 1)) := by
  have hin := parsed_iff_inRange.mp hts
  have hinp := parsed_iff_inRange.mp hprice
  rw [roundsToNearest_iff_nearestAway hpos hin]
  rcases lt_or_ge price 0 with hneg | hnonneg
  · rw [nearestAway_addHalfDiv_iff hpos hneg]
    constructor
    · exact fun h => Or.inr ⟨hneg, h.2⟩
    · rintro (h | h)
      · omega
      · exact ⟨noOverflow_of_neg hpos hin hinp hneg, h.2⟩
  · have hnearest := nearestAway_addHalfDiv_of_nonneg hpos hnonneg
    rw [SortedBook.NoOverflow, Int.tdiv_eq_ediv_of_nonneg hpos.le]
    constructor
    · exact fun h => Or.inl ⟨hnonneg, h.1.2⟩
    · rintro (h | h)
      · exact ⟨⟨by omega, h.2⟩, hnearest⟩
      · omega

/-- A third of a tick below a multiple. -/
theorem rounds_to_nearest_iff_third : RoundsToNearest 3 (-4) :=
  (rounds_to_nearest_iff 3 (-4) (by decide) ⟨"0.00000003".toList, 0, by decide⟩
    ⟨"-0.00000004".toList, 0, by decide⟩).mpr (Or.inr ⟨by decide, Or.inr (by decide)⟩)

/-- With ticks of `0.1`, the price `-0.1` is a multiple of the tick size but gets the tick
of `0`. -/
theorem negative_price_at_zero :
    Parsed .int64 10000000 ∧ Parsed .int64 (-10000000) ∧
      toTickInt64 10000000 (-10000000) = some 0 ∧ ¬ RoundsToNearest 10000000 (-10000000) := by
  refine ⟨⟨"0.1".toList, 0, by decide⟩, ⟨"-0.1".toList, 0, by decide⟩, by decide, ?_⟩
  rintro ⟨tick, heval, hnearest, -⟩
  have hzero : toTickInt64 10000000 (-10000000) = some 0 := by decide
  rw [hzero] at heval
  obtain rfl := Option.some.inj heval
  have hcloser := hnearest.nearest (-1)
  norm_num at hcloser

/-! ## The prices of a decoded event -/

theorem parsed_of_fixedText {field : JsonTree} {value : Int} (h : FixedText field value) :
    Parsed .int64 value := by
  obtain ⟨text, -, hparse⟩ := h
  exact ⟨text, 0, hparse⟩

theorem parsed_of_sentPairs {levels : List JsonTree} {entries : List Entry}
    (h : List.Forall₂ SentPair levels entries) :
    ∀ e ∈ entries, Parsed .int64 e.price := by
  induction h with
  | nil => exact fun e he => by cases he
  | cons hpair _ ih =>
      obtain ⟨price, volume, more, -, hprice, -⟩ := hpair
      exact List.forall_mem_cons.mpr ⟨parsed_of_fixedText hprice, ih⟩

/-- The prices that `DepthDecoder` admits are parsed. -/
theorem parsed_of_sent {m : Message} {levels : Bool → List Entry} {ids : Int × Int × Int}
    (h : Sent m levels ids) (isBid : Bool) : ∀ e ∈ levels isBid, Parsed .int64 e.price := by
  obtain ⟨doc, fields, -, -, hbids, hasks, -⟩ := h
  cases isBid with
  | true =>
      obtain ⟨_, -, -, hpairs⟩ := hbids
      exact parsed_of_sentPairs hpairs
  | false =>
      obtain ⟨_, -, -, hpairs⟩ := hasks
      exact parsed_of_sentPairs hpairs

end AstraConnect.Orderbook
