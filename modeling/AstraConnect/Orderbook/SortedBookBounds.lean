import AstraConnect.Orderbook.SortedBookRefinement

set_option autoImplicit false

/-! # No index of a side leaves its array

The operations of `SortedBook` once more, each of them with the indices it uses and the sizes it
grows a vector to tested first (`require`); a failed test is `none`. The tests cover the arrays
`window`, `blocks`, `bits`, `slots`, `entries`, `freeBlocks` and `freeSlots`, the reserved sizes
of `fallback` and `scratch`, the erased position of `fallback`, and the division and the sum of
`toTick`. In a state that keeps the invariant no test fails, and the checked operation returns
what the plain one does (`checkedUpdate_eq`), so the same holds along every run from the
constructor (`run_spec`).
-/

namespace AstraConnect.Orderbook

open Containers

/-- Goes on only when `p` holds. -/
def require (p : Prop) [Decidable p] : Option Unit := if p then some () else none

theorem require_bind {α : Type} {p : Prop} [Decidable p] (h : p) (f : Unit → Option α) :
    (require p).bind f = f () := by
  rw [require, if_pos h, Option.bind_some]

namespace SortedBook

variable {IsBid : Bool}

/-! ## The checked operations

Written next to the plain operations, line by line: the same value is computed, with the tests in
the places where the source indexes or grows an array. -/

/-- The binary search reads the ids of blocks in `fallback`. -/
def checkedFallbackFind (b : SortedBook IsBid) (blockId : Int) : Option Nat :=
  (require (∀ level ∈ b.fallback, level < MAX_BLOCKS)).bind fun _ =>
  some (b.fallbackFind blockId)

def checkedFindBlock (b : SortedBook IsBid) (blockId : Int) : Option (Option Nat) :=
  if b.inWindow blockId then
    (require (b.windowIdx blockId < WINDOW)).bind fun _ =>
    some (b.findBlock blockId)
  else
    (b.checkedFallbackFind blockId).bind fun _ =>
    some (b.findBlock blockId)

def checkedPlace (b : SortedBook IsBid) (level : Nat) : Option (SortedBook IsBid) :=
  (require (level < MAX_BLOCKS)).bind fun _ =>
  if b.inWindow (b.idOf level) then
    (require (b.windowIdx (b.idOf level) < WINDOW)).bind fun _ =>
    some (b.place level)
  else
    (b.checkedFallbackFind (b.idOf level)).bind fun it =>
    -- one more entry, at a position of the vector or its end
    (require (it ≤ b.fallback.length ∧ b.fallback.length < MAX_BLOCKS)).bind fun _ =>
    some (b.place level)

/-- The containers as `recentre` finds them when it starts to place the blocks again. -/
def emptied (b : SortedBook IsBid) (centreBlock : Int) : SortedBook IsBid :=
  { b with
    window := fun _ => none
    fallback := []
    windowBlocks := 0
    windowBase := centreBlock - (WINDOW / 2 : Nat)
    centred := true }

def checkedRecentre (b : SortedBook IsBid) (centreBlock : Int) : Option (SortedBook IsBid) :=
  let scratch := occupied b.window WINDOW ++ b.fallback
  (require (scratch.length ≤ MAX_BLOCKS)).bind fun _ =>
  (require (∀ level ∈ scratch, level < MAX_BLOCKS)).bind fun _ =>
  (scratch.insertionSort (fun a c => b.idOf a ≤ b.idOf c)).foldlM checkedPlace
    (b.emptied centreBlock)

def checkedAcquireBlock (b : SortedBook IsBid) (blockId : Int) :
    Option (Option (SortedBook IsBid × Nat)) :=
  match b.freeBlocks with
  | [] => some none
  | level :: rest =>
      -- `blocks[freeBlocks[--freeBlockCount]]`
      (require (rest.length < MAX_BLOCKS ∧ level < MAX_BLOCKS)).bind fun _ =>
      ((b.takeBlock level rest blockId).checkedPlace level).bind fun placed =>
      if !b.centred || beyondBestEdge IsBid blockId b.windowBase then
        (placed.checkedRecentre blockId).bind fun recentred => some (some (recentred, level))
      else some (some (placed, level))

def checkedUnplace (b : SortedBook IsBid) (level : Nat) : Option (SortedBook IsBid) :=
  (require (level < MAX_BLOCKS)).bind fun _ =>
  if b.inWindow (b.idOf level) then
    (require (b.windowIdx (b.idOf level) < WINDOW)).bind fun _ =>
    some (b.unplace level)
  else
    (b.checkedFallbackFind (b.idOf level)).bind fun it =>
    -- `erase` needs an element at the position
    (require (it < b.fallback.length)).bind fun _ =>
    some (b.unplace level)

def checkedReleaseBlock (b : SortedBook IsBid) (level : Nat) : Option (SortedBook IsBid) :=
  (b.checkedUnplace level).bind fun _ =>
  -- `freeBlocks[freeBlockCount++]`
  (require (b.freeBlocks.length < MAX_BLOCKS)).bind fun _ =>
  let freed := b.freeBlock level
  match freed.bestFallback with
  | some best =>
      if freed.windowBlocks = 0 then
        (require (best < MAX_BLOCKS)).bind fun _ =>
        freed.checkedRecentre (freed.idOf best)
      else some freed
  | none => some freed

/-- The block `level`, the word of its bitmap for `offset`, and its slot there. -/
def checkLevel (level offset : Nat) : Option Unit :=
  require (level < MAX_BLOCKS ∧ offset >>> 6 < 2 ∧ offset < TICKS)

def checkedRemoveLevel (b : SortedBook IsBid) (level offset : Nat) :
    Option (SortedBook IsBid) :=
  (checkLevel level offset).bind fun _ =>
  -- `freeSlots[freeSlotCount++]`
  (require (b.freeSlots.length < MAX_LEVELS)).bind fun _ =>
  let removed := b.resetLevel level offset
  if (removed.blocks level).empty then removed.checkedReleaseBlock level else some removed

def checkedAddLevel (b : SortedBook IsBid) (level offset : Nat) (price volume : Int) :
    Option (SortedBook IsBid) :=
  match b.freeSlots with
  | [] => none
  | slot :: rest =>
      -- `freeSlots[--freeSlotCount]`, and `entries[slot]`
      (require (rest.length < MAX_LEVELS ∧ slot < MAX_LEVELS)).bind fun _ =>
      (checkLevel level offset).bind fun _ =>
      some (b.addLevel level offset price volume)

/-- The sum of `toTick` stays in `int64_t`. -/
def NoOverflow (tickSize price : Int) : Prop :=
  -2 ^ 63 ≤ price + tickSize.tdiv 2 ∧ price + tickSize.tdiv 2 < 2 ^ 63

instance (tickSize price : Int) : Decidable (NoOverflow tickSize price) :=
  inferInstanceAs (Decidable (_ ∧ _))

def checkedToTick (tickSize price : Int) : Option Int :=
  (require (tickSize ≠ 0 ∧ NoOverflow tickSize price)).bind fun _ =>
  some (toTick tickSize price)

/-- `level && level->test(offset)`: the level, when there is one. -/
def checkedExists (b : SortedBook IsBid) (block : Option Nat) (offset : Nat) :
    Option (Option Nat) :=
  match block with
  | none => some none
  | some level =>
      (checkLevel level offset).bind fun _ =>
      some (if (b.blocks level).test offset then some level else none)

/-- `acquireBlock` when `findBlock` found nothing, and the new level in that block. -/
def checkedInsert (b : SortedBook IsBid) (block : Option Nat) (blockId : Int) (offset : Nat)
    (price volume : Int) : Option (SortedBook IsBid × Bool) :=
  match block with
  | some level =>
      (b.checkedAddLevel level offset price volume).bind fun added => some (added, true)
  | none =>
      (b.checkedAcquireBlock blockId).bind fun acquired =>
      match acquired with
      | none => some (b, false)
      | some (b', level) =>
          (b'.checkedAddLevel level offset price volume).bind fun added => some (added, true)

def checkedUpdate (b : SortedBook IsBid) (price volume : Int) :
    Option (SortedBook IsBid × Bool) :=
  (checkedToTick b.tickSize price).bind fun tick =>
  (b.checkedFindBlock (blockOf tick)).bind fun block =>
  (b.checkedExists block (offsetOf tick)).bind fun found =>
  match found with
  | some level =>
      if volume = 0 then
        (b.checkedRemoveLevel level (offsetOf tick)).bind fun removed => some (removed, true)
      else
        let slot := (b.blocks level).slots (offsetOf tick)
        (require (slot < MAX_LEVELS)).bind fun _ =>
        some (b.assignValues slot price volume, true)
  | none =>
      if volume = 0 then some (b, true)
      else if b.freeSlots = [] then some (b, false)
      else b.checkedInsert block (blockOf tick) (offsetOf tick) price volume

/-! ## In range

What the tests ask for, from the invariant: pointers are below `MAX_BLOCKS`, slots below
`MAX_LEVELS`, and the fallback never holds more blocks than there are. -/

/-- Every block in `fallback` exists, and `n` more entries fit into what was reserved. -/
structure Fits (b : SortedBook IsBid) (n : Nat) : Prop where
  pointers : ∀ level ∈ b.fallback, level < MAX_BLOCKS
  room : b.fallback.length + n ≤ MAX_BLOCKS

theorem Wf.lt_of_mem {b : SortedBook IsBid} (h : Wf b) {level : Nat} (hm : level ∈ b.members) :
    level < MAX_BLOCKS :=
  List.mem_range.mp (h.blocks_perm.mem_iff.mp (List.mem_append_left _ hm))

theorem Wf.lt_of_free {b : SortedBook IsBid} (h : Wf b) {level : Nat}
    (hm : level ∈ b.freeBlocks) : level < MAX_BLOCKS :=
  List.mem_range.mp (h.blocks_perm.mem_iff.mp (List.mem_append_right _ hm))

theorem Wf.slot_lt {b : SortedBook IsBid} (h : Wf b) {t : Int} {slot : Nat}
    (hm : (t, slot) ∈ b.located) : slot < MAX_LEVELS := by
  have hin : slot ∈ b.located.map Prod.snd := List.mem_map.mpr ⟨(t, slot), hm, rfl⟩
  exact List.mem_range.mp (h.slots_perm.mem_iff.mp (List.mem_append_left _ hin))

/-- The free blocks are what `fallback` has room for at least. -/
theorem Wf.fits {b : SortedBook IsBid} (h : Wf b) : Fits b b.freeBlocks.length := by
  refine ⟨fun level hm => h.lt_of_mem (mem_members.mpr (Or.inr hm)), ?_⟩
  have hlen := h.length_members
  rw [members, List.length_append] at hlen
  omega

theorem checkedFallbackFind_eq {b : SortedBook IsBid} {n : Nat} (h : Fits b n) (blockId : Int) :
    b.checkedFallbackFind blockId = some (b.fallbackFind blockId) := by
  rw [checkedFallbackFind, require_bind h.pointers]

theorem checkedFindBlock_eq {b : SortedBook IsBid} {n : Nat} (h : Fits b n) (blockId : Int) :
    b.checkedFindBlock blockId = some (b.findBlock blockId) := by
  unfold checkedFindBlock
  split
  · rw [require_bind (windowIdx_lt ‹_›)]
  · rw [checkedFallbackFind_eq h, Option.bind_some]

theorem checkLevel_bind {α : Type} {level offset : Nat} (hl : level < MAX_BLOCKS)
    (ho : offset < TICKS) (f : Unit → Option α) : (checkLevel level offset).bind f = f () := by
  have hword : offset >>> 6 < 2 := by
    rw [Nat.shiftRight_eq_div_pow]
    unfold TICKS at ho
    omega
  exact require_bind ⟨hl, hword, ho⟩ f

/-! ## Placing blocks -/

theorem checkedPlace_eq {b : SortedBook IsBid} {level n : Nat} (h : Fits b (n + 1))
    (hl : level < MAX_BLOCKS) : b.checkedPlace level = some (b.place level) := by
  have hroom := h.room
  rw [checkedPlace, require_bind hl]
  split
  · rw [require_bind (windowIdx_lt ‹_›)]
  · rw [checkedFallbackFind_eq h, Option.bind_some,
      require_bind ⟨lowerBound_le_length _ _ _, by omega⟩]

theorem fits_place {b : SortedBook IsBid} {level n : Nat} (h : Fits b (n + 1))
    (hl : level < MAX_BLOCKS) : Fits (b.place level) n := by
  have hroom := h.room
  unfold place
  split
  · exact ⟨h.pointers, by show b.fallback.length + n ≤ _; omega⟩
  · constructor
    · intro k hk
      rcases List.eq_or_mem_of_mem_insertIdx hk with rfl | hk
      · exact hl
      · exact h.pointers k hk
    · have hle : b.fallbackFind (b.idOf level) ≤ b.fallback.length := lowerBound_le_length _ _ _
      show (b.fallback.insertIdx _ level).length + n ≤ _
      rw [List.length_insertIdx_of_le_length hle]
      omega

/-- The loop at the end of `recentre`. -/
theorem foldlM_checkedPlace (l : List Nat) (b : SortedBook IsBid) (h : Fits b l.length)
    (hl : ∀ level ∈ l, level < MAX_BLOCKS) :
    l.foldlM checkedPlace b = some (l.foldl place b) := by
  induction l generalizing b with
  | nil => rfl
  | cons level l ih =>
      have hlevel := hl level (List.mem_cons_self ..)
      rw [List.foldlM_cons, checkedPlace_eq h hlevel, List.foldl_cons]
      show l.foldlM checkedPlace (b.place level) = _
      apply ih
      · exact fits_place h hlevel
      · exact fun k hk => hl k (List.mem_cons_of_mem _ hk)

theorem checkedRecentre_eq {b : SortedBook IsBid} (hlen : b.members.length ≤ MAX_BLOCKS)
    (hlt : ∀ level ∈ b.members, level < MAX_BLOCKS) (centreBlock : Int) :
    b.checkedRecentre centreBlock = some (b.recentre centreBlock) := by
  have hscratch : occupied b.window WINDOW ++ b.fallback = b.members := rfl
  unfold checkedRecentre
  dsimp only
  rw [hscratch, require_bind hlen, require_bind hlt, foldlM_checkedPlace]
  · rfl
  · refine ⟨fun level h => ?_, ?_⟩
    · cases h
    · show 0 + _ ≤ _
      rw [Nat.zero_add, List.length_insertionSort]
      exact hlen
  · intro level h
    exact hlt level ((List.mem_insertionSort _).mp h)

/-! ## Acquiring and releasing -/

theorem checkedAcquireBlock_eq {b : SortedBook IsBid} {blockId : Int} (h : Wf b)
    (hnew : b.findBlock blockId = none) :
    b.checkedAcquireBlock blockId = some (b.acquireBlock blockId) := by
  unfold checkedAcquireBlock acquireBlock
  cases hfree : b.freeBlocks with
  | nil => rfl
  | cons level rest =>
      dsimp only
      have hlen := h.length_members
      rw [hfree, List.length_cons] at hlen
      have hlevel : level < MAX_BLOCKS := h.lt_of_free (by rw [hfree]; exact List.mem_cons_self ..)
      have hfits : Fits (b.takeBlock level rest blockId) (rest.length + 1) := by
        have := h.fits
        rw [hfree, List.length_cons] at this
        exact ⟨this.pointers, this.room⟩
      obtain ⟨-, hperm, -⟩ := place_takeBlock_spec h hfree hnew
      rw [require_bind ⟨by omega, hlevel⟩, checkedPlace_eq hfits hlevel, Option.bind_some]
      split
      · rw [checkedRecentre_eq, Option.bind_some]
        · rw [hperm.length_eq, List.length_cons]
          omega
        · intro k hk
          rcases List.mem_cons.mp (hperm.mem_iff.mp hk) with rfl | hk
          · exact hlevel
          · exact h.lt_of_mem hk
      · rfl

theorem checkedUnplace_eq {b : SortedBook IsBid} {level : Nat} (h : Wf b)
    (hm : level ∈ b.members) : b.checkedUnplace level = some (b.unplace level) := by
  rw [checkedUnplace, require_bind (h.lt_of_mem hm)]
  split
  · rw [require_bind (windowIdx_lt ‹_›)]
  · rename_i hw
    -- the block is in `fallback`, so the search ends on it
    have hat := (h.layout.fallback_sorted.getElem?_lowerBound (x := b.idOf level)).mpr
      ⟨h.layout.fallback_of_mem hm hw, rfl⟩
    have hlt : b.fallbackFind (b.idOf level) < b.fallback.length :=
      (List.getElem?_eq_some_iff.mp hat.1).1
    rw [checkedFallbackFind_eq h.fits, Option.bind_some, require_bind hlt]

theorem checkedReleaseBlock_eq {b : SortedBook IsBid} {level : Nat} (h : Wf b)
    (hm : level ∈ b.members) : b.checkedReleaseBlock level = some (b.releaseBlock level) := by
  have hlen := h.length_members
  have hpos : 0 < b.members.length := List.length_pos_of_mem hm
  have hperm := members_unplace h.layout hm
  have hmem : ∀ k ∈ (b.freeBlock level).members, k < MAX_BLOCKS := fun k hk =>
    h.lt_of_mem (hperm.mem_iff.mpr (List.mem_cons_of_mem _ hk))
  have hle : (b.freeBlock level).members.length ≤ MAX_BLOCKS := by
    have := hperm.length_eq
    rw [List.length_cons] at this
    show (b.unplace level).members.length ≤ _
    omega
  unfold checkedReleaseBlock releaseBlock
  rw [checkedUnplace_eq h hm, Option.bind_some, require_bind (by omega)]
  dsimp only
  cases hbest : (b.freeBlock level).bestFallback with
  | none => rfl
  | some best =>
      dsimp only
      split
      · have hin : best ∈ (b.freeBlock level).members := by
          apply mem_members.mpr
          refine Or.inr ?_
          unfold bestFallback at hbest
          split at hbest
          · exact List.mem_of_getLast? hbest
          · exact List.mem_of_head? hbest
        rw [require_bind (hmem best hin), checkedRecentre_eq hle hmem]
      · rfl

/-! ## Removing and adding levels -/

theorem checkedRemoveLevel_eq {b : SortedBook IsBid} {level offset : Nat} (h : Inv b)
    (hm : level ∈ b.members) (ho : offset < TICKS)
    (htest : (b.blocks level).test offset = true) :
    b.checkedRemoveLevel level offset = some (b.removeLevel level offset) := by
  obtain ⟨hwf, hloc⟩ := resetLevel_spec h hm ho htest
  have hfree : b.freeSlots.length < MAX_LEVELS := by
    have := h.length_located
    rw [hloc.length_eq, List.length_cons] at this
    omega
  unfold checkedRemoveLevel removeLevel
  rw [checkLevel_bind (h.lt_of_mem hm) ho, require_bind hfree]
  dsimp only
  split
  · exact checkedReleaseBlock_eq hwf hm
  · rfl

theorem checkedAddLevel_eq {b : SortedBook IsBid} {level offset : Nat} (price volume : Int)
    (h : Wf b) (hm : level ∈ b.members) (ho : offset < TICKS) (hfree : b.freeSlots ≠ []) :
    b.checkedAddLevel level offset price volume
      = some (b.addLevel level offset price volume) := by
  unfold checkedAddLevel
  have hslots := h.slots_perm
  have hlen := h.length_located
  cases hs : b.freeSlots with
  | nil => exact absurd hs hfree
  | cons slot rest =>
      rw [hs] at hslots hlen
      rw [List.length_cons] at hlen
      have hslot : slot < MAX_LEVELS := List.mem_range.mp
        (hslots.mem_iff.mp (List.mem_append_right _ (List.mem_cons_self ..)))
      dsimp only
      rw [require_bind ⟨by omega, hslot⟩, checkLevel_bind (h.lt_of_mem hm) ho]

/-! ## The public calls -/

theorem checkedExists_eq {b : SortedBook IsBid} (h : Wf b) (tick : Int) :
    b.checkedExists (b.findBlock (blockOf tick)) (offsetOf tick) = some (b.levelAt tick) := by
  unfold checkedExists levelAt
  cases hf : b.findBlock (blockOf tick) with
  | none => rfl
  | some level =>
      have hm := (h.layout.findBlock_eq_some.mp hf).1
      dsimp only
      rw [checkLevel_bind (h.lt_of_mem hm) (offsetOf_lt tick), Option.filter_some]

/-- A new level: the block found has a level already, or the one acquired is still empty. -/
theorem checkedInsert_eq {b : SortedBook IsBid} {tick : Int} (price volume : Int) (h : Inv b)
    (hfree : b.freeSlots ≠ []) :
    b.checkedInsert (b.findBlock (blockOf tick)) (blockOf tick) (offsetOf tick) price volume
      = some (match b.blockFor (blockOf tick) with
          | some (b', level) => (b'.addLevel level (offsetOf tick) price volume, true)
          | none => (b, false)) := by
  unfold checkedInsert blockFor
  cases hf : b.findBlock (blockOf tick) with
  | some level =>
      have hm := (h.layout.findBlock_eq_some.mp hf).1
      dsimp only
      rw [checkedAddLevel_eq price volume h.toWf hm (offsetOf_lt tick) hfree, Option.bind_some]
  | none =>
      dsimp only
      rw [checkedAcquireBlock_eq h.toWf hf, Option.bind_some]
      cases ha : b.acquireBlock (blockOf tick) with
      | none => rfl
      | some acquired =>
          obtain ⟨b', level⟩ := acquired
          have hspec := acquireBlock_spec h.toWf hf ha
          have hm : level ∈ b'.members := hspec.members.mem_iff.mpr (List.mem_cons_self ..)
          have hfree' : b'.freeSlots ≠ [] := by rw [hspec.freeSlots]; exact hfree
          dsimp only
          rw [checkedAddLevel_eq price volume hspec.wf hm (offsetOf_lt tick) hfree',
            Option.bind_some]

/-- **`update` stays in bounds** in every state that keeps the invariant. -/
theorem checkedUpdate_eq {b : SortedBook IsBid} (h : Inv b) (htick : b.tickSize ≠ 0) {price : Int}
    (hprice : NoOverflow b.tickSize price) (volume : Int) :
    b.checkedUpdate price volume = some (b.update price volume) := by
  unfold checkedUpdate update checkedToTick
  rw [require_bind ⟨htick, hprice⟩, Option.bind_some, checkedFindBlock_eq h.fits,
    Option.bind_some, checkedExists_eq h.toWf, Option.bind_some]
  dsimp only
  set tick := toTick b.tickSize price
  cases hat : b.levelAt tick with
  | none =>
      dsimp only
      split
      · rfl
      · split
        · rfl
        · exact checkedInsert_eq price volume h ‹_›
  | some level =>
      obtain ⟨hf, htest⟩ := levelAt_eq_some.mp hat
      have hm := (h.layout.findBlock_eq_some.mp hf).1
      dsimp only
      split
      · rw [checkedRemoveLevel_eq h hm (offsetOf_lt tick) htest, Option.bind_some]
      · rw [require_bind (h.slot_lt (mem_located_of_levelAt h.layout hat))]

/-- What a call does to the side. -/
def apply (b : SortedBook IsBid) : Call → SortedBook IsBid
  | .clear => b.clear
  | .update price volume => (b.update price volume).1

/-- A call with its indices tested. The loops of `clear` count up to the sizes of its arrays. -/
def checkedApply (b : SortedBook IsBid) : Call → Option (SortedBook IsBid)
  | .clear => some b.clear
  | .update price volume => (b.checkedUpdate price volume).map Prod.fst

/-- The prices a call hands over do not overflow `toTick`. -/
def Call.NoOverflow (tickSize : Int) : Call → Prop
  | .clear => True
  | .update price _ => SortedBook.NoOverflow tickSize price

theorem inv_apply {b : SortedBook IsBid} (h : Inv b) (call : Call) :
    Inv (b.apply call) ∧ (b.apply call).tickSize = b.tickSize := by
  cases call with
  | clear => exact ⟨inv_clear b, rfl⟩
  | update price volume =>
      have hu := update_spec h price volume
      exact ⟨hu.inv, hu.tickSize⟩

theorem checkedApply_eq {b : SortedBook IsBid} (h : Inv b) (htick : b.tickSize ≠ 0) {call : Call}
    (hcall : call.NoOverflow b.tickSize) : b.checkedApply call = some (b.apply call) := by
  cases call with
  | clear => rfl
  | update price volume =>
      rw [checkedApply, checkedUpdate_eq h htick hcall, Option.map_some]
      rfl

/-- The invariant along a run, and that no test of the run fails. -/
theorem run_spec (calls : List Call) (b : SortedBook IsBid) (h : Inv b) (htick : b.tickSize ≠ 0)
    (hcalls : ∀ call ∈ calls, call.NoOverflow b.tickSize) :
    Inv (calls.foldl apply b) ∧ calls.foldlM checkedApply b = some (calls.foldl apply b) := by
  induction calls generalizing b with
  | nil => exact ⟨h, rfl⟩
  | cons call calls ih =>
      obtain ⟨hinv, hsize⟩ := inv_apply h call
      rw [List.foldlM_cons, checkedApply_eq h htick (hcalls call (List.mem_cons_self ..)),
        List.foldl_cons]
      apply ih (b.apply call) hinv
      · rw [hsize]
        exact htick
      · rw [hsize]
        exact fun c hc => hcalls c (List.mem_cons_of_mem _ hc)

/-! ## The invariant in the words of the arrays

The claim is about the arrays themselves, so the lists of `Inv` are read as what they stand for:
the slot numbers at the set bits, and the pointers in the two containers. -/

/-- The slot numbers stored at the set bits of a block. -/
def storedSlots (l : PriceLevel) : List Nat := l.offsets.map l.slots

/-- The slot numbers stored at the set bits of all blocks in use. -/
def usedSlots (b : SortedBook IsBid) : List Nat :=
  b.members.flatMap (fun level => storedSlots (b.blocks level))

theorem usedSlots_eq (b : SortedBook IsBid) : b.usedSlots = b.located.map Prod.snd := by
  rw [usedSlots, located, List.map_flatMap]
  refine List.flatMap_congr (fun level _ => ?_)
  rw [storedSlots, segment, List.map_map]
  rfl

theorem empty_eq_true_iff {l : PriceLevel} :
    l.empty = true ↔ ∀ offset < TICKS, l.test offset = false := by
  rw [PriceLevel.empty_iff, List.eq_nil_iff_forall_not_mem]
  constructor
  · intro h offset ho
    rw [← Bool.not_eq_true]
    exact fun ht => h offset (PriceLevel.mem_offsets.mpr ⟨ho, ht⟩)
  · intro h offset hm
    obtain ⟨ho, ht⟩ := PriceLevel.mem_offsets.mp hm
    rw [h offset ho] at ht
    cases ht

theorem empty_eq_false_iff {l : PriceLevel} :
    l.empty = false ↔ ∃ offset < TICKS, l.test offset = true := by
  rw [← Bool.not_eq_true, empty_eq_true_iff]
  simp only [not_forall, Bool.not_eq_false, exists_prop]

/-- **The representation invariant of a side holds after any calls**, and no call leaves the
bounds of an array or of a reserved vector. -/
theorem representation_invariant (IsBid : Bool) (slots : Nat → Nat → Nat) (tickSize : Int)
    (htick : 0 < tickSize) (calls : List Call)
    (hcalls : ∀ call ∈ calls, call.NoOverflow tickSize) :
    let start := (construct IsBid slots).setTickSize tickSize
    let book := calls.foldl apply start
    (book.freeSlots ++ book.usedSlots).Perm (List.range MAX_LEVELS) ∧
    (book.freeBlocks ++ book.members).Perm (List.range MAX_BLOCKS) ∧
    (∀ level ∈ book.members, ∃ offset < TICKS, (book.blocks level).test offset = true) ∧
    (∀ level ∈ book.freeBlocks, ∀ offset < TICKS, (book.blocks level).test offset = false) ∧
    (∀ i < WINDOW, ∀ level, book.window i = some level →
      (book.blocks level).blockId = book.windowBase + i) ∧
    book.fallback.Pairwise (fun a c => (book.blocks a).blockId < (book.blocks c).blockId) ∧
    (∀ level ∈ book.fallback, ¬ (book.windowBase ≤ (book.blocks level).blockId ∧
      (book.blocks level).blockId < book.windowBase + WINDOW)) ∧
    book.windowBlocks = ((List.range WINDOW).filter (fun i => (book.window i).isSome)).length ∧
    calls.foldlM checkedApply start = some book := by
  intro start book
  obtain ⟨hinv, hrun⟩ := run_spec calls start (inv_setTickSize (inv_construct IsBid slots) tickSize)
    (ne_of_gt htick) hcalls
  change Inv book at hinv
  have hl := hinv.layout
  refine ⟨?_, ?_, ?_, ?_, hl.window_id, hl.fallback_sorted, ?_, ?_, hrun⟩
  · rw [usedSlots_eq]
    exact List.perm_append_comm.trans hinv.slots_perm
  · exact List.perm_append_comm.trans hinv.blocks_perm
  · exact fun level hm => empty_eq_false_iff.mp (hinv.used_nonempty level hm)
  · exact fun level hm => empty_eq_true_iff.mp (hinv.free_empty level hm)
  · intro level hm hin
    apply hl.fallback_outside level hm
    unfold inWindow idOf
    omega
  · rw [hl.windowBlocks_eq, length_occupied]

/-- One bid at the highest price whose tick does not overflow. -/
theorem representation_invariant_oneBid :
    (SortedBook.Call.update (2 ^ 63 - 1) 5).NoOverflow 1 ∧
      ((List.range WINDOW).filter (fun i => ((([SortedBook.Call.update (2 ^ 63 - 1) 5].foldl apply
        ((construct true (fun _ _ => 0)).setTickSize 1)).window i).isSome))).length
        = ([SortedBook.Call.update (2 ^ 63 - 1) 5].foldl apply
            ((construct true (fun _ _ => 0)).setTickSize 1)).windowBlocks := by
  have hcall : (SortedBook.Call.update (2 ^ 63 - 1) 5).NoOverflow 1 := by
    show SortedBook.NoOverflow 1 (2 ^ 63 - 1)
    decide
  refine ⟨hcall, ?_⟩
  have h := representation_invariant true (fun _ _ => 0) 1 (by decide) [.update (2 ^ 63 - 1) 5]
    (fun call hm => by rw [List.mem_singleton.mp hm]; exact hcall)
  exact h.2.2.2.2.2.2.2.1.symm

end SortedBook

end AstraConnect.Orderbook
