import AstraConnect.Orderbook.SortedBookLayout

set_option autoImplicit false

/-! # The representation invariant of a side

`located` lists the levels as pairs of a tick and the slot of its entry. The invariant `Inv`
says that the blocks in use and the free ones, and the slots in use and the free ones, partition
the two arrays, and that a block is in use exactly while it has a level. Every operation keeps
it; what an operation does to the book is stated as what it does to `located`, up to order.
-/

namespace AstraConnect.Orderbook

open Scan Containers
open scoped List

/-! ## Ticks, block ids and offsets -/

theorem blockOf_eq (tick : Int) : blockOf tick = tick / 128 := by
  rw [blockOf, Int.shiftRight_eq_div_pow]
  rfl

theorem offsetOf_lt (tick : Int) : offsetOf tick < TICKS := by
  unfold offsetOf TICKS
  omega

theorem tick_eq (tick : Int) : blockOf tick * 128 + (offsetOf tick : Int) = tick := by
  rw [blockOf_eq]
  unfold offsetOf
  omega

theorem blockOf_add {id : Int} {o : Nat} (h : o < TICKS) : blockOf (id * 128 + o) = id := by
  unfold TICKS at h
  rw [blockOf_eq]
  omega

theorem offsetOf_add {id : Int} {o : Nat} (h : o < TICKS) : offsetOf (id * 128 + o) = o := by
  unfold TICKS at h
  unfold offsetOf
  omega

namespace SortedBook

variable {IsBid : Bool}

/-! ## The levels of the book

`located` forgets the containers and the bitmaps. `Wf` is what stays true while an operation is
under way, when a block may be in use and empty. -/

/-- Tick and slot of the levels in one block. -/
def segment (b : SortedBook IsBid) (level : Nat) : List (Int × Nat) :=
  (b.blocks level).offsets.map (fun o : Nat => (b.idOf level * 128 + o, (b.blocks level).slots o))

/-- Tick and slot of every level. -/
def located (b : SortedBook IsBid) : List (Int × Nat) := b.members.flatMap b.segment

/-- What holds between the steps of one operation too. -/
structure Wf (b : SortedBook IsBid) : Prop where
  layout : Layout b
  blocks_perm : (b.members ++ b.freeBlocks).Perm (List.range MAX_BLOCKS)
  slots_perm : (b.located.map Prod.snd ++ b.freeSlots).Perm (List.range MAX_LEVELS)
  free_empty : ∀ level ∈ b.freeBlocks, (b.blocks level).empty = true

/-- **The representation invariant.** -/
structure Inv (b : SortedBook IsBid) : Prop extends Wf b where
  used_nonempty : ∀ level ∈ b.members, (b.blocks level).empty = false

theorem segment_congr {b c : SortedBook IsBid} {level : Nat}
    (h : c.blocks level = b.blocks level) : c.segment level = b.segment level := by
  rw [segment, segment, idOf, idOf, h]

theorem segment_of_empty {b : SortedBook IsBid} {level : Nat}
    (h : (b.blocks level).empty = true) : b.segment level = [] := by
  rw [segment, PriceLevel.empty_iff.mp h]
  rfl

theorem mem_segment {b : SortedBook IsBid} {level : Nat} {t : Int} {s : Nat} :
    (t, s) ∈ b.segment level ↔ b.idOf level = blockOf t ∧
      (b.blocks level).test (offsetOf t) = true ∧ (b.blocks level).slots (offsetOf t) = s := by
  rw [segment, List.mem_map]
  constructor
  · rintro ⟨o, ho, he⟩
    obtain ⟨hlt, htest⟩ := PriceLevel.mem_offsets.mp ho
    obtain ⟨rfl, rfl⟩ := Prod.mk.inj he
    rw [blockOf_add hlt, offsetOf_add hlt]
    exact ⟨rfl, htest, rfl⟩
  · rintro ⟨hid, htest, hs⟩
    refine ⟨offsetOf t, PriceLevel.mem_offsets.mpr ⟨offsetOf_lt t, htest⟩, ?_⟩
    rw [hid, tick_eq, hs]

/-- Looking a tick up is looking through `located`. -/
theorem mem_located {b : SortedBook IsBid} (hl : Layout b) {t : Int} {s : Nat} :
    (t, s) ∈ b.located ↔ ∃ level, b.findBlock (blockOf t) = some level ∧
      (b.blocks level).test (offsetOf t) = true ∧ (b.blocks level).slots (offsetOf t) = s := by
  rw [located, List.mem_flatMap]
  constructor
  · rintro ⟨level, hm, hs⟩
    obtain ⟨hid, htest, hslot⟩ := mem_segment.mp hs
    exact ⟨level, hl.findBlock_eq_some.mpr ⟨hm, hid⟩, htest, hslot⟩
  · rintro ⟨level, hf, htest, hslot⟩
    obtain ⟨hm, hid⟩ := hl.findBlock_eq_some.mp hf
    exact ⟨level, hm, mem_segment.mpr ⟨hid, htest, hslot⟩⟩

/-- A tick has one level at most. -/
theorem nodup_ticks {b : SortedBook IsBid} (hl : Layout b) : (b.located.map Prod.fst).Nodup := by
  rw [located, List.map_flatMap, List.nodup_flatMap]
  constructor
  · intro level _
    rw [segment, List.map_map]
    refine (PriceLevel.nodup_offsets _).map ?_
    intro o p h
    simp only [Function.comp_apply] at h
    omega
  · refine List.Pairwise.imp_of_mem ?_ (List.pairwise_map.mp hl.nodup_ids)
    intro k l _ _ hne t hk hm
    obtain ⟨⟨t, s⟩, hs, rfl⟩ := List.mem_map.mp hk
    obtain ⟨⟨t', s'⟩, hs', heq⟩ := List.mem_map.mp hm
    obtain rfl : t' = t := heq
    exact hne ((mem_segment.mp hs).1.trans (mem_segment.mp hs').1.symm)

theorem Wf.nodup_slots {b : SortedBook IsBid} (h : Wf b) : (b.located.map Prod.snd).Nodup :=
  (List.nodup_append.mp (h.slots_perm.nodup_iff.mpr List.nodup_range)).1

theorem Wf.length_located {b : SortedBook IsBid} (h : Wf b) :
    b.located.length + b.freeSlots.length = MAX_LEVELS := by
  have := h.slots_perm.length_eq
  rwa [List.length_append, List.length_map, List.length_range] at this

theorem Wf.length_members {b : SortedBook IsBid} (h : Wf b) :
    b.members.length + b.freeBlocks.length = MAX_BLOCKS := by
  have := h.blocks_perm.length_eq
  rwa [List.length_append, List.length_range] at this

/-! ## How changes show in `located`

An operation changes one block. What it does to the levels of that block, it does to `located`, up
to the order. -/

theorem Layout.of_ids {b c : SortedBook IsBid} (hl : Layout b) (hbase : c.windowBase = b.windowBase)
    (hw : c.window = b.window) (hf : c.fallback = b.fallback)
    (hc : c.windowBlocks = b.windowBlocks) (hid : ∀ k ∈ b.members, c.idOf k = b.idOf k) :
    Layout c := by
  have hin : ∀ blockId, c.inWindow blockId ↔ b.inWindow blockId := by
    intro blockId
    rw [inWindow, inWindow, hbase]
  refine ⟨?_, ?_, ?_, ?_⟩
  · intro i hi level h
    rw [hw] at h
    rw [hid level (mem_members.mpr (Or.inl ⟨i, hi, h⟩)), hbase]
    exact hl.window_id i hi level h
  · rw [hf]
    refine List.Pairwise.imp_of_mem ?_ hl.fallback_sorted
    intro k l hk hm h
    rwa [hid k (mem_members.mpr (Or.inr hk)), hid l (mem_members.mpr (Or.inr hm))]
  · intro level h
    rw [hf] at h
    rw [hid level (mem_members.mpr (Or.inr h)), hin]
    exact hl.fallback_outside level h
  · rw [hc, hw]
    exact hl.windowBlocks_eq

/-- Two books that differ in the block `level` only: the other levels are common to both. -/
theorem located_of_update {b c : SortedBook IsBid} {level : Nat} (hl : Layout b)
    (hm : level ∈ b.members) (hc : c.members = b.members)
    (hb : ∀ k ≠ level, c.blocks k = b.blocks k) :
    ∃ rest, b.located.Perm (b.segment level ++ rest) ∧
      c.located.Perm (c.segment level ++ rest) := by
  have hperm := List.perm_cons_erase hm
  have hnot : ∀ k ∈ b.members.erase level, k ≠ level := by
    rintro k hk rfl
    exact (List.Nodup.not_mem_erase hl.nodup_members) hk
  refine ⟨(b.members.erase level).flatMap b.segment, hperm.flatMap_right _, ?_⟩
  have hrest : (b.members.erase level).flatMap c.segment
      = (b.members.erase level).flatMap b.segment := by
    refine List.flatMap_congr (fun k hk => ?_)
    exact segment_congr (hb k (hnot k hk))
  rw [← hrest, located, hc]
  exact hperm.flatMap_right _

/-! ## Clearing -/

theorem clear_freeBlocks (b : SortedBook IsBid) :
    b.clear.freeBlocks = List.range MAX_BLOCKS := by rw [clear]

theorem clear_freeSlots (b : SortedBook IsBid) :
    b.clear.freeSlots = List.range MAX_LEVELS := by rw [clear]

theorem members_clear (b : SortedBook IsBid) : b.clear.members = [] := by
  rw [members, clear, occupied_none]
  rfl

theorem inv_clear (b : SortedBook IsBid) : Inv b.clear := by
  have hmem := members_clear b
  have hloc : b.clear.located = [] := by
    rw [located, hmem]
    rfl
  refine ⟨⟨layout_of_empty rfl rfl rfl, ?_, ?_, ?_⟩, ?_⟩
  · rw [hmem, List.nil_append, clear_freeBlocks]
  · rw [hloc, List.map_nil, List.nil_append, clear_freeSlots]
  · intro level _
    show decide (((0 : BitVec 64) ||| 0) = 0) = true
    decide
  · rw [hmem]
    intro level h
    cases h

theorem inv_construct (IsBid : Bool) (slots : Nat → Nat → Nat) : Inv (construct IsBid slots) :=
  inv_clear _

theorem members_construct (IsBid : Bool) (slots : Nat → Nat → Nat) :
    (construct IsBid slots).members = [] := members_clear _

theorem inv_setTickSize {b : SortedBook IsBid} (h : Inv b) (tickSize : Int) :
    Inv (b.setTickSize tickSize) :=
  ⟨⟨h.layout.of_ids rfl rfl rfl rfl (fun _ _ => rfl), h.blocks_perm, h.slots_perm, h.free_empty⟩,
    h.used_nonempty⟩

/-! ## Acquiring and releasing a block

A block goes from the free list to a container and back, perhaps with a recentring. Neither changes
a level, because the block is empty at the time. -/

/-- What acquiring a block gives. -/
structure Acquired (b c : SortedBook IsBid) (blockId : Int) (level : Nat) : Prop where
  wf : Wf c
  members : c.members.Perm (level :: b.members)
  blockId : c.idOf level = blockId
  empty : (c.blocks level).empty = true
  others : ∀ k ∈ b.members, c.blocks k = b.blocks k
  located : c.located.Perm b.located
  tickSize : c.tickSize = b.tickSize
  entries : c.entries = b.entries
  freeSlots : c.freeSlots = b.freeSlots

theorem acquireBlock_eq_none {b : SortedBook IsBid} {blockId : Int} :
    b.acquireBlock blockId = none ↔ b.freeBlocks = [] := by
  unfold acquireBlock
  cases hfree : b.freeBlocks with
  | nil => simp
  | cons level rest =>
      dsimp only
      split <;> simp

/-- Taking the top block `top` off the free list: the containers stay laid out, and no block in
them is `top` or has its new id. -/
theorem takeBlock_spec {b : SortedBook IsBid} {top : Nat} {rest : List Nat} {blockId : Int}
    (h : Wf b) (hfree : b.freeBlocks = top :: rest) (hnew : b.findBlock blockId = none) :
    Layout (b.takeBlock top rest blockId) ∧ (b.takeBlock top rest blockId).idOf top = blockId ∧
      (∀ k ∈ b.members, k ≠ top) ∧
      ∀ k ∈ b.members, (b.takeBlock top rest blockId).idOf k ≠ blockId := by
  set taken := b.takeBlock top rest blockId with htaken
  have hnodup := h.blocks_perm.nodup_iff.mpr List.nodup_range
  rw [hfree] at hnodup
  have hmem : ∀ k ∈ b.members, k ≠ top := fun k hk =>
    (List.nodup_append.mp hnodup).2.2 k hk top (List.mem_cons_self ..)
  have hsame : ∀ k ∈ b.members, taken.idOf k = b.idOf k := by
    intro k hk
    rw [idOf, idOf, show taken.blocks k = b.blocks k from Function.update_of_ne (hmem k hk) _ _]
  refine ⟨h.layout.of_ids rfl rfl rfl rfl hsame, ?_, hmem, ?_⟩
  · rw [idOf, show taken.blocks top = _ from Function.update_self _ _ _]
  · intro k hk
    rw [hsame k hk]
    exact h.layout.findBlock_eq_none.mp hnew k hk

/-- The block taken, once it is in place. -/
theorem place_takeBlock_spec {b : SortedBook IsBid} {top : Nat} {rest : List Nat} {blockId : Int}
    (h : Wf b) (hfree : b.freeBlocks = top :: rest) (hnew : b.findBlock blockId = none) :
    Layout ((b.takeBlock top rest blockId).place top) ∧
      ((b.takeBlock top rest blockId).place top).members.Perm (top :: b.members) ∧
      ((b.takeBlock top rest blockId).place top).idOf top = blockId := by
  obtain ⟨hlt, hid, -, hids⟩ := takeBlock_spec h hfree hnew
  have hfresh : ∀ k ∈ (b.takeBlock top rest blockId).members,
      (b.takeBlock top rest blockId).idOf k ≠ (b.takeBlock top rest blockId).idOf top := by
    intro k hk
    rw [hid]
    exact hids k hk
  refine ⟨layout_place hlt hfresh, members_place hlt hfresh, ?_⟩
  rw [(sameLevels_place _ top).idOf, hid]

/-- **What `acquireBlock` does.** The top of the free list is placed, and the window recentred on it
when there was none yet or the block lies beyond its best edge. -/
theorem acquireBlock_cases {b c : SortedBook IsBid} {blockId : Int} {level : Nat}
    (ha : b.acquireBlock blockId = some (c, level)) :
    ∃ rest, b.freeBlocks = level :: rest ∧
      ((b.centred = false ∨ beyondBestEdge IsBid blockId b.windowBase = true) ∧
          c = ((b.takeBlock level rest blockId).place level).recentre blockId ∨
        (b.centred = true ∧ beyondBestEdge IsBid blockId b.windowBase = false) ∧
          c = (b.takeBlock level rest blockId).place level) := by
  unfold acquireBlock at ha
  cases hfree : b.freeBlocks with
  | nil => rw [hfree] at ha; cases ha
  | cons top rest =>
      rw [hfree] at ha
      dsimp only at ha
      split at ha
      · rename_i htrigger
        obtain ⟨rfl, rfl⟩ := Prod.mk.inj (Option.some.inj ha)
        exact ⟨rest, rfl, Or.inl ⟨by simpa using htrigger, rfl⟩⟩
      · rename_i htrigger
        obtain ⟨rfl, rfl⟩ := Prod.mk.inj (Option.some.inj ha)
        exact ⟨rest, rfl, Or.inr ⟨by simpa using htrigger, rfl⟩⟩

theorem acquireBlock_spec {b c : SortedBook IsBid} {blockId : Int} {level : Nat} (h : Wf b)
    (hnew : b.findBlock blockId = none) (ha : b.acquireBlock blockId = some (c, level)) :
    Acquired b c blockId level := by
  obtain ⟨rest, hfree, hc⟩ := acquireBlock_cases ha
  set taken := b.takeBlock level rest blockId with htaken
  have hnodup := h.blocks_perm.nodup_iff.mpr List.nodup_range
  rw [hfree] at hnodup
  have hrest : level ∉ rest := (List.nodup_cons.mp (List.nodup_append.mp hnodup).2.1).1
  have hsame : ∀ k ≠ level, taken.blocks k = b.blocks k :=
    fun k hk => Function.update_of_ne hk _ _
  have hself : taken.blocks level = { b.blocks level with blockId := blockId } :=
    Function.update_self _ _ _
  obtain ⟨-, hid, hmem, -⟩ := takeBlock_spec h hfree hnew
  obtain ⟨hlp, hplace, -⟩ := place_takeBlock_spec h hfree hnew
  -- in both branches the block is placed, and then perhaps moved with the others
  obtain ⟨hlc, hmc, hsc⟩ : Layout c ∧ c.members.Perm (level :: b.members) ∧
      SameLevels taken c := by
    have hsp := sameLevels_place taken level
    rcases hc with ⟨-, rfl⟩ | ⟨-, rfl⟩
    · obtain ⟨hlr, hmr, hsr⟩ := recentre_spec hlp blockId
      exact ⟨hlr, hmr.trans hplace, hsp.trans hsr⟩
    · exact ⟨hlp, hplace, hsp⟩
  have hempty : (c.blocks level).empty = true := by
    rw [hsc.blocks, hself]
    exact h.free_empty level (by rw [hfree]; exact List.mem_cons_self ..)
  have hothers : ∀ k ∈ b.members, c.blocks k = b.blocks k := by
    intro k hk
    rw [hsc.blocks, hsame k (hmem k hk)]
  have hloc : c.located.Perm b.located := by
    have hseg : b.members.flatMap c.segment = b.members.flatMap b.segment :=
      List.flatMap_congr (fun k hk => segment_congr (hothers k hk))
    refine (hmc.flatMap_right _).trans ?_
    rw [List.flatMap_cons, segment_of_empty hempty, List.nil_append, hseg]
    exact List.Perm.refl _
  refine ⟨⟨hlc, ?_, ?_, ?_⟩, hmc, ?_, hempty, hothers, hloc, hsc.tickSize, hsc.entries,
    hsc.freeSlots⟩
  · rw [hsc.freeBlocks]
    refine (hmc.append_right rest).trans ?_
    refine List.Perm.trans ?_ h.blocks_perm
    rw [hfree, List.cons_append]
    exact List.perm_middle.symm
  · rw [hsc.freeSlots]
    exact ((hloc.map Prod.snd).append_right _).trans h.slots_perm
  · rw [hsc.freeBlocks]
    intro k hk
    rw [hsc.blocks, hsame k (fun he => hrest (he ▸ hk))]
    exact h.free_empty k (by rw [hfree]; exact List.mem_cons_of_mem _ hk)
  · rw [hsc.idOf, hid]

/-- Releasing an empty block leaves the levels as they are. -/
theorem releaseBlock_spec {b : SortedBook IsBid} {level : Nat} (h : Wf b) (hm : level ∈ b.members)
    (hempty : (b.blocks level).empty = true) :
    Wf (b.releaseBlock level) ∧ b.members.Perm (level :: (b.releaseBlock level).members) ∧
      (b.releaseBlock level).located.Perm b.located ∧
      (b.releaseBlock level).blocks = b.blocks ∧
      (b.releaseBlock level).tickSize = b.tickSize ∧
      (b.releaseBlock level).entries = b.entries ∧
      (b.releaseBlock level).freeSlots = b.freeSlots := by
  set freed := b.freeBlock level with hfreed
  have hsu := sameLevels_unplace b level
  have hmu := members_unplace h.layout hm
  have hlf : Layout freed := (layout_unplace h.layout hm).of_ids rfl rfl rfl rfl (fun _ _ => rfl)
  -- in both branches: laid out, the members of `freed`, and the levels of `freed`
  obtain ⟨hl, hp, hs⟩ : Layout (b.releaseBlock level) ∧
      (b.releaseBlock level).members.Perm freed.members ∧
      SameLevels freed (b.releaseBlock level) := by
    have hself : Layout freed ∧ freed.members.Perm freed.members ∧ SameLevels freed freed :=
      ⟨hlf, List.Perm.refl _, SameLevels.refl freed⟩
    unfold releaseBlock
    dsimp only
    split
    · split
      · exact recentre_spec hlf _
      · exact hself
    · exact hself
  have hblocks : (b.releaseBlock level).blocks = b.blocks := hs.blocks.trans hsu.blocks
  have hmem : b.members.Perm (level :: (b.releaseBlock level).members) :=
    hmu.trans (hp.symm.cons level)
  have hloc : (b.releaseBlock level).located.Perm b.located := by
    have hseg : (b.releaseBlock level).segment = b.segment :=
      funext (fun k => segment_congr (congrFun hblocks k))
    have := hmem.flatMap_right b.segment
    rw [List.flatMap_cons, segment_of_empty hempty, List.nil_append] at this
    rw [located, hseg]
    exact this.symm
  have hslots : (b.releaseBlock level).freeSlots = b.freeSlots := hs.freeSlots.trans hsu.freeSlots
  have hfree : (b.releaseBlock level).freeBlocks = level :: b.freeBlocks := by
    rw [hs.freeBlocks]
    rfl
  refine ⟨⟨hl, ?_, ?_, ?_⟩, hmem, hloc, hblocks, hs.tickSize.trans hsu.tickSize,
    hs.entries.trans hsu.entries, hslots⟩
  · -- the block only moves from the members to the free blocks
    rw [hfree]
    calc (b.releaseBlock level).members ++ level :: b.freeBlocks
        ~ level :: (b.releaseBlock level).members ++ b.freeBlocks := List.perm_middle
      _ ~ b.members ++ b.freeBlocks := (hmem.append_right b.freeBlocks).symm
      _ ~ List.range MAX_BLOCKS := h.blocks_perm
  · rw [hslots]
    exact ((hloc.map Prod.snd).append_right _).trans h.slots_perm
  · rw [hfree, hblocks]
    intro k hk
    rcases List.mem_cons.mp hk with rfl | hk
    · exact hempty
    · exact h.free_empty k hk

/-! ## Removing and adding a level -/

/-- Resetting the bit of a level takes its pair out of `located`. The block may be left empty. -/
theorem resetLevel_spec {b : SortedBook IsBid} {level offset : Nat} (h : Inv b)
    (hm : level ∈ b.members) (ho : offset < TICKS) (htest : (b.blocks level).test offset = true) :
    Wf (b.resetLevel level offset) ∧
      b.located.Perm ((b.idOf level * 128 + (offset : Int), (b.blocks level).slots offset)
        :: (b.resetLevel level offset).located) := by
  set slot := (b.blocks level).slots offset with hslot
  set removed := b.resetLevel level offset with hremoved
  have hself : removed.blocks level = (b.blocks level).reset offset := Function.update_self _ _ _
  have hsame : ∀ k ≠ level, removed.blocks k = b.blocks k :=
    fun k hk => Function.update_of_ne hk _ _
  have hids : ∀ k, removed.idOf k = b.idOf k := by
    intro k
    rcases eq_or_ne k level with rfl | hk
    · rw [idOf, hself, PriceLevel.reset_blockId, idOf]
    · rw [idOf, hsame k hk, idOf]
  have hloc : b.located.Perm ((b.idOf level * 128 + (offset : Int), slot) :: removed.located) := by
    obtain ⟨rest, h1, h2⟩ := located_of_update (c := removed) h.layout hm rfl hsame
    have hseg : (b.segment level).Perm
        ((b.idOf level * 128 + (offset : Int), slot) :: removed.segment level) := by
      rw [segment, segment, hids, hself]
      exact (PriceLevel.offsets_reset_perm ho htest).map _
    calc b.located ~ b.segment level ++ rest := h1
      _ ~ (b.idOf level * 128 + (offset : Int), slot) :: (removed.segment level ++ rest) :=
          hseg.append_right rest
      _ ~ (b.idOf level * 128 + (offset : Int), slot) :: removed.located := h2.symm.cons _
  refine ⟨⟨h.layout.of_ids rfl rfl rfl rfl (fun k _ => hids k), h.blocks_perm, ?_, ?_⟩, hloc⟩
  · calc removed.located.map Prod.snd ++ slot :: b.freeSlots
        ~ slot :: removed.located.map Prod.snd ++ b.freeSlots := List.perm_middle
      _ ~ b.located.map Prod.snd ++ b.freeSlots := (hloc.symm.map Prod.snd).append_right _
      _ ~ List.range MAX_LEVELS := h.slots_perm
  · intro k hk
    -- the level itself is not free, so no free block has changed
    have hne : k ≠ level := by
      rintro rfl
      have := h.used_nonempty k hm
      rw [h.free_empty k hk] at this
      cases this
    rw [hsame k hne]
    exact h.free_empty k hk

/-- **Removing a level** takes its pair out of `located`. -/
theorem removeLevel_spec {b : SortedBook IsBid} {level offset : Nat} (h : Inv b)
    (hm : level ∈ b.members) (ho : offset < TICKS) (htest : (b.blocks level).test offset = true) :
    Inv (b.removeLevel level offset) ∧
      b.located.Perm ((b.idOf level * 128 + (offset : Int), (b.blocks level).slots offset)
        :: (b.removeLevel level offset).located) ∧
      (b.removeLevel level offset).tickSize = b.tickSize ∧
      (b.removeLevel level offset).entries = b.entries := by
  obtain ⟨hwf, hloc⟩ := resetLevel_spec h hm ho htest
  set removed := b.resetLevel level offset with hremoved
  have hsame : ∀ k ≠ level, removed.blocks k = b.blocks k :=
    fun k hk => Function.update_of_ne hk _ _
  unfold removeLevel
  rw [← hremoved]
  by_cases hempty : (removed.blocks level).empty = true
  · rw [if_pos hempty]
    obtain ⟨hw, hmem, hl, hb, ht, he, _⟩ := releaseBlock_spec hwf hm hempty
    refine ⟨⟨hw, ?_⟩, hloc.trans (hl.symm.cons _), ht, he⟩
    intro k hk
    have hnodup := (hmem.nodup_iff.mp hwf.layout.nodup_members)
    have hne : k ≠ level := fun he => (List.nodup_cons.mp hnodup).1 (he ▸ hk)
    rw [hb, hsame k hne]
    exact h.used_nonempty k (hmem.mem_iff.mpr (List.mem_cons_of_mem _ hk))
  · rw [if_neg hempty]
    refine ⟨⟨hwf, ?_⟩, hloc, rfl, rfl⟩
    intro k hk
    rcases eq_or_ne k level with rfl | hne
    · simpa using hempty
    · rw [hsame k hne]
      exact h.used_nonempty k hk

/-- **Adding a level** to a block puts its pair into `located`, with a slot that was free. The
block need not have had a level before. -/
theorem addLevel_spec {b : SortedBook IsBid} {level offset : Nat} (price volume : Int) (h : Wf b)
    (hused : ∀ k ∈ b.members, k ≠ level → (b.blocks k).empty = false) (hm : level ∈ b.members)
    (ho : offset < TICKS) (htest : (b.blocks level).test offset = false)
    (hfree : b.freeSlots ≠ []) :
    ∃ slot, slot ∉ b.located.map Prod.snd ∧ Inv (b.addLevel level offset price volume) ∧
      (b.addLevel level offset price volume).located.Perm
        ((b.idOf level * 128 + (offset : Int), slot) :: b.located) ∧
      (b.addLevel level offset price volume).tickSize = b.tickSize ∧
      (b.addLevel level offset price volume).entries
        = Function.update b.entries slot ⟨price, volume⟩ := by
  obtain ⟨slot, rest, hslots⟩ : ∃ slot rest, b.freeSlots = slot :: rest :=
    List.exists_cons_of_ne_nil hfree
  set block := (b.blocks level).assignSlot offset slot with hblock
  have hadd : b.addLevel level offset price volume
      = { b with
          freeSlots := rest
          blocks := Function.update b.blocks level (block.set offset)
          entries := Function.update b.entries slot ⟨price, volume⟩ } := by
    unfold addLevel
    rw [hslots]
    rfl
  set added := b.addLevel level offset price volume
  have hself : added.blocks level = block.set offset := by
    rw [hadd]
    exact Function.update_self _ _ _
  have hsame : ∀ k ≠ level, added.blocks k = b.blocks k := by
    intro k hk
    rw [hadd]
    exact Function.update_of_ne hk _ _
  have hids : ∀ k, added.idOf k = b.idOf k := by
    intro k
    rcases eq_or_ne k level with rfl | hk
    · rw [idOf, hself, PriceLevel.set_blockId, hblock, PriceLevel.assignSlot_blockId, idOf]
    · rw [idOf, hsame k hk, idOf]
  have hmembers : added.members = b.members := by
    rw [hadd]
    rfl
  have hfs : added.freeSlots = rest := by rw [hadd]
  have hloc : added.located.Perm ((b.idOf level * 128 + (offset : Int), slot) :: b.located) := by
    obtain ⟨others, h1, h2⟩ := located_of_update h.layout hm hmembers hsame
    have hseg : (added.segment level).Perm
        ((b.idOf level * 128 + (offset : Int), slot) :: b.segment level) := by
      have hperm := PriceLevel.offsets_set_perm (l := block) ho htest
      rw [segment, hids, hself, PriceLevel.set_slots]
      refine (hperm.map _).trans ?_
      rw [List.map_cons, segment, show block.slots offset = slot from Function.update_self _ _ _]
      refine List.Perm.cons _ (List.Perm.of_eq ?_)
      -- the other offsets keep their slots
      refine List.map_congr_left (fun o hoff => ?_)
      have hne : o ≠ offset := by
        rintro rfl
        rw [hblock, PriceLevel.assignSlot_offsets, PriceLevel.mem_offsets, htest] at hoff
        cases hoff.2
      rw [show block.slots o = _ from Function.update_of_ne hne _ _]
    calc added.located ~ added.segment level ++ others := h2
      _ ~ (b.idOf level * 128 + (offset : Int), slot) :: (b.segment level ++ others) :=
          hseg.append_right others
      _ ~ (b.idOf level * 128 + (offset : Int), slot) :: b.located := h1.symm.cons _
  have hnodup := h.slots_perm.nodup_iff.mpr List.nodup_range
  refine ⟨slot, ?_, ⟨⟨?_, ?_, ?_, ?_⟩, ?_⟩, hloc, by rw [hadd], by rw [hadd]⟩
  · intro hin
    exact (List.nodup_append.mp hnodup).2.2 slot hin slot (by rw [hslots]; simp) rfl
  · rw [hadd]
    refine h.layout.of_ids rfl rfl rfl rfl (fun k _ => ?_)
    rw [← hadd]
    exact hids k
  · rw [hmembers, show added.freeBlocks = b.freeBlocks by rw [hadd]]
    exact h.blocks_perm
  · -- the slot moves from the free slots to the levels
    rw [hfs]
    calc added.located.map Prod.snd ++ rest
        ~ slot :: b.located.map Prod.snd ++ rest := (hloc.map Prod.snd).append_right rest
      _ ~ b.located.map Prod.snd ++ slot :: rest := List.perm_middle.symm
      _ ~ List.range MAX_LEVELS := by
          rw [← hslots]
          exact h.slots_perm
  · intro k hk
    rw [show added.freeBlocks = b.freeBlocks by rw [hadd]] at hk
    have hne : k ≠ level := by
      rintro rfl
      have hb := h.blocks_perm.nodup_iff.mpr List.nodup_range
      exact (List.nodup_append.mp hb).2.2 k hm k hk rfl
    rw [hsame k hne]
    exact h.free_empty k hk
  · intro k hk
    rw [hmembers] at hk
    rcases eq_or_ne k level with rfl | hne
    · rw [hself, ← Bool.not_eq_true, PriceLevel.empty_iff]
      intro hnil
      have : offset ∈ (block.set offset).offsets :=
        PriceLevel.mem_offsets.mpr ⟨ho, by rw [PriceLevel.test_set]; simp⟩
      rw [hnil] at this
      cases this
    · rw [hsame k hne]
      exact hused k hk hne

end SortedBook

end AstraConnect.Orderbook
