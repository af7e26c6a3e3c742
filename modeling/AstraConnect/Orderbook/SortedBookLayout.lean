import AstraConnect.Orderbook.SortedBook

set_option autoImplicit false

/-! # The window and the fallback

`members` are the blocks referenced from the two containers. While the containers are laid out
as `Layout` says, `findBlock` finds exactly the members (`findBlock_eq_some`), `place` adds one,
`unplace` takes one out, and `recentre` moves them without adding or losing any. These four
facts are all that the rest of the development knows about the containers, apart from the order
in which `forEachBest` visits them.
-/

namespace AstraConnect.Orderbook

open Scan Containers

namespace SortedBook

variable {IsBid : Bool}

/-- The blocks referenced from `window` and `fallback`. -/
def members (b : SortedBook IsBid) : List Nat := occupied b.window WINDOW ++ b.fallback

structure Layout (b : SortedBook IsBid) : Prop where
  /-- a block in the window sits at the index of its id -/
  window_id : ∀ i < WINDOW, ∀ level, b.window i = some level → b.idOf level = b.windowBase + i
  fallback_sorted : SortedBy b.idOf b.fallback
  fallback_outside : ∀ level ∈ b.fallback, ¬ b.inWindow (b.idOf level)
  windowBlocks_eq : b.windowBlocks = (occupied b.window WINDOW).length

/-- Nothing but the containers differs. -/
structure SameLevels (b c : SortedBook IsBid) : Prop where
  tickSize : c.tickSize = b.tickSize
  blocks : c.blocks = b.blocks
  freeBlocks : c.freeBlocks = b.freeBlocks
  entries : c.entries = b.entries
  freeSlots : c.freeSlots = b.freeSlots

theorem SameLevels.refl (b : SortedBook IsBid) : SameLevels b b := ⟨rfl, rfl, rfl, rfl, rfl⟩

theorem SameLevels.trans {b c d : SortedBook IsBid} (h : SameLevels b c) (h' : SameLevels c d) :
    SameLevels b d :=
  ⟨h'.tickSize.trans h.tickSize, h'.blocks.trans h.blocks, h'.freeBlocks.trans h.freeBlocks,
    h'.entries.trans h.entries, h'.freeSlots.trans h.freeSlots⟩

theorem SameLevels.idOf {b c : SortedBook IsBid} (h : SameLevels b c) : c.idOf = b.idOf := by
  funext level
  rw [SortedBook.idOf, SortedBook.idOf, h.blocks]

/-! ## Looking a block up

A block with its id inside the window can only be in the window, and any other only in the
fallback, where the binary search finds it. -/

theorem mem_members {b : SortedBook IsBid} {level : Nat} :
    level ∈ b.members ↔ (∃ i < WINDOW, b.window i = some level) ∨ level ∈ b.fallback := by
  rw [members, List.mem_append, mem_occupied]

theorem windowIdx_lt {b : SortedBook IsBid} {blockId : Int} (h : b.inWindow blockId) :
    b.windowIdx blockId < WINDOW := by
  unfold inWindow at h
  unfold windowIdx
  omega

theorem windowIdx_add {b : SortedBook IsBid} {blockId : Int} (h : b.inWindow blockId) :
    b.windowBase + (b.windowIdx blockId : Nat) = blockId := by
  unfold inWindow at h
  unfold windowIdx
  omega

theorem Layout.inWindow_of_window {b : SortedBook IsBid} (hl : Layout b) {i level : Nat}
    (hi : i < WINDOW) (h : b.window i = some level) :
    b.inWindow (b.idOf level) ∧ b.windowIdx (b.idOf level) = i := by
  rw [hl.window_id i hi level h]
  unfold inWindow windowIdx
  omega

/-- A member whose id lies in the window is in the window, any other in the fallback. -/
theorem Layout.window_of_mem {b : SortedBook IsBid} (hl : Layout b) {level : Nat}
    (hm : level ∈ b.members) (hw : b.inWindow (b.idOf level)) :
    b.window (b.windowIdx (b.idOf level)) = some level := by
  rcases mem_members.mp hm with ⟨i, hi, h⟩ | h
  · rw [(hl.inWindow_of_window hi h).2, h]
  · exact absurd hw (hl.fallback_outside level h)

theorem Layout.fallback_of_mem {b : SortedBook IsBid} (hl : Layout b) {level : Nat}
    (hm : level ∈ b.members) (hw : ¬ b.inWindow (b.idOf level)) : level ∈ b.fallback := by
  rcases mem_members.mp hm with ⟨i, hi, h⟩ | h
  · exact absurd (hl.inWindow_of_window hi h).1 hw
  · exact h

/-- **`findBlock` finds the member with the id looked for.** -/
theorem Layout.findBlock_eq_some {b : SortedBook IsBid} (hl : Layout b) {blockId : Int}
    {level : Nat} :
    b.findBlock blockId = some level ↔ level ∈ b.members ∧ b.idOf level = blockId := by
  rw [findBlock]
  by_cases hw : b.inWindow blockId
  · rw [if_pos hw]
    constructor
    · intro h
      refine ⟨mem_members.mpr (Or.inl ⟨_, windowIdx_lt hw, h⟩), ?_⟩
      rw [hl.window_id _ (windowIdx_lt hw) level h, windowIdx_add hw]
    · rintro ⟨hm, rfl⟩
      exact hl.window_of_mem hm hw
  · rw [if_neg hw, Option.filter_eq_some_iff]
    simp only [decide_eq_true_eq]
    rw [fallbackFind, hl.fallback_sorted.getElem?_lowerBound]
    constructor
    · rintro ⟨hm, hid⟩
      exact ⟨mem_members.mpr (Or.inr hm), hid⟩
    · rintro ⟨hm, rfl⟩
      exact ⟨hl.fallback_of_mem hm hw, rfl⟩

theorem Layout.findBlock_eq_none {b : SortedBook IsBid} (hl : Layout b) {blockId : Int} :
    b.findBlock blockId = none ↔ ∀ level ∈ b.members, b.idOf level ≠ blockId := by
  rw [Option.eq_none_iff_forall_ne_some]
  constructor
  · intro h level hm hid
    exact h level (hl.findBlock_eq_some.mpr ⟨hm, hid⟩)
  · intro h level hf
    obtain ⟨hm, hid⟩ := hl.findBlock_eq_some.mp hf
    exact h level hm hid

theorem Layout.window_sorted {b : SortedBook IsBid} (hl : Layout b) :
    SortedBy b.idOf (occupied b.window WINDOW) := by
  rw [SortedBy, occupied, List.pairwise_filterMap]
  refine List.Pairwise.imp_of_mem ?_ List.pairwise_lt_range
  intro i j hi hj hij k hk l hl'
  rw [hl.window_id i (List.mem_range.mp hi) k hk, hl.window_id j (List.mem_range.mp hj) l hl']
  omega

theorem Layout.nodup_ids {b : SortedBook IsBid} (hl : Layout b) :
    (b.members.map b.idOf).Nodup := by
  rw [members, List.map_append, List.nodup_append]
  refine ⟨?_, ?_, ?_⟩
  · exact List.pairwise_map.mpr (hl.window_sorted.imp (fun h => ne_of_lt h))
  · exact List.pairwise_map.mpr (hl.fallback_sorted.imp (fun h => ne_of_lt h))
  · intro x hx y hy hxy
    obtain ⟨k, hk, rfl⟩ := List.mem_map.mp hx
    obtain ⟨l, hm, rfl⟩ := List.mem_map.mp hy
    obtain ⟨i, hi, hki⟩ := mem_occupied.mp hk
    exact hl.fallback_outside l hm (hxy ▸ (hl.inWindow_of_window hi hki).1)

theorem Layout.nodup_members {b : SortedBook IsBid} (hl : Layout b) : b.members.Nodup :=
  List.Nodup.of_map _ hl.nodup_ids

/-! ## Placing a block -/

theorem sameLevels_place (b : SortedBook IsBid) (level : Nat) : SameLevels b (b.place level) := by
  unfold place
  split <;> exact ⟨rfl, rfl, rfl, rfl, rfl⟩

@[simp] theorem place_windowBase (b : SortedBook IsBid) (level : Nat) :
    (b.place level).windowBase = b.windowBase := by
  unfold place
  split <;> rfl

/-- The empty containers are laid out, around any base. -/
theorem layout_of_empty {b : SortedBook IsBid} (hw : b.window = fun _ => none)
    (hf : b.fallback = []) (hc : b.windowBlocks = 0) : Layout b := by
  refine ⟨?_, ?_, ?_, ?_⟩
  · intro i _ level h
    rw [hw] at h
    cases h
  · rw [hf]
    exact List.Pairwise.nil
  · intro level h
    rw [hf] at h
    cases h
  · rw [hc, hw, occupied_none]
    rfl

section place

variable {b : SortedBook IsBid} {level : Nat}

/-- The cell of a new block in the window is empty. -/
theorem window_eq_none (hl : Layout b) (hnew : ∀ k ∈ b.members, b.idOf k ≠ b.idOf level)
    (hw : b.inWindow (b.idOf level)) : b.window (b.windowIdx (b.idOf level)) = none := by
  have h := hl.findBlock_eq_none.mpr hnew
  rwa [findBlock, if_pos hw] at h

theorem members_place (hl : Layout b) (hnew : ∀ k ∈ b.members, b.idOf k ≠ b.idOf level) :
    (b.place level).members.Perm (level :: b.members) := by
  unfold place
  by_cases hw : b.inWindow (b.idOf level)
  · have hnone := window_eq_none hl hnew hw
    rw [if_pos hw]
    exact (occupied_update_some level (windowIdx_lt hw) hnone).append_right b.fallback
  · rw [if_neg hw]
    have hins := List.perm_insertIdx level b.fallback
      (lowerBound_le_length b.idOf b.fallback (b.idOf level))
    exact (hins.append_left _).trans List.perm_middle

theorem layout_place (hl : Layout b) (hnew : ∀ k ∈ b.members, b.idOf k ≠ b.idOf level) :
    Layout (b.place level) := by
  unfold place
  by_cases hw : b.inWindow (b.idOf level)
  · have hnone := window_eq_none hl hnew hw
    rw [if_pos hw]
    refine ⟨?_, hl.fallback_sorted, hl.fallback_outside, ?_⟩
    · intro i hi k hk
      change Function.update b.window _ (some level) i = some k at hk
      show b.idOf k = b.windowBase + (i : Nat)
      rcases eq_or_ne i (b.windowIdx (b.idOf level)) with rfl | hne
      · rw [Function.update_self, Option.some.injEq] at hk
        rw [← hk]
        exact (windowIdx_add hw).symm
      · rw [Function.update_of_ne hne] at hk
        exact hl.window_id i hi k hk
    · have hlen := (occupied_update_some level (windowIdx_lt hw) hnone).length_eq
      show b.windowBlocks + 1 = _
      rw [hl.windowBlocks_eq, hlen, List.length_cons]
      push_cast
      rfl
  · rw [if_neg hw]
    refine ⟨hl.window_id, ?_, ?_, hl.windowBlocks_eq⟩
    · exact hl.fallback_sorted.insertIdx (fun k hk => hnew k (mem_members.mpr (Or.inr hk)))
    · intro k hk
      rcases List.eq_or_mem_of_mem_insertIdx hk with rfl | hk
      · exact hw
      · exact hl.fallback_outside k hk

end place

/-! ## Taking a block out -/

section unplace

variable {b : SortedBook IsBid} {level : Nat}

theorem sameLevels_unplace (b : SortedBook IsBid) (level : Nat) :
    SameLevels b (b.unplace level) := by
  unfold unplace
  split <;> exact ⟨rfl, rfl, rfl, rfl, rfl⟩

theorem members_unplace (hl : Layout b) (hm : level ∈ b.members) :
    b.members.Perm (level :: (b.unplace level).members) := by
  unfold unplace
  by_cases hw : b.inWindow (b.idOf level)
  · rw [if_pos hw]
    exact (occupied_update_none (windowIdx_lt hw) (hl.window_of_mem hm hw)).append_right b.fallback
  · rw [if_neg hw]
    have herase := hl.fallback_sorted.perm_eraseIdx (hl.fallback_of_mem hm hw)
    exact (herase.append_left _).trans List.perm_middle

theorem layout_unplace (hl : Layout b) (hm : level ∈ b.members) : Layout (b.unplace level) := by
  unfold unplace
  by_cases hw : b.inWindow (b.idOf level)
  · rw [if_pos hw]
    refine ⟨?_, hl.fallback_sorted, hl.fallback_outside, ?_⟩
    · intro i hi k hk
      change Function.update b.window _ none i = some k at hk
      show b.idOf k = b.windowBase + (i : Nat)
      rcases eq_or_ne i (b.windowIdx (b.idOf level)) with rfl | hne
      · rw [Function.update_self] at hk
        cases hk
      · rw [Function.update_of_ne hne] at hk
        exact hl.window_id i hi k hk
    · have hlen :=
        (occupied_update_none (windowIdx_lt hw) (hl.window_of_mem hm hw)).length_eq
      show b.windowBlocks - 1 = _
      rw [hl.windowBlocks_eq, hlen, List.length_cons]
      push_cast
      omega
  · rw [if_neg hw]
    refine ⟨hl.window_id, hl.fallback_sorted.eraseIdx _, ?_, hl.windowBlocks_eq⟩
    intro k hk
    exact hl.fallback_outside k (List.mem_of_mem_eraseIdx hk)

end unplace

/-! ## Recentring

`recentre` empties both containers and places all blocks again, for the new base. So it is `place`
for each of them, one after the other. -/

/-- Placing a list of blocks with new and different ids, one after the other. -/
theorem foldl_place (l : List Nat) (b : SortedBook IsBid) (hl : Layout b)
    (hnew : ∀ k ∈ b.members, ∀ level ∈ l, b.idOf k ≠ b.idOf level)
    (hnodup : (l.map b.idOf).Nodup) :
    Layout (l.foldl place b) ∧ (l.foldl place b).members.Perm (l ++ b.members) ∧
      SameLevels b (l.foldl place b) := by
  induction l generalizing b with
  | nil => exact ⟨hl, List.Perm.refl _, SameLevels.refl b⟩
  | cons level l ih =>
      have hfresh : ∀ k ∈ b.members, b.idOf k ≠ b.idOf level :=
        fun k hk => hnew k hk level (List.mem_cons_self ..)
      have hsame := sameLevels_place b level
      have hperm := members_place hl hfresh
      rw [List.map_cons, List.nodup_cons] at hnodup
      obtain ⟨h1, h2, h3⟩ := ih (b.place level) (layout_place hl hfresh) (by
        intro k hk l' hl'
        rw [hsame.idOf]
        rcases List.mem_cons.mp (hperm.mem_iff.mp hk) with rfl | hk
        · intro he
          exact hnodup.1 (List.mem_map.mpr ⟨l', hl', he.symm⟩)
        · exact hnew k hk l' (List.mem_cons_of_mem _ hl')) (by rw [hsame.idOf]; exact hnodup.2)
      refine ⟨h1, h2.trans ?_, hsame.trans h3⟩
      exact (hperm.append_left l).trans List.perm_middle

/-- **`recentre` moves pointers only**: the members stay the same. -/
theorem recentre_spec {b : SortedBook IsBid} (hl : Layout b) (centreBlock : Int) :
    Layout (b.recentre centreBlock) ∧ (b.recentre centreBlock).members.Perm b.members ∧
      SameLevels b (b.recentre centreBlock) := by
  set cleared : SortedBook IsBid :=
    { b with
      window := fun _ => none
      fallback := []
      windowBlocks := 0
      windowBase := centreBlock - (WINDOW / 2 : Nat)
      centred := true } with hcleared
  have hperm := List.perm_insertionSort (fun a c => b.idOf a ≤ b.idOf c) b.members
  have hmem : cleared.members = [] := by
    rw [members, hcleared, occupied_none]
    rfl
  obtain ⟨h1, h2, h3⟩ := foldl_place (b.members.insertionSort (fun a c => b.idOf a ≤ b.idOf c))
    cleared (layout_of_empty rfl rfl rfl)
    (fun k hk => by rw [hmem] at hk; cases hk)
    ((hperm.map b.idOf).nodup_iff.mpr hl.nodup_ids)
  rw [hmem, List.append_nil] at h2
  exact ⟨h1, h2.trans hperm, ⟨h3.tickSize, h3.blocks, h3.freeBlocks, h3.entries, h3.freeSlots⟩⟩

end SortedBook

end AstraConnect.Orderbook
