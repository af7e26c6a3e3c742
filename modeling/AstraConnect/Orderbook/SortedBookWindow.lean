import AstraConnect.Orderbook.SortedBookRefinement

set_option autoImplicit false

/-! # Where the window lies

No block of a side ever lies beyond the best edge of the window, so `forEachBest` finds nothing in
the half of the fallback on that side. The window itself holds the best level as long as the
first level of a book that removals have emptied does not land on the worse side of the old
window: neither trigger of `recentre` sees that level.
-/

namespace AstraConnect.Orderbook

open Scan Containers

namespace SortedBook

variable {IsBid : Bool} {b c : SortedBook IsBid}

/-! ## The best edge

The window has a better and a worse side. `Edge` says that nothing lies beyond the better one, so
every block outside the window is worse than all those inside. -/

/-- The first id is at most as good as the second one. -/
def NoBetter (IsBid : Bool) (id other : Int) : Prop := if IsBid then id ≤ other else other ≤ id

/-- On the worse side of a window: below it for bids, above it for asks. -/
def Worse (IsBid : Bool) (blockId base : Int) : Prop :=
  if IsBid then blockId < base else base + WINDOW ≤ blockId

instance (IsBid : Bool) (blockId base : Int) : Decidable (Worse IsBid blockId base) := by
  unfold Worse
  infer_instance

variable (b) in
/-- A block is inside the window, beyond its best edge, or on its worse side. -/
theorem worse_iff (blockId : Int) :
    Worse IsBid blockId b.windowBase ↔
      ¬ b.inWindow blockId ∧ beyondBestEdge IsBid blockId b.windowBase = false := by
  unfold Worse inWindow beyondBestEdge WINDOW
  cases IsBid <;> simp <;> omega

/-- Nothing lies beyond the best edge, and an uncentred book is empty. -/
structure Edge (b : SortedBook IsBid) : Prop where
  within : ∀ level ∈ b.members, beyondBestEdge IsBid (b.idOf level) b.windowBase = false
  uncentred : b.centred = false → b.members = []

/-- Blocks may change where no id does. -/
theorem Edge.of_ids (he : Edge b) (hbase : c.windowBase = b.windowBase)
    (hc : c.centred = b.centred) (hm : ∀ level ∈ c.members, level ∈ b.members)
    (hid : ∀ level ∈ b.members, c.idOf level = b.idOf level) : Edge c := by
  constructor
  · intro level hl
    rw [hbase, hid level (hm level hl)]
    exact he.within level (hm level hl)
  · intro hfalse
    have hnil := he.uncentred (hc ▸ hfalse)
    refine List.eq_nil_iff_forall_not_mem.mpr (fun level hl => ?_)
    have := hm level hl
    rw [hnil] at this
    cases this

theorem edge_of_members_nil (h : b.members = []) : Edge b :=
  ⟨fun _ hl => absurd (h ▸ hl) List.not_mem_nil, fun _ => h⟩

/-- The window is where a member with an id inside it is. -/
theorem Layout.windowBlocks_pos (hl : Layout b) {level : Nat} (hm : level ∈ b.members)
    (hw : b.inWindow (b.idOf level)) : 0 < b.windowBlocks := by
  have hin : level ∈ occupied b.window WINDOW :=
    mem_occupied.mpr ⟨_, windowIdx_lt hw, hl.window_of_mem hm hw⟩
  have hlen := List.length_pos_of_mem hin
  rw [hl.windowBlocks_eq]
  omega

theorem Layout.occupied_nil (hl : Layout b) (h : b.windowBlocks = 0) :
    occupied b.window WINDOW = [] := by
  have hlen := hl.windowBlocks_eq
  exact List.length_eq_zero_iff.mp (by omega)

/-! ## Recentring -/

theorem foldl_place_window (l : List Nat) (b : SortedBook IsBid) :
    (l.foldl place b).windowBase = b.windowBase ∧ (l.foldl place b).centred = b.centred := by
  induction l generalizing b with
  | nil => exact ⟨rfl, rfl⟩
  | cons level l ih =>
      have hc : (b.place level).centred = b.centred := by
        unfold place
        split <;> rfl
      rw [List.foldl_cons, (ih _).1, (ih _).2, place_windowBase, hc]
      exact ⟨rfl, rfl⟩

theorem recentre_window (b : SortedBook IsBid) (centreBlock : Int) :
    (b.recentre centreBlock).windowBase = centreBlock - 64 ∧
      (b.recentre centreBlock).centred = true :=
  foldl_place_window _ _

/-- After recentring on a block that no member is better than, nothing lies beyond the edge. -/
theorem edge_recentre (hl : Layout b) {centreBlock : Int}
    (h : ∀ level ∈ b.members, NoBetter IsBid (b.idOf level) centreBlock) :
    Edge (b.recentre centreBlock) := by
  obtain ⟨_, hperm, hsame⟩ := recentre_spec hl centreBlock
  obtain ⟨hbase, hcentred⟩ := recentre_window b centreBlock
  constructor
  · intro level hm
    have hle := h level (hperm.mem_iff.mp hm)
    rw [hsame.idOf, hbase]
    unfold NoBetter at hle
    unfold beyondBestEdge WINDOW
    cases IsBid <;> simp at hle ⊢ <;> omega
  · intro hfalse
    rw [hcentred] at hfalse
    cases hfalse

/-- The block recentred on is in the window. -/
theorem windowBlocks_pos_recentre (hl : Layout b) {level : Nat} (hm : level ∈ b.members) :
    0 < (b.recentre (b.idOf level)).windowBlocks := by
  obtain ⟨hlr, hperm, hsame⟩ := recentre_spec hl (b.idOf level)
  refine hlr.windowBlocks_pos (hperm.mem_iff.mpr hm) ?_
  rw [hsame.idOf, inWindow, (recentre_window b _).1]
  unfold WINDOW
  omega

/-! ## A new block -/

/-- Acquiring a block keeps everything on the right side of the edge. -/
theorem edge_acquireBlock {blockId : Int} {level : Nat} (h : Wf b) (he : Edge b)
    (hnew : b.findBlock blockId = none) (ha : b.acquireBlock blockId = some (c, level)) :
    Edge c := by
  obtain ⟨rest, hfree, hc⟩ := acquireBlock_cases ha
  obtain ⟨-, -, hne, -⟩ := takeBlock_spec h hfree hnew
  obtain ⟨hlp, hperm, hid⟩ := place_takeBlock_spec h hfree hnew
  set taken := b.takeBlock level rest blockId with htaken
  have hold : ∀ k ∈ b.members, (taken.place level).idOf k = b.idOf k := by
    intro k hk
    rw [(sameLevels_place taken level).idOf, idOf, idOf,
      show taken.blocks k = b.blocks k from Function.update_of_ne (hne k hk) _ _]
  rcases hc with ⟨htrigger, rfl⟩ | ⟨⟨hcentred, hedge⟩, rfl⟩
  · refine edge_recentre hlp (fun k hk => ?_)
    rcases List.mem_cons.mp (hperm.mem_iff.mp hk) with rfl | hk
    · rw [hid]
      unfold NoBetter
      split <;> omega
    · -- an older block is this side of the edge that the new one has passed
      rw [hold k hk]
      cases hcentred : b.centred with
      | false =>
          rw [he.uncentred hcentred] at hk
          cases hk
      | true =>
          have hwithin := he.within k hk
          rw [hcentred] at htrigger
          unfold beyondBestEdge WINDOW at hwithin htrigger
          unfold NoBetter
          cases IsBid <;> simp at hwithin htrigger ⊢ <;> omega
  · constructor
    · intro k hk
      rw [place_windowBase]
      rcases List.mem_cons.mp (hperm.mem_iff.mp hk) with rfl | hk
      · rw [hid]
        exact hedge
      · rw [hold k hk]
        exact he.within k hk
    · intro hfalse
      have hkept : (taken.place level).centred = b.centred :=
        (foldl_place_window [level] taken).2
      rw [hkept, hcentred] at hfalse
      cases hfalse

/-! ## A released block -/

/-- Releasing a block: where the window has emptied, it follows the best of the fallback. -/
theorem edge_releaseBlock {level : Nat} (h : Wf b) (he : Edge b) (hm : level ∈ b.members) :
    Edge (b.releaseBlock level) := by
  set freed := b.freeBlock level with hfreed
  have hl : Layout freed := (layout_unplace h.layout hm).of_ids rfl rfl rfl rfl (fun _ _ => rfl)
  have hperm : b.members.Perm (level :: freed.members) := members_unplace h.layout hm
  have hsame := sameLevels_unplace b level
  have hedge : Edge freed := by
    have hcontainers : freed.windowBase = b.windowBase ∧ freed.centred = b.centred := by
      rw [hfreed, freeBlock, unplace]
      split <;> exact ⟨rfl, rfl⟩
    refine he.of_ids hcontainers.1 hcontainers.2 ?_ (fun k _ => congrFun hsame.idOf k)
    exact fun k hk => hperm.mem_iff.mpr (List.mem_cons_of_mem _ hk)
  unfold releaseBlock
  dsimp only
  rw [← hfreed]
  split
  · rename_i best hbest
    split
    · rename_i hempty
      have hmembers : freed.members = freed.fallback := by
        rw [members, hl.occupied_nil hempty, List.nil_append]
      refine edge_recentre hl (fun k hk => ?_)
      rw [hmembers] at hk
      have hsorted := hl.fallback_sorted
      unfold bestFallback at hbest
      unfold NoBetter
      cases IsBid with
      | true =>
          -- the last block of the fallback
          obtain ⟨front, hfront⟩ := List.getLast?_eq_some_iff.mp hbest
          rw [SortedBy, hfront, List.pairwise_append] at hsorted
          rw [hfront, List.mem_append, List.mem_singleton] at hk
          rcases hk with hk | rfl
          · exact le_of_lt (hsorted.2.2 k hk best (List.mem_singleton_self _))
          · exact le_refl _
      | false =>
          obtain ⟨back, hback⟩ := List.head?_eq_some_iff.mp hbest
          rw [SortedBy, hback, List.pairwise_cons] at hsorted
          rw [hback, List.mem_cons] at hk
          rcases hk with rfl | hk
          · exact le_refl _
          · exact le_of_lt (hsorted.1 k hk)
    · exact hedge
  · exact hedge

/-! ## Every call -/

/-- **The ways through `update`**: nothing is done, a level is removed or rewritten, or a level is
added to a block that is found or acquired. -/
theorem update_cases (b : SortedBook IsBid) (price volume : Int) :
    let tick := toTick b.tickSize price
    (b.update price volume).1 = b ∨
    (∃ level, volume = 0 ∧ b.levelAt tick = some level ∧
      (b.update price volume).1 = b.removeLevel level (offsetOf tick)) ∨
    (∃ slot, (b.update price volume).1 = b.assignValues slot price volume) ∨
    (∃ c level, volume ≠ 0 ∧ b.blockFor (blockOf tick) = some (c, level) ∧
      (b.update price volume).1 = c.addLevel level (offsetOf tick) price volume) := by
  intro tick
  unfold update
  dsimp only
  by_cases hv : volume = 0
  · rw [if_pos hv]
    cases hat : b.levelAt tick with
    | some level => exact Or.inr (Or.inl ⟨level, hv, rfl, rfl⟩)
    | none => exact Or.inl rfl
  · rw [if_neg hv]
    cases hat : b.levelAt tick with
    | some level => exact Or.inr (Or.inr (Or.inl ⟨_, rfl⟩))
    | none =>
        dsimp only
        by_cases hfree : b.freeSlots = []
        · rw [if_pos hfree]
          exact Or.inl rfl
        · rw [if_neg hfree]
          cases hb : b.blockFor (blockOf tick) with
          | none => exact Or.inl rfl
          | some p => exact Or.inr (Or.inr (Or.inr ⟨p.1, p.2, hv, rfl, rfl⟩))

/-- Adding a level moves no block. -/
theorem addLevel_containers (b : SortedBook IsBid) (level offset : Nat) (price volume : Int) :
    (b.addLevel level offset price volume).windowBase = b.windowBase ∧
      (b.addLevel level offset price volume).centred = b.centred ∧
      (b.addLevel level offset price volume).members = b.members ∧
      (b.addLevel level offset price volume).windowBlocks = b.windowBlocks ∧
      (b.addLevel level offset price volume).idOf = b.idOf := by
  unfold addLevel
  cases b.freeSlots with
  | nil => exact ⟨rfl, rfl, rfl, rfl, rfl⟩
  | cons slot rest =>
      refine ⟨rfl, rfl, rfl, rfl, funext (fun k => ?_)⟩
      show (Function.update b.blocks level _ k).blockId = (b.blocks k).blockId
      rcases eq_or_ne k level with rfl | hk
      · rw [Function.update_self, PriceLevel.set_blockId, PriceLevel.assignSlot_blockId]
      · rw [Function.update_of_ne hk]

/-- Resetting a level's bit moves no block. -/
theorem resetLevel_idOf (b : SortedBook IsBid) (level offset : Nat) :
    (b.resetLevel level offset).idOf = b.idOf := by
  funext k
  show (Function.update b.blocks level _ k).blockId = (b.blocks k).blockId
  rcases eq_or_ne k level with rfl | hk
  · rw [Function.update_self, PriceLevel.reset_blockId]
  · rw [Function.update_of_ne hk]

theorem edge_removeLevel {level offset : Nat} (h : Inv b) (he : Edge b) (hm : level ∈ b.members)
    (ho : offset < TICKS) (htest : (b.blocks level).test offset = true) :
    Edge (b.removeLevel level offset) := by
  have hreset : Edge (b.resetLevel level offset) :=
    he.of_ids rfl rfl (fun _ hk => hk) (fun k _ => congrFun (resetLevel_idOf b level offset) k)
  unfold removeLevel
  dsimp only
  split
  · exact edge_releaseBlock (resetLevel_spec h hm ho htest).1 hreset hm
  · exact hreset

/-- **A call of `update` lets nothing past the best edge.** -/
theorem edge_update (h : Inv b) (he : Edge b) (price volume : Int) :
    Edge (b.update price volume).1 := by
  rcases update_cases b price volume with hsame | ⟨level, _, hat, hu⟩ | ⟨slot, hu⟩ |
    ⟨c, level, _, hb, hu⟩
  · rw [hsame]
    exact he
  · obtain ⟨hf, htest⟩ := levelAt_eq_some.mp hat
    rw [hu]
    exact edge_removeLevel h he (h.layout.findBlock_eq_some.mp hf).1 (offsetOf_lt _) htest
  · rw [hu]
    exact he.of_ids rfl rfl (fun _ hk => hk) (fun _ _ => rfl)
  · have hc : Edge c := by
      unfold blockFor at hb
      cases hf : b.findBlock (blockOf (toTick b.tickSize price)) with
      | some found =>
          rw [hf] at hb
          obtain ⟨rfl, rfl⟩ := Prod.mk.inj (Option.some.inj hb)
          exact he
      | none =>
          rw [hf] at hb
          exact edge_acquireBlock h.toWf he hf hb
    obtain ⟨hbase, hcentred, hmembers, _, hid⟩ :=
      addLevel_containers c level (offsetOf (toTick b.tickSize price)) price volume
    rw [hu]
    exact hc.of_ids hbase hcentred (fun k hk => hmembers ▸ hk) (fun k _ => congrFun hid k)

theorem edge_replay (IsBid : Bool) (slots : Nat → Nat → Nat) (tickSize : Int)
    (calls : List Call) : Edge (replay IsBid slots tickSize calls).1 := by
  induction calls using List.reverseRecOn with
  | nil => exact edge_of_members_nil (members_construct IsBid slots)
  | append_singleton calls call ih =>
      have hinv := (replayed_replay IsBid slots tickSize calls).inv
      rw [replay, List.foldl_append, ← replay]
      cases call with
      | clear => exact edge_of_members_nil (members_clear _)
      | update price volume => exact edge_update hinv ih price volume

/-- **No fallback block lies on the better side of the window.** After any calls, the blocks of a
bid side's fallback lie below the window, and those of an ask side's above it; the loop of
`forEachBest` over the fallback beyond the best edge has nothing to visit. -/
theorem fallback_never_beyond_best_edge (slots : Nat → Nat → Nat) (tickSize : Int)
    (calls : List Call) :
    let bids := (replay true slots tickSize calls).1
    let asks := (replay false slots tickSize calls).1
    (∀ level ∈ bids.fallback, bids.idOf level < bids.windowBase) ∧
    (∀ level ∈ asks.fallback, asks.windowBase + WINDOW ≤ asks.idOf level) ∧
    bids.fallback.drop (bids.fallbackFind (bids.windowBase + WINDOW)) = [] ∧
    asks.fallback.take (asks.fallbackFind asks.windowBase) = [] := by
  intro bids asks
  have hlb : Layout bids := (replayed_replay true slots tickSize calls).inv.layout
  have hla : Layout asks := (replayed_replay false slots tickSize calls).inv.layout
  have hworse : ∀ {IsBid : Bool} {b : SortedBook IsBid}, Layout b → Edge b →
      ∀ level ∈ b.fallback, Worse IsBid (b.idOf level) b.windowBase := fun hl he level hm =>
    (worse_iff _ _).mpr
      ⟨hl.fallback_outside level hm, he.within level (mem_members.mpr (Or.inr hm))⟩
  have hbids : ∀ level ∈ bids.fallback, bids.idOf level < bids.windowBase :=
    hworse hlb (edge_replay true slots tickSize calls)
  have hasks : ∀ level ∈ asks.fallback, asks.windowBase + WINDOW ≤ asks.idOf level :=
    hworse hla (edge_replay false slots tickSize calls)
  refine ⟨hbids, hasks, ?_, ?_⟩
  · refine List.eq_nil_iff_forall_not_mem.mpr (fun level hm => ?_)
    have hlow := hbids level (List.mem_of_mem_drop hm)
    have hhigh := hlb.fallback_sorted.le_of_mem_drop hm
    omega
  · refine List.eq_nil_iff_forall_not_mem.mpr (fun level hm => ?_)
    have hhigh := hasks level (List.mem_of_mem_take hm)
    have hlow : asks.idOf level < asks.windowBase := lt_of_mem_take hm
    omega

/-! ## The best level

Since nothing is beyond the edge, the window holds the best level exactly when it holds any level.
So only a window that has emptied can miss it. -/

/-- The tick of the best level: the highest bid or the lowest ask. -/
def IsBest (b : SortedBook IsBid) (tick : Int) : Prop :=
  tick ∈ b.toMap ∧ ∀ t ∈ b.toMap, NoBetter IsBid t tick

/-- What the window is for: while there is a level, the best one is in a block of the window. -/
def WindowHoldsBest (b : SortedBook IsBid) : Prop :=
  b.toMap ≠ ∅ → 0 < b.windowBlocks ∧
    ∃ tick, b.IsBest tick ∧ ∃ i < WINDOW, ∃ level, b.window i = some level ∧
      b.idOf level = blockOf tick ∧ (b.blocks level).test (offsetOf tick) = true

theorem blockOf_mono {t u : Int} (h : t ≤ u) : blockOf t ≤ blockOf u := by
  rw [blockOf_eq, blockOf_eq]
  omega

theorem toMap_eq_empty_iff (h : Inv b) : b.toMap = ∅ ↔ b.members = [] := by
  constructor
  · intro hempty
    have hcard := card_blockIds h
    rw [hempty] at hcard
    exact List.length_eq_zero_iff.mp hcard.symm
  · exact toMap_of_members_nil

theorem exists_isBest (hne : b.toMap ≠ ∅) : ∃ tick, b.IsBest tick := by
  have hkeys : b.toMap.keys.Nonempty := by
    rw [Finset.nonempty_iff_ne_empty]
    intro hnil
    refine hne (Finmap.ext_lookup (fun t => ?_))
    rw [Finmap.lookup_empty, Finmap.lookup_eq_none, ← Finmap.mem_keys, hnil]
    exact Finset.notMem_empty t
  unfold IsBest NoBetter
  cases IsBid with
  | true =>
      obtain ⟨tick, hin, hmax⟩ := Finset.exists_max_image _ (fun t => t) hkeys
      exact ⟨tick, Finmap.mem_keys.mp hin, fun t ht => hmax t (Finmap.mem_keys.mpr ht)⟩
  | false =>
      obtain ⟨tick, hin, hmin⟩ := Finset.exists_min_image _ (fun t => t) hkeys
      exact ⟨tick, Finmap.mem_keys.mp hin, fun t ht => hmin t (Finmap.mem_keys.mpr ht)⟩

/-- With nothing beyond its edge, the window holds the best level when it holds any block. -/
theorem windowHoldsBest_iff (h : Inv b) (he : Edge b) :
    b.WindowHoldsBest ↔ (b.members ≠ [] → 0 < b.windowBlocks) := by
  have hempty := toMap_eq_empty_iff h
  constructor
  · intro hholds hm
    exact (hholds (fun hnil => hm (hempty.mp hnil))).1
  · intro hpos hne
    have hwindow := hpos (fun hnil => hne (hempty.mpr hnil))
    refine ⟨hwindow, ?_⟩
    obtain ⟨tick, hin, hbest⟩ := exists_isBest hne
    obtain ⟨s, hs⟩ := (mem_toMap h.layout).mp hin
    obtain ⟨level, hf, htest, _⟩ := (mem_located h.layout).mp hs
    obtain ⟨hm, hid⟩ := h.layout.findBlock_eq_some.mp hf
    -- some block of the window has a level, which is no better than the best one
    obtain ⟨other, hother⟩ : ∃ k, k ∈ occupied b.window WINDOW := by
      refine List.exists_mem_of_length_pos ?_
      have hlen := h.layout.windowBlocks_eq
      omega
    obtain ⟨i, hi, hw⟩ := mem_occupied.mp hother
    have hmother : other ∈ b.members := mem_members.mpr (Or.inl ⟨i, hi, hw⟩)
    have hidin : b.idOf other ∈ b.toMap.blockIds := by
      rw [blockIds_toMap h, List.mem_toFinset]
      exact List.mem_map.mpr ⟨other, hmother, rfl⟩
    rw [LevelMap.blockIds, Finset.mem_image] at hidin
    obtain ⟨t, ht, hblock⟩ := hidin
    have hle := hbest t (Finmap.mem_keys.mp ht)
    have hinside : b.inWindow (blockOf tick) := by
      by_contra hout
      have hedge := he.within level hm
      rw [hid] at hedge
      have hworse : Worse IsBid (blockOf tick) b.windowBase := (worse_iff b _).mpr ⟨hout, hedge⟩
      have hidx := h.layout.window_id i hi other hw
      unfold NoBetter at hle
      unfold Worse at hworse
      cases IsBid with
      | true =>
          have := blockOf_mono (show t ≤ tick from hle)
          simp only [if_true] at hworse
          omega
      | false =>
          have := blockOf_mono (show tick ≤ t from hle)
          simp only [Bool.false_eq_true, if_false] at hworse
          omega
    refine ⟨tick, ⟨hin, hbest⟩, b.windowIdx (blockOf tick), windowIdx_lt hinside, level, ?_,
      hid, htest⟩
    rw [← hid]
    exact h.layout.window_of_mem hm (hid ▸ hinside)

/-! ## The first level of an emptied book

A removal that empties the book leaves the window where it was. When the first level after that is
not inside, it lies on one of two sides, and only on the better one does the window follow. -/

/-- What the recentring takes for granted of a call: it does not put the first level of a book
that removals have emptied on the worse side of the window. -/
def Follows (b : SortedBook IsBid) : Call → Prop
  | .clear => True
  | .update price volume =>
      b.toMap = ∅ → b.centred = true → volume ≠ 0 →
        ¬ Worse IsBid (blockOf (toTick b.tickSize price)) b.windowBase

/-- Releasing a block leaves no block outside an empty window. -/
theorem windowBlocks_pos_releaseBlock {level : Nat} (h : Wf b) (hm : level ∈ b.members)
    (hne : (b.releaseBlock level).members ≠ []) : 0 < (b.releaseBlock level).windowBlocks := by
  set freed := b.freeBlock level with hfreed
  have hl : Layout freed := (layout_unplace h.layout hm).of_ids rfl rfl rfl rfl (fun _ _ => rfl)
  have hcount := hl.windowBlocks_eq
  unfold releaseBlock at hne ⊢
  dsimp only at hne ⊢
  rw [← hfreed] at hne ⊢
  cases hbest : freed.bestFallback with
  | some best =>
      simp only [hbest] at hne ⊢
      split
      · refine windowBlocks_pos_recentre hl (mem_members.mpr (Or.inr ?_))
        unfold bestFallback at hbest
        split at hbest
        · exact List.mem_of_getLast? hbest
        · exact List.mem_of_head? hbest
      · omega
  | none =>
      simp only [hbest] at hne ⊢
      have hnil : freed.fallback = [] := by
        unfold bestFallback at hbest
        split at hbest
        · exact List.getLast?_eq_none_iff.mp hbest
        · exact List.head?_eq_none_iff.mp hbest
      by_contra hzero
      refine hne ?_
      rw [members, hnil, hl.occupied_nil (by omega)]
      rfl

/-- A block acquired while the window is empty is in the window, unless it lies on the worse side
of a window that is centred. -/
theorem windowBlocks_acquireBlock {blockId : Int} {level : Nat} (h : Wf b)
    (hnew : b.findBlock blockId = none) (ha : b.acquireBlock blockId = some (c, level)) :
    0 < c.windowBlocks ↔
      0 < b.windowBlocks ∨ b.centred = false ∨ ¬ Worse IsBid blockId b.windowBase := by
  obtain ⟨rest, hfree, hc⟩ := acquireBlock_cases ha
  obtain ⟨-, hidtaken, -, -⟩ := takeBlock_spec h hfree hnew
  obtain ⟨hlp, hperm, hid⟩ := place_takeBlock_spec h hfree hnew
  set taken := b.takeBlock level rest blockId with htaken
  have hworse := worse_iff b blockId
  rcases hc with ⟨htrigger, rfl⟩ | ⟨⟨hcentred, hedge⟩, rfl⟩
  · -- recentring brings the best block into the window, and there is one
    have hpos := windowBlocks_pos_recentre hlp (hperm.mem_iff.mpr (List.mem_cons_self ..))
    rw [hid] at hpos
    refine iff_of_true hpos (Or.inr ?_)
    rcases htrigger with hc | hbeyond
    · exact Or.inl hc
    · refine Or.inr (fun hw => ?_)
      rw [(hworse.mp hw).2] at hbeyond
      cases hbeyond
  · have hnonneg := h.layout.windowBlocks_eq
    rw [hworse, hcentred, hedge]
    unfold place
    rw [hidtaken]
    by_cases hw : b.inWindow blockId
    · rw [if_pos (show taken.inWindow blockId from hw)]
      refine iff_of_true ?_ (Or.inr (Or.inr (fun hout => hout.1 hw)))
      show 0 < b.windowBlocks + 1
      omega
    · rw [if_neg (show ¬ taken.inWindow blockId from hw)]
      show 0 < b.windowBlocks ↔ _
      simp [hw]

theorem update_ne_empty (h : Inv b) (hempty : b.toMap = ∅) (price : Int) {volume : Int}
    (hv : volume ≠ 0) : (b.update price volume).1.toMap ≠ ∅ := by
  have hu := update_spec h price volume
  have hcard : b.toMap.keys.card < MAX_BLOCKS := by
    rw [hempty]
    decide
  have hok := hu.accepted.mpr (Or.inr (LevelMap.fits_of_card_lt hcard _))
  rw [hu.applied hok, LevelMap.setLevel, if_neg hv]
  intro hnil
  have hin : toTick b.tickSize price ∈ b.toMap.insert (toTick b.tickSize price) ⟨price, volume⟩ :=
    Finmap.mem_insert.mpr (Or.inl rfl)
  rw [hnil] at hin
  exact Finmap.notMem_empty hin

/-- The first level of an empty book. -/
theorem windowBlocks_update_of_empty (h : Inv b) (hempty : b.toMap = ∅) {price volume : Int}
    (hv : volume ≠ 0) :
    0 < (b.update price volume).1.windowBlocks ↔ b.Follows (.update price volume) := by
  have hnil := (toMap_eq_empty_iff h).mp hempty
  have hzero : b.windowBlocks = 0 := by
    rw [h.layout.windowBlocks_eq]
    rw [members, List.append_eq_nil_iff] at hnil
    rw [hnil.1]
    rfl
  have hnone : b.findBlock (blockOf (toTick b.tickSize price)) = none :=
    h.layout.findBlock_eq_none.mpr (fun level hm => by rw [hnil] at hm; cases hm)
  have hfilled := update_ne_empty h hempty price hv
  have hu := update_spec h price volume
  rcases update_cases b price volume with hsame | ⟨level, hv0, _⟩ | ⟨slot, hu'⟩ |
    ⟨c, level, _, hb, hu'⟩
  · rw [hsame] at hfilled
    exact absurd hempty hfilled
  · exact absurd hv0 hv
  · have hm : (b.update price volume).1.members = [] := by
      rw [hu']
      exact hnil
    exact absurd ((toMap_eq_empty_iff hu.inv).mpr hm) hfilled
  · rw [blockFor, hnone] at hb
    have hc := windowBlocks_acquireBlock h.toWf hnone hb
    have hcount := (addLevel_containers c level (offsetOf (toTick b.tickSize price)) price
      volume).2.2.2.1
    rw [hu', hcount, hc, hzero, Follows]
    cases hcentred : b.centred <;> simp [hempty, hv]

/-- Any other call keeps a block in the window. -/
theorem windowBlocks_update (h : Inv b) {price volume : Int}
    (hpos : b.members ≠ [] → 0 < b.windowBlocks) (hold : b.toMap ≠ ∅ ∨ volume = 0)
    (hne : (b.update price volume).1.members ≠ []) :
    0 < (b.update price volume).1.windowBlocks := by
  rcases update_cases b price volume with hsame | ⟨level, _, hat, hu⟩ | ⟨slot, hu⟩ |
    ⟨c, level, hv, hb, hu⟩
  · rw [hsame] at hne ⊢
    exact hpos hne
  · obtain ⟨hf, htest⟩ := levelAt_eq_some.mp hat
    have hm := (h.layout.findBlock_eq_some.mp hf).1
    rw [hu] at hne ⊢
    unfold removeLevel at hne ⊢
    dsimp only at hne ⊢
    split at hne
    · rw [if_pos ‹_›]
      exact windowBlocks_pos_releaseBlock (resetLevel_spec h hm (offsetOf_lt _) htest).1 hm hne
    · rw [if_neg ‹_›]
      exact hpos hne
  · rw [hu] at hne ⊢
    exact hpos hne
  · have hbpos : 0 < b.windowBlocks :=
      hpos (fun hnil => (hold.resolve_right hv) (toMap_of_members_nil hnil))
    rw [hu, (addLevel_containers c level _ price volume).2.2.2.1]
    unfold blockFor at hb
    cases hf : b.findBlock (blockOf (toTick b.tickSize price)) with
    | some found =>
        rw [hf] at hb
        obtain ⟨rfl, rfl⟩ := Prod.mk.inj (Option.some.inj hb)
        exact hbpos
    | none =>
        rw [hf] at hb
        exact (windowBlocks_acquireBlock h.toWf hf hb).mpr (Or.inl hbpos)

/-- **One call**: the window still holds the best level exactly when the recentring followed. -/
theorem windowHoldsBest_update_iff (h : Inv b) (he : Edge b) (hholds : b.WindowHoldsBest)
    (price volume : Int) :
    (b.update price volume).1.WindowHoldsBest ↔ b.Follows (.update price volume) := by
  have hu := update_spec h price volume
  have hpos := (windowHoldsBest_iff h he).mp hholds
  rw [windowHoldsBest_iff hu.inv (edge_update h he price volume)]
  by_cases hfirst : b.toMap = ∅ ∧ volume ≠ 0
  · obtain ⟨hempty, hv⟩ := hfirst
    have hne : (b.update price volume).1.members ≠ [] := fun hnil =>
      update_ne_empty h hempty _ hv ((toMap_eq_empty_iff hu.inv).mpr hnil)
    rw [← windowBlocks_update_of_empty h hempty hv]
    exact ⟨fun hw => hw hne, fun hw _ => hw⟩
  · have hold : b.toMap ≠ ∅ ∨ volume = 0 := by tauto
    refine iff_of_true (windowBlocks_update h hpos hold) (fun hempty _ hv => ?_)
    exact absurd ⟨hempty, hv⟩ hfirst

/-- The book after the calls. -/
abbrev bookAfter (IsBid : Bool) (slots : Nat → Nat → Nat) (tickSize : Int) (calls : List Call) :
    SortedBook IsBid := (replay IsBid slots tickSize calls).1

theorem windowHoldsBest_of_members_nil (hm : b.members = []) : b.WindowHoldsBest :=
  fun hne => absurd (toMap_of_members_nil hm) hne

theorem windowHoldsBest_append (slots : Nat → Nat → Nat) (tickSize : Int) (calls : List Call)
    (call : Call) (hholds : (bookAfter IsBid slots tickSize calls).WindowHoldsBest) :
    (bookAfter IsBid slots tickSize (calls ++ [call])).WindowHoldsBest ↔
      (bookAfter IsBid slots tickSize calls).Follows call := by
  have hinv := (replayed_replay IsBid slots tickSize calls).inv
  have hedge := edge_replay IsBid slots tickSize calls
  rw [bookAfter, replay, List.foldl_append, ← replay]
  cases call with
  | clear => exact iff_of_true (windowHoldsBest_of_members_nil (members_clear _)) trivial
  | update price volume => exact windowHoldsBest_update_iff hinv hedge hholds price volume

/-- **The window holds the best level as long as the recentring follows.** The window holds the
best level after every part of a history exactly when no call of the history puts the first level
of a book that removals have emptied on the worse side of the window. -/
theorem window_holds_best_iff (IsBid : Bool) (slots : Nat → Nat → Nat) (tickSize : Int)
    (calls : List Call) :
    (∀ done, done <+: calls → (bookAfter IsBid slots tickSize done).WindowHoldsBest) ↔
      ∀ done call, done ++ [call] <+: calls →
        (bookAfter IsBid slots tickSize done).Follows call := by
  induction calls using List.reverseRecOn with
  | nil =>
      refine iff_of_true (fun done hd => ?_) (fun done call hd => ?_)
      · rw [List.prefix_nil.mp hd]
        exact windowHoldsBest_of_members_nil (members_construct IsBid slots)
      · have := hd.length_le
        simp at this
  | append_singleton calls call ih =>
      constructor
      · intro hholds done next hd
        have hbefore := hholds done ((List.prefix_append _ _).trans hd)
        exact (windowHoldsBest_append slots tickSize done next hbefore).mp (hholds _ hd)
      · intro hfollows done hd
        have hearlier := ih.mpr (fun done next hd =>
          hfollows done next (hd.trans (List.prefix_append _ _)))
        rcases List.prefix_concat_iff.mp hd with rfl | hd
        · exact (windowHoldsBest_append slots tickSize calls call
            (hearlier calls (List.prefix_refl _))).mpr (hfollows calls call (List.prefix_refl _))
        · exact hearlier done hd

/-- A bid at tick 100000 comes and goes, and a bid at tick 10 follows: it is the only level, and
no block is in the window. -/
theorem window_misses_best :
    ¬ (bookAfter true (fun _ _ => 0) 1
      [.update 100000 1, .update 100000 0, .update 10 1]).WindowHoldsBest := by
  set book := bookAfter true (fun _ _ => 0) 1 [.update 100000 1, .update 100000 0, .update 10 1]
  have hinv : Inv book := (replayed_replay true _ 1 _).inv
  have hwindow : book.windowBlocks = 0 := by decide +kernel
  have hmembers : book.members ≠ [] := by decide +kernel
  intro hholds
  have hpos := (hholds (fun hempty => hmembers ((toMap_eq_empty_iff hinv).mp hempty))).1
  omega

end SortedBook

end AstraConnect.Orderbook
