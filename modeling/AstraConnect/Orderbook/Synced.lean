import AstraConnect.Orderbook.ExecutionLoop

set_option autoImplicit false

/-! # What a reader of a synced book sees

All reads take the lock that `applySnapshot` and `applyUpdate` hold, and are meant to see the book
between two events. `WholeEvents` states that; it fails for a book that is still called synced
after `applyUpdate` has given up in the middle of an event, since `synced` is cleared only by the
`resync` that follows.
-/

namespace AstraConnect.Orderbook

open Transition BookData

/-- The sides after a snapshot, from the buffer that holds it. -/
def snapshotSides (tickSize : Int) (o : OrderbookSnapshotIncoming) : Bool → LevelMap :=
  fun side => (∅ : LevelMap).tryLevels tickSize
    ((o.registered side).takeWhile (fun e => e.price ≠ 0))

/-- Both sides are exactly the last snapshot followed by complete events, the last of which ends
at `updateID`. -/
def WholeEvents (b : BookData) : Prop :=
  ∃ events : List DepthEvent, events.Sublist b.offered ∧
    events.getLast?.map DepthEvent.u = some b.updateID ∧
    b.sides = events.foldl (applyEvent b.bidBook.tickSize)
      (snapshotSides b.bidBook.tickSize b.orderbookSnapshot)

/-- Applying the event leaves no part of it behind: it has room for all of its levels, or the
levels in front of the first one without room change nothing. -/
def Clean (tickSize : Int) (m : Bool → LevelMap) (event : DepthEvent) : Prop :=
  EventFits tickSize m event ∨
    ∀ side, (m side).applyLevels tickSize (reached tickSize m event side) = m side

/-- The steps allowed: the inner loop gives only clean events to `applyUpdate`. -/
def CleanStep (s : State) (a : Act) : Prop :=
  a = .thread → ∀ e, s.pc = .applyInner e → Clean s.bidBook.tickSize s.sides e

/-! ## The rule's obligations -/

theorem pending_of_given {o : OrderbookSnapshotIncoming} (h : o.given = fun _ => 0) (side : Bool) :
    o.pending side = (o.registered side).takeWhile (fun e => e.price ≠ 0) := by
  rw [OrderbookSnapshotIncoming.pending, h, List.drop_zero]

/-- Nothing has been applied since the snapshot. -/
def FromSnapshot (b : BookData) : Prop :=
  b.offered = [] ∧ b.sides = snapshotSides b.bidBook.tickSize b.orderbookSnapshot

theorem fromSnapshot_applySnapshot {tickSize : Int} {b : BookData} (hr : Ready tickSize b)
    (hg : b.orderbookSnapshot.given = fun _ => 0) : FromSnapshot b.applySnapshot := by
  obtain ⟨hr', hs, hreg, _, _, hoff⟩ := applySnapshot_spec hr
  refine ⟨hoff, ?_⟩
  funext side
  rw [hs, snapshotSides, hreg, hr'.bid_tickSize, pending_of_given hg]

theorem wholeEvents_append {tickSize : Int} {b : BookData} {e : DepthEvent}
    {events : List DepthEvent} (hr : Ready tickSize b) (hsub : events.Sublist b.offered)
    (hsides : b.sides = events.foldl (applyEvent b.bidBook.tickSize)
      (snapshotSides b.bidBook.tickSize b.orderbookSnapshot))
    (hok : (b.applyUpdate e).2 = true) : WholeEvents (b.applyUpdate e).1 := by
  obtain ⟨hr', hs, hfits, hsnap, hid, hoff⟩ := applyUpdate_spec hr e
  have hfit := hfits.mp hok
  have htick : (b.applyUpdate e).1.bidBook.tickSize = b.bidBook.tickSize :=
    hr'.bid_tickSize.trans hr.bid_tickSize.symm
  refine ⟨events ++ [e], ?_, ?_, ?_⟩
  · rw [hoff]
    exact hsub.append (List.Sublist.refl [e])
  · rw [hid, hok]
    simp
  · rw [List.foldl_append, htick, hsnap, ← hsides]
    funext side
    rw [hs, reached_of_fits hfit side, hr.bid_tickSize]
    rfl

theorem wholeEvents_clean {tickSize : Int} {b : BookData} {e : DepthEvent}
    (hr : Ready tickSize b) (h : WholeEvents b) (hc : Clean b.bidBook.tickSize b.sides e)
    (hok : (b.applyUpdate e).2 = false) : WholeEvents (b.applyUpdate e).1 := by
  obtain ⟨hr', hs, hfits, hsnap, hid, hoff⟩ := applyUpdate_spec hr e
  obtain ⟨events, hsub, hlast, hsides⟩ := h
  have htick : (b.applyUpdate e).1.bidBook.tickSize = b.bidBook.tickSize :=
    hr'.bid_tickSize.trans hr.bid_tickSize.symm
  have hkeep : (b.applyUpdate e).1.sides = b.sides := by
    rw [hr.bid_tickSize] at hc
    rcases hc with hfit | hkeep
    · rw [hfits.mpr hfit] at hok
      cases hok
    · funext side
      rw [hs, hkeep side]
  refine ⟨events, ?_, ?_, ?_⟩
  · rw [hoff]
    exact hsub.trans (List.sublist_append_left _ _)
  · rw [hid, hok]
    exact hlast
  · rw [hkeep, htick, hsnap]
    exact hsides

/-- The rule for readers. -/
def readersRule : LoopRule CleanStep where
  tick _ := True
  event _ := True
  fetched o := o.given = fun _ => 0
  fresh := FromSnapshot
  aligned := WholeEvents
  ended := WholeEvents
  tick_ok _ _ _ _ := trivial
  event_ok _ _ _ := trivial
  fetched_ok _ r o _ := given_fetch o r
  snapshot _ _ _ hr hg := fromSnapshot_applySnapshot hr hg
  first _ _ _ _ hr hf _ _ _ hok :=
    wholeEvents_append hr (List.nil_sublist _) hf.2 hok
  inner _ s e hstep hc _ hr h _ _ := by
    refine ⟨fun hok => ?_, fun hok => wholeEvents_clean hr h (hstep rfl e hc) hok⟩
    obtain ⟨events, hsub, _, hsides⟩ := h
    exact wholeEvents_append hr hsub hsides hok
  aligned_ended _ h := h

/-- A run that gets in sync meets the condition. -/
theorem cleanStep_of_onTheWay {tickSize : Int} {r : DepthResponse} {e : DepthEvent} (s : State)
    (a : Act) (h : OnTheWay tickSize r e s a) : CleanStep s a := by
  rintro rfl e' he'
  rcases h with h | h | h | ⟨-, h⟩
  · cases h
  · cases h
  · cases h
  · exact absurd he' (h e')

/-- **A synced book shows whole events.** In every run in which the inner loop applies clean
events only, and whatever the interleaving, a book called synced is the last snapshot followed by
complete events up to `updateID`, whoever holds the lock. -/
theorem synced_wholeEvents {slots : Bool → Nat → Nat → Nat} {updateId : Int} {s : State}
    (h : Reach step CleanStep (construct slots updateId) s) (hs : s.synced = true) :
    WholeEvents s.toBookData :=
  LoopRule.PcInv.ended (R := readersRule) (LoopRule.reach readersRule h).pc hs

/-- One bid on top of an empty snapshot. -/
theorem synced_wholeEvents_oneBid :
    ∃ s, Reach step CleanStep (construct (fun _ _ _ => 0) 0) s ∧ s.synced = true ∧
      WholeEvents s.toBookData := by
  obtain ⟨s, hreach, _, _, hsync, _⟩ := reach_synced (fun _ _ _ => 0) 0 1 emptyResponse
    (e := ⟨0, fun side => if side then [⟨128, 1⟩] else [], 10, 10, 9⟩) (by decide) (by decide)
    (by decide) (applyUpdate_emptyResponse _ 0 (fun side => by
      cases side
      · rfl
      · exact LevelMap.fitting_of_card (by decide)))
  have hclean := hreach.mono cleanStep_of_onTheWay
  exact ⟨s, hclean, hsync, synced_wholeEvents hclean hsync⟩

/-! ## An event that does not fit

The counterexample needs a full side: 1024 bids in different blocks. They are given as a list of
which all that is needed can be said without going through it. -/

section partialEvent

/-- Bids of volume 1 in the blocks `1 … 1024`. -/
def fullBids : List Entry := (List.range MAX_BLOCKS).map (fun k : Nat => ⟨128 * ((k : Int) + 1), 1⟩)

/-- The event that fills the bids. -/
def fillingEvent : DepthEvent := ⟨0, fun side => if side then fullBids else [], 10, 10, 9⟩

/-- The event after it: a bid that is there gets another volume, and a new one needs a block. -/
def partialEvent : DepthEvent :=
  ⟨1, fun side => if side then [⟨128, 2⟩, ⟨128 * 1025, 1⟩] else [], 11, 11, 10⟩

theorem toTick_one {price : Int} (h : 0 < price) (h' : price < 2 ^ 63) :
    toTick 1 price = price := by
  have hmul : toTick 1 price * 1 = price := toTick_mul (by omega) ⟨h, one_dvd _, by omega⟩
  omega

theorem mem_fullBids {e : Entry} :
    e ∈ fullBids ↔ ∃ k : Nat, k < MAX_BLOCKS ∧ e = ⟨128 * ((k : Int) + 1), 1⟩ := by
  simp only [fullBids, List.mem_map, List.mem_range, eq_comm]

theorem toTick_fullBids {k : Nat} (hk : k < MAX_BLOCKS) :
    toTick 1 (128 * ((k : Int) + 1)) = ((k : Int) + 1) * 128 + (0 : Nat) := by
  have : MAX_BLOCKS = 1024 := rfl
  rw [toTick_one (by omega) (by norm_num; omega)]
  omega

/-- With `fullBids` every block is in use. -/
theorem blockIds_fullBids : ((∅ : LevelMap).applyLevels 1 fullBids).blockIds
    = (Finset.range MAX_BLOCKS).image (fun k : Nat => (k : Int) + 1) := by
  have hvol : ∀ e ∈ fullBids, e.volume ≠ 0 := by
    intro e he
    obtain ⟨k, _, rfl⟩ := mem_fullBids.mp he
    exact Int.one_ne_zero
  ext id
  rw [LevelMap.blockIds, LevelMap.keys_applyLevels hvol, Finset.mem_image, Finset.mem_image]
  constructor
  · rintro ⟨t, ht, rfl⟩
    rw [Finset.mem_union, List.mem_toFinset, List.mem_map] at ht
    rcases ht with ⟨e, he, rfl⟩ | ht
    · obtain ⟨k, hk, rfl⟩ := mem_fullBids.mp he
      refine ⟨k, Finset.mem_range.mpr hk, ?_⟩
      rw [toTick_fullBids hk, blockOf_add (by decide)]
    · simp at ht
  · rintro ⟨k, hk, rfl⟩
    have hk := Finset.mem_range.mp hk
    refine ⟨_, Finset.mem_union_left _ (List.mem_toFinset.mpr (List.mem_map.mpr
      ⟨_, mem_fullBids.mpr ⟨k, hk, rfl⟩, rfl⟩)), ?_⟩
    rw [toTick_fullBids hk, blockOf_add (by decide)]

theorem lookup_fullBids : ((∅ : LevelMap).applyLevels 1 fullBids).lookup 128 = some ⟨128, 1⟩ := by
  have htick : toTick 1 128 = 128 := toTick_one (by omega) (by norm_num)
  have huniq : ∀ e ∈ fullBids, toTick 1 e.price = toTick 1 128 → e = ⟨128, 1⟩ := by
    intro e he hte
    obtain ⟨k, hk, rfl⟩ := mem_fullBids.mp he
    rw [toTick_fullBids hk, htick] at hte
    obtain rfl : k = 0 := by omega
    rfl
  have hin : (⟨128, 1⟩ : Entry) ∈ fullBids := mem_fullBids.mpr ⟨0, by decide, rfl⟩
  have h := LevelMap.lookup_applyLevels_of_mem (m := ∅) (e := ⟨128, 1⟩) hin huniq
  rwa [htick] at h

/-- The first bid of `partialEvent` is applied, the second refused. -/
theorem fitting_partialEvent : ((∅ : LevelMap).applyLevels 1 fullBids).fitting 1
    (partialEvent.levels true) = [⟨128, 2⟩] := by
  obtain ⟨m, hm⟩ : ∃ m, m = (∅ : LevelMap).applyLevels 1 fullBids := ⟨_, rfl⟩
  rw [← hm]
  have htick : toTick 1 128 = 128 := toTick_one (by omega) (by norm_num)
  have htick' : toTick 1 (128 * 1025) = 1025 * 128 + (0 : Nat) :=
    toTick_one (by omega) (by norm_num)
  have hin : (128 : Int) ∈ m := by
    rw [← Finmap.lookup_isSome, hm, lookup_fullBids]
    rfl
  -- setting a level that is there changes no block
  have hblocks : (m.setLevel 128 128 2).blockIds = m.blockIds := by
    have hkeys : (m.setLevel 128 128 2).keys = m.keys := by
      ext t
      rw [LevelMap.setLevel, if_neg (by decide), Finmap.mem_keys, Finmap.mem_keys,
        Finmap.mem_insert]
      constructor
      · rintro (rfl | h)
        · exact hin
        · exact h
      · exact Or.inr
    rw [LevelMap.blockIds, hkeys, LevelMap.blockIds]
  have hfull : ¬ (m.setLevel 128 128 2).Accepts (toTick 1 (128 * 1025)) 1 := by
    rw [htick']
    rintro (h | h | ⟨_, h | h⟩)
    · cases h
    · rw [← Finmap.mem_keys] at h
      have hmem := Finset.mem_image_of_mem blockOf h
      rw [blockOf_add (by decide)] at hmem
      rw [← LevelMap.blockIds, hblocks, hm, blockIds_fullBids, Finset.mem_image] at hmem
      obtain ⟨k, hk, hk'⟩ := hmem
      have hk := Finset.mem_range.mp hk
      have : MAX_BLOCKS = 1024 := rfl
      omega
    · rw [blockOf_add (by decide), hblocks, hm, blockIds_fullBids, Finset.mem_image] at h
      obtain ⟨k, hk, hk'⟩ := h
      have hk := Finset.mem_range.mp hk
      have : MAX_BLOCKS = 1024 := rfl
      omega
    · rw [hblocks, hm, blockIds_fullBids, Finset.card_image_of_injective, Finset.card_range] at h
      · omega
      · intro i j hij
        simpa using hij
  show m.fitting 1 [⟨128, 2⟩, ⟨128 * 1025, 1⟩] = _
  have hacc : m.Accepts (toTick 1 128) 2 := Or.inr (Or.inl (by rw [htick]; exact hin))
  rw [LevelMap.fitting, if_pos hacc, LevelMap.fitting, if_neg]
  rw [LevelMap.applyLevel, htick]
  exact hfull

theorem fillingEvent_bids : fillingEvent.levels true = fullBids := by
  simp only [fillingEvent, if_true]

/-- `fillingEvent` fits an empty book. -/
theorem fillingEvent_fits {m : Bool → LevelMap} (h : ∀ side, m side = ∅) :
    EventFits 1 m fillingEvent := by
  intro side
  rw [h]
  cases side with
  | false => simp [fillingEvent, LevelMap.fitting]
  | true => exact LevelMap.fitting_of_card (by simp [fillingEvent, fullBids])

/-- A part of `partialEvent` is applied to a side that `fillingEvent` has filled, and shows. -/
theorem partialEvent_shows {b : BookData} (hr : Ready 1 b)
    (hs : b.sides true = (∅ : LevelMap).applyLevels 1 fullBids) :
    (b.applyUpdate partialEvent).2 = false ∧
      ((b.applyUpdate partialEvent).1.sides true).lookup 128 = some ⟨128, 2⟩ := by
  obtain ⟨_, hsides, hfits, _⟩ := applyUpdate_spec hr partialEvent
  have hfitting := fitting_partialEvent
  rw [← hs] at hfitting
  constructor
  · rw [Bool.eq_false_iff]
    intro ht
    have hall := hfits.mp ht true
    rw [hfitting] at hall
    cases hall
  · rw [hsides, reached, if_pos (Or.inl rfl), hfitting, LevelMap.applyLevels_cons,
      LevelMap.applyLevels, List.foldl_nil, LevelMap.applyLevel, LevelMap.lookup_setLevel,
      if_pos (toTick_one (by omega) (by norm_num)).symm]
    rfl

/-- An empty snapshot, the event that fills the bids and the one that does not fit: after them
the book is synced, no one holds the lock, and a part of the last event shows. -/
theorem reach_partialEvent (slots : Bool → Nat → Nat → Nat) (updateId : Int) :
    ∃ s, Reach step (fun _ _ => True) (construct slots updateId) s ∧
      s.updatingLock = none ∧ s.synced = true ∧ ¬ WholeEvents s.toBookData := by
  obtain ⟨hr, _, hreg, _, _, hoff⟩ :=
    applySnapshot_spec (ready_fetchedData slots updateId 1 emptyResponse)
  have hempty := sides_emptyResponse slots updateId
  obtain ⟨hr1, hs1, hok1, ho1, hid1, hoff1⟩ := applyUpdate_spec hr fillingEvent
  have hfits : EventFits 1 _ fillingEvent := fillingEvent_fits hempty
  have hok := hok1.mpr hfits
  obtain ⟨s, hreach, hdata, hpc, hsync, hlock, hbuf⟩ := reach_synced slots updateId 1
    emptyResponse (e := fillingEvent) (by decide) (by decide) (by decide) hok
  rw [← hdata] at hr1 hs1 ho1 hid1 hoff1
  have hbids : s.sides true = (∅ : LevelMap).applyLevels 1 fullBids := by
    rw [hs1, reached_of_fits hfits, hempty, fillingEvent_bids]
  have hid : s.updateID = partialEvent.pu := by
    rw [hid1, hok]
    rfl
  obtain ⟨hflag, hshows⟩ := partialEvent_shows hr1 hbids
  obtain ⟨hr2, _, _, ho2, hid2, hoff2⟩ := applyUpdate_spec hr1 partialEvent
  -- the second event arrives, is taken, and is applied in part
  have h1 : Reach step (fun _ _ => True) (construct slots updateId)
      { s with bufferOut := [some partialEvent], pc := .take .inner } := by
    refine ((hreach.mono (fun _ _ _ => trivial)).tail (a := .deliver (some partialEvent)) trivial
      rfl).tail (a := .thread) trivial ?_
    simp [step, State.threadStep, hpc, hbuf]
  have h2 : Reach step (fun _ _ => True) (construct slots updateId)
      { s with bufferOut := [], pc := .applyInner partialEvent } := by
    refine h1.tail (a := .thread) trivial ?_
    simp [step, State.threadStep, State.decideInner, hid]
  have h3 : Reach step (fun _ _ => True) (construct slots updateId)
      { s with
        toBookData := (s.toBookData.applyUpdate partialEvent).1
        bufferOut := []
        pc := .release partialEvent.slot (.inner (s.toBookData.applyUpdate partialEvent).2) } := by
    refine h2.tail (a := .thread) trivial ?_
    simp [step, State.threadStep, hlock]
  refine ⟨_, h3, hlock, hsync, ?_⟩
  -- the only event that ends at `updateID` is the first one, and the sides are not as it left them
  rintro ⟨events, hsub, hlast, hsides⟩
  dsimp only at hsub hlast hsides
  rw [hoff2, hoff1, hoff] at hsub
  rw [hid2, hflag, hid] at hlast
  have hevents : events = [fillingEvent] := by
    rcases List.sublist_append_iff.mp hsub with ⟨l1, l2, rfl, h1, h2⟩
    rcases List.sublist_singleton.mp h2 with rfl | rfl
    · rcases List.sublist_singleton.mp h1 with rfl | rfl
      · cases hlast
      · rfl
    · simp [partialEvent] at hlast
  rw [hevents, hr2.bid_tickSize, ho2, ho1] at hsides
  have hlook := congrArg (fun m => (m true).lookup 128) hsides
  dsimp only [List.foldl_cons, List.foldl_nil, applyEvent] at hlook
  rw [hshows, snapshotSides, hreg, fillingEvent_bids] at hlook
  exact absurd (hlook.trans lookup_fullBids) (by decide)

/-- Readers of a book called synced can see a part of an event. -/
theorem synced_partialEvent :
    ∃ s, Reach step (fun _ _ => True) (construct (fun _ _ _ => 0) 0) s ∧
      s.updatingLock = none ∧ s.synced = true ∧ ¬ WholeEvents s.toBookData :=
  reach_partialEvent (fun _ _ _ => 0) 0

end partialEvent

end AstraConnect.Orderbook
