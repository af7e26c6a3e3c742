import AstraConnect.Orderbook.ExecutionLoop

set_option autoImplicit false

/-! # Snapshot and stream together give the exchange's book

The exchange is a sequence of books indexed by update id. A genuine event lists what changed in a
range of ids, a genuine snapshot the best levels at one id. Whatever genuine events and snapshots
arrive, in any order and with any omissions, the id checks of `applyFirstUpdate` and of the inner
loop let an event through only when it continues from what the local book already has; so a book
that is in sync has every level of the exchange's book, except those the snapshot did not reach
and that have not changed since.
-/

namespace AstraConnect.Orderbook

open Transition BookData

/-! ## The exchange

The exchange is all that it can truthfully say: a book for each update id, with the events and
snapshots that describe parts of it. `Genuine` asks of the inputs of a run that they are such. -/

/-- The exchange's books: `book n side price` is the volume after the update `n`, 0 for no
level. -/
structure Exchange where
  tickSize : Int
  tickSize_pos : 0 < tickSize
  book : Int → Bool → Int → Int
  onGrid : ∀ n side price, book n side price ≠ 0 → OnGrid tickSize price

namespace Exchange

variable (E : Exchange)

/-- The volume at `price` changed at some id in `(a, c]`. -/
def Changed (a c : Int) (side : Bool) (price : Int) : Prop :=
  ∃ n, a < n ∧ n ≤ c ∧ E.book n side price ≠ E.book (n - 1) side price

/-- The event lists exactly the levels that changed in `(pu, u]`, with their volumes at `u`. -/
structure GenuineEvent (e : DepthEvent) : Prop where
  pu_lt : e.pu < e.U
  U_le : e.U ≤ e.u
  levels : ∀ side entry, entry ∈ e.levels side ↔
    E.Changed e.pu e.u side entry.price ∧ entry.volume = E.book e.u side entry.price

/-- Of two prices the first is the better one: the higher bid or the lower ask. -/
def Better (side : Bool) (p q : Int) : Prop := if side then q < p else p < q

/-- The most levels a snapshot has on one side. -/
def DEPTH : Nat := 1000

/-- The snapshot lists the best levels of its id, all of them if there are no more than
`DEPTH`. -/
structure GenuineSnapshot (r : DepthResponse) : Prop where
  nodup : ∀ side, ((r.levels side).map Entry.price).Nodup
  length_le : ∀ side, (r.levels side).length ≤ DEPTH
  listed : ∀ side, ∀ entry ∈ r.levels side,
    entry.volume = E.book r.lastUpdateId side entry.price ∧ entry.volume ≠ 0
  best : ∀ side price, E.book r.lastUpdateId side price ≠ 0 →
    (∀ entry ∈ r.levels side, entry.price ≠ price) →
    (r.levels side).length = DEPTH ∧ ∀ entry ∈ r.levels side, Better side entry.price price

/-- The steps of a run in which the exchange and the stream are genuine. -/
def Genuine (_ : State) : Act → Prop
  | .exchangeInfo (some tickSize) => tickSize = E.tickSize
  | .depthSnapshot (.success r) => E.GenuineSnapshot r
  | .deliver (some e) => E.GenuineEvent e
  | _ => True

variable {E}

theorem book_eq_of_not_changed {a c m : Int} {side : Bool} {price : Int}
    (h : ¬ E.Changed a c side price) (ham : a ≤ m) (hmc : m ≤ c) :
    E.book m side price = E.book c side price := by
  obtain ⟨k, rfl⟩ : ∃ k : Nat, c = m + k := ⟨(c - m).toNat, by omega⟩
  induction k with
  | zero => simp
  | succ k ih =>
      have hlast : E.book (m + (k + 1 : Nat)) side price = E.book (m + k) side price := by
        by_contra hne
        refine h ⟨m + (k + 1 : Nat), by omega, le_refl _, ?_⟩
        rwa [show m + (k + 1 : Nat) - 1 = m + k by omega]
      rw [hlast]
      refine ih (fun hc => h ?_) (by omega)
      obtain ⟨n, h1, h2, h3⟩ := hc
      exact ⟨n, h1, by omega, h3⟩

theorem Changed.onGrid {a c : Int} {side : Bool} {price : Int} (h : E.Changed a c side price) :
    OnGrid E.tickSize price := by
  obtain ⟨n, _, _, hne⟩ := h
  by_cases h0 : E.book n side price = 0
  · exact E.onGrid (n - 1) side price (fun h1 => hne (h0.trans h1.symm))
  · exact E.onGrid n side price h0

end Exchange

/-! ## What the local book owes the exchange

A snapshot has the best 1000 levels of a side at most. A level behind it is unknown until an event
changes it, and this is all that the local book may lack. -/

/-- The volume a reader finds at a price, 0 for no level. -/
def BookData.volumeAt (b : BookData) (isBid : Bool) (price : Int) : Int :=
  (b.getEntryWithPrice price ⟨0, 0⟩ isBid).2.volume

/-- The price lies behind a full snapshot. -/
def OutsideDepth (o : OrderbookSnapshotIncoming) (side : Bool) (price : Int) : Prop :=
  (o.registered side).length = Exchange.DEPTH ∧
    ∀ entry ∈ o.registered side, Exchange.Better side entry.price price

/-- Every price has the exchange's volume at `updateID`, or is missing because the last snapshot
did not reach it and it has not changed since. -/
def MatchesExchange (E : Exchange) (b : BookData) : Prop :=
  ∀ side price, OnGrid E.tickSize price →
    b.volumeAt side price = E.book b.updateID side price ∨
      (b.getEntryWithPrice price ⟨0, 0⟩ side).1 = false ∧
        OutsideDepth b.orderbookSnapshot side price ∧
        ¬ E.Changed b.orderbookSnapshot.updateId b.updateID side price

/-- The invariant: the same on the maps, and what it takes to keep it. -/
structure Tracks (E : Exchange) (b : BookData) : Prop where
  snapshot : E.GenuineSnapshot ⟨b.orderbookSnapshot.updateId, b.orderbookSnapshot.registered⟩
  id_le : b.orderbookSnapshot.updateId ≤ b.updateID
  levels : ∀ side price, OnGrid E.tickSize price →
    ((b.sides side).lookup (toTick E.tickSize price)
        = if E.book b.updateID side price = 0 then none
          else some ⟨price, E.book b.updateID side price⟩) ∨
      (b.sides side).lookup (toTick E.tickSize price) = none ∧
        (∀ entry ∈ b.orderbookSnapshot.registered side, entry.price ≠ price) ∧
        ¬ E.Changed b.orderbookSnapshot.updateId b.updateID side price

/-- A book that tracks the exchange matches it for a reader. -/
theorem Tracks.matchesExchange {E : Exchange} {b : BookData} (h : Tracks E b)
    (hr : Ready E.tickSize b) : MatchesExchange E b := by
  intro side price hgrid
  have hfind : b.getEntryWithPrice price ⟨0, 0⟩ side
      = SortedBook.found ⟨0, 0⟩ ((b.sides side).lookup (toTick E.tickSize price)) := by
    cases side with
    | true => rw [← hr.bid_tickSize]; exact SortedBook.find_eq hr.bid.layout price ⟨0, 0⟩
    | false => rw [← hr.ask_tickSize]; exact SortedBook.find_eq hr.ask.layout price ⟨0, 0⟩
  rcases h.levels side price hgrid with hlook | ⟨hnone, hunlisted, hsame⟩
  · left
    rw [volumeAt, hfind, hlook]
    by_cases h0 : E.book b.updateID side price = 0
    · rw [if_pos h0, h0]
      rfl
    · rw [if_neg h0]
      rfl
  · have hbook : E.book b.orderbookSnapshot.updateId side price = E.book b.updateID side price :=
      Exchange.book_eq_of_not_changed hsame (le_refl _) h.id_le
    by_cases h0 : E.book b.updateID side price = 0
    · left
      rw [volumeAt, hfind, hnone, h0]
      rfl
    · right
      refine ⟨by rw [hfind, hnone]; rfl, ?_, hsame⟩
      exact h.snapshot.best side price (by rw [hbook]; exact h0) hunlisted

/-! ## The rule's obligations

One for each of the three sections of the loop. An event is applied only when its ids continue from
those of the book, and then every level that has changed in between is in it. -/

/-- **An event that continues the book** keeps it in step with the exchange. -/
theorem tracks_applyUpdate {E : Exchange} {b : BookData} {e : DepthEvent}
    (hr : Ready E.tickSize b) (h : Tracks E b) (he : E.GenuineEvent e) (hpu : e.pu ≤ b.updateID)
    (hu : b.updateID ≤ e.u) (hok : (b.applyUpdate e).2 = true) :
    Tracks E (b.applyUpdate e).1 := by
  obtain ⟨_, hs, hfits, hsnap, hid, _⟩ := applyUpdate_spec hr e
  rw [hok, if_pos rfl] at hid
  refine ⟨by rw [hsnap]; exact h.snapshot, by rw [hsnap, hid]; exact h.id_le.trans hu, ?_⟩
  intro side price hgrid
  rw [hs, reached_of_fits (hfits.mp hok), hsnap, hid]
  -- on the grid, a level of the event at the tick of `price` has that price
  have hprice : ∀ entry ∈ e.levels side,
      toTick E.tickSize entry.price = toTick E.tickSize price → entry.price = price := by
    intro entry hin htick
    exact toTick_inj E.tickSize_pos ((he.levels side entry).mp hin).1.onGrid hgrid htick
  by_cases hch : E.Changed e.pu e.u side price
  · left
    have hin : (⟨price, E.book e.u side price⟩ : Entry) ∈ e.levels side :=
      (he.levels side _).mpr ⟨hch, rfl⟩
    have huniq : ∀ entry ∈ e.levels side, toTick E.tickSize entry.price = toTick E.tickSize price →
        entry = ⟨price, E.book e.u side price⟩ := by
      intro entry hin' htick
      have hp := hprice entry hin' htick
      have hv := ((he.levels side entry).mp hin').2
      cases entry
      simp_all
    exact LevelMap.lookup_applyLevels_of_mem (e := ⟨price, E.book e.u side price⟩) hin huniq
  · have hkeep : ∀ entry ∈ e.levels side, toTick E.tickSize entry.price
        ≠ toTick E.tickSize price := by
      intro entry hin htick
      exact hch (hprice entry hin htick ▸ ((he.levels side entry).mp hin).1)
    rw [LevelMap.lookup_applyLevels_of_forall_ne hkeep]
    have hbook : E.book b.updateID side price = E.book e.u side price :=
      Exchange.book_eq_of_not_changed hch hpu hu
    rcases h.levels side price hgrid with hlook | ⟨hnone, hunlisted, hsame⟩
    · left
      rw [hlook, hbook]
    · right
      refine ⟨hnone, hunlisted, ?_⟩
      rintro ⟨n, h1, h2, h3⟩
      by_cases hn : n ≤ b.updateID
      · exact hsame ⟨n, h1, hn, h3⟩
      · exact hch ⟨n, by omega, h2, h3⟩

/-- A genuine snapshot fits and is taken over as it is. -/
theorem tracks_applySnapshot {E : Exchange} {b : BookData} (hr : Ready E.tickSize b)
    (hg : b.orderbookSnapshot.given = fun _ => 0)
    (h : E.GenuineSnapshot ⟨b.orderbookSnapshot.updateId, b.orderbookSnapshot.registered⟩) :
    Tracks E b.applySnapshot := by
  obtain ⟨_, hs, hreg, huid, hid, _⟩ := applySnapshot_spec hr
  have hprice : ∀ side, ∀ entry ∈ b.orderbookSnapshot.registered side,
      OnGrid E.tickSize entry.price := by
    intro side entry hin
    obtain ⟨hv, h0⟩ := h.listed side entry hin
    exact E.onGrid _ side _ (hv ▸ h0)
  have hpend : ∀ side, b.orderbookSnapshot.pending side = b.orderbookSnapshot.registered side := by
    intro side
    rw [OrderbookSnapshotIncoming.pending, hg, List.drop_zero, List.takeWhile_eq_self_iff]
    intro entry hin
    have := (hprice side entry hin).1
    simp only [decide_eq_true_eq]
    omega
  have hfit : ∀ side, (∅ : LevelMap).fitting E.tickSize (b.orderbookSnapshot.registered side)
      = b.orderbookSnapshot.registered side := by
    intro side
    refine LevelMap.fitting_of_card ?_
    have hlen : (b.orderbookSnapshot.registered side).length ≤ Exchange.DEPTH := h.length_le side
    have hle : Exchange.DEPTH ≤ MAX_BLOCKS := by decide
    rw [Finmap.keys_empty, Finset.card_empty, Nat.zero_add]
    exact hlen.trans hle
  refine ⟨by rw [hreg, huid]; exact h, by rw [huid, hid], ?_⟩
  intro side price hgrid
  rw [hs, hpend, LevelMap.tryLevels_of_fitting (hfit side), hreg, huid, hid]
  -- a listed price has the volume listed; of the others nothing is known yet
  by_cases hin : ∃ entry ∈ b.orderbookSnapshot.registered side, entry.price = price
  · left
    obtain ⟨entry, hin, rfl⟩ := hin
    obtain ⟨hv, h0⟩ := h.listed side entry hin
    rw [LevelMap.lookup_applyLevels_of_mem hin, ← hv]
    intro entry' hin' htick
    have hp := toTick_inj E.tickSize_pos (hprice side entry' hin') hgrid htick
    exact List.inj_on_of_nodup_map (h.nodup side) hin' hin hp
  · right
    have hun : ∀ entry ∈ b.orderbookSnapshot.registered side, entry.price ≠ price :=
      fun entry hentry hp => hin ⟨entry, hentry, hp⟩
    refine ⟨?_, hun, ?_⟩
    · rw [LevelMap.lookup_applyLevels_of_forall_ne, Finmap.lookup_empty]
      intro entry hentry htick
      exact hun entry hentry (toTick_inj E.tickSize_pos (hprice side entry hentry) hgrid htick)
    · rintro ⟨n, h1, h2, _⟩
      omega

theorem genuineSnapshot_fetch {E : Exchange} {r : DepthResponse} (h : E.GenuineSnapshot r)
    (o : OrderbookSnapshotIncoming) :
    E.GenuineSnapshot ⟨(fetchOrderbookSnapshot o (.success r)).1.updateId,
      (fetchOrderbookSnapshot o (.success r)).1.registered⟩ := by
  have hle : Exchange.DEPTH ≤ OrderbookSnapshotIncoming.CAPACITY := by decide
  rw [updateId_fetch, registered_fetch o (fun side => (h.length_le side).trans hle)]
  exact h

/-- The rule for a genuine exchange. -/
def exchangeRule (E : Exchange) : LoopRule E.Genuine where
  tick tickSize := tickSize = E.tickSize
  event := E.GenuineEvent
  fetched o := o.given = (fun _ => 0) ∧ E.GenuineSnapshot ⟨o.updateId, o.registered⟩
  fresh := Tracks E
  aligned := Tracks E
  ended _ := True
  tick_ok _ _ h _ := h
  event_ok _ _ h := h
  fetched_ok _ r o h := ⟨given_fetch o r, genuineSnapshot_fetch h o⟩
  snapshot := by
    rintro _ b rfl hr ⟨hg, hs⟩
    exact tracks_applySnapshot hr hg hs
  first := by
    rintro _ b e rfl hr h he hu hU hok
    -- the event starts before the snapshot's id: `pu < U ≤ updateID`
    exact tracks_applyUpdate hr h he (he.pu_lt.le.trans hU) hu hok
  inner := by
    rintro _ s e _ _ rfl hr h he hpu
    refine ⟨fun hok => tracks_applyUpdate hr h he hpu.le ?_ hok, fun _ => trivial⟩
    exact hpu ▸ (he.pu_lt.trans_le he.U_le).le
  aligned_ended _ _ := trivial

/-- **The local book is the exchange's book.** In every run with a genuine exchange, from the
moment `applyFirstUpdate` returns true until an event is not applied, so also after each event the
inner loop applies, every price has the volume it has at the exchange after `updateID`. A level
can only be missing if the last snapshot did not reach it and it has not changed since. -/
theorem inSync_matchesExchange (E : Exchange) {slots : Bool → Nat → Nat → Nat} {updateId : Int}
    {s : State} (h : Reach step E.Genuine (construct slots updateId) s)
    (hs : s.pc.inSync = true) : MatchesExchange E s.toBookData := by
  obtain ⟨⟨_, rfl, hr⟩, htracks⟩ :=
    LoopRule.PcInv.aligned (LoopRule.reach (exchangeRule E) h).pc hs
  exact htracks.matchesExchange hr

/-- An exchange with one bid, of volume 7 at price 5 from the update 11 on. -/
def oneBidExchange : Exchange where
  tickSize := 1
  tickSize_pos := by decide
  book n side price := if side = true ∧ price = 5 ∧ 11 ≤ n then 7 else 0
  onGrid n side price h := by
    have hp : price = 5 := by
      by_contra hne
      exact h (if_neg (fun hc => hne hc.2.1))
    subst hp
    exact ⟨by decide, one_dvd _, by decide⟩

/-- The event in which the bid arrives. -/
def oneBidEvent (slot : Int) : DepthEvent :=
  ⟨slot, fun side => if side then [⟨5, 7⟩] else [], 11, 10, 9⟩

theorem genuineEvent_oneBid (slot : Int) : oneBidExchange.GenuineEvent (oneBidEvent slot) := by
  refine ⟨show (9 : Int) < 10 by decide, show (10 : Int) ≤ 11 by decide, ?_⟩
  rintro side ⟨price, volume⟩
  -- nothing but the bid at 5 ever changes
  by_cases hbid : side = true ∧ price = 5
  · obtain ⟨rfl, rfl⟩ := hbid
    have hch : oneBidExchange.Changed 9 11 true 5 := ⟨11, by decide, by decide, by decide⟩
    constructor
    · intro hin
      obtain rfl : volume = 7 := by simpa [oneBidEvent] using hin
      exact ⟨hch, rfl⟩
    · rintro ⟨_, hv⟩
      obtain rfl : volume = 7 := hv
      simp [oneBidEvent]
  · have hzero : ∀ n, oneBidExchange.book n side price = 0 :=
      fun n => if_neg (fun hc => hbid ⟨hc.1, hc.2.1⟩)
    constructor
    · intro hin
      cases side with
      | false => simp [oneBidEvent] at hin
      | true =>
          have hp : price = 5 := by
            have := List.mem_singleton.mp hin
            simpa using congrArg Entry.price this
          exact absurd ⟨rfl, hp⟩ hbid
    · rintro ⟨⟨n, _, _, hne⟩, _⟩
      exact absurd ((hzero n).trans (hzero (n - 1)).symm) hne

/-- The book is empty before. -/
theorem genuineSnapshot_emptyResponse : oneBidExchange.GenuineSnapshot emptyResponse := by
  refine ⟨fun _ => List.nodup_nil, fun _ => Nat.zero_le _, fun _ _ h => (by cases h), ?_⟩
  intro side price h
  exact absurd (if_neg (fun hc => absurd hc.2.2 (by decide))) h

theorem applyUpdate_oneBid (slots : Bool → Nat → Nat → Nat) (updateId slot : Int) :
    ((fetchedData slots updateId 1 emptyResponse).applySnapshot.applyUpdate
      (oneBidEvent slot)).2 = true := by
  refine applyUpdate_emptyResponse slots updateId (fun side => ?_)
  cases side
  · rfl
  · apply LevelMap.fitting_of_card
    show 0 + 1 ≤ MAX_BLOCKS
    decide

/-- The bid arrives with an event that straddles the empty snapshot. -/
theorem inSync_matchesExchange_oneBid :
    ∃ s, Reach step oneBidExchange.Genuine (construct (fun _ _ _ => 0) 0) s ∧
      s.pc.inSync = true ∧ MatchesExchange oneBidExchange s.toBookData := by
  obtain ⟨s, hreach, _, hpc, _⟩ := reach_synced (fun _ _ _ => 0) 0 1 emptyResponse
    (e := oneBidEvent 0) (by decide) (by decide) (by decide) (applyUpdate_oneBid _ 0 0)
  have hgen : Reach step oneBidExchange.Genuine (construct (fun _ _ _ => 0) 0) s := by
    refine hreach.mono ?_
    rintro s a (rfl | rfl | rfl | ⟨rfl, -⟩)
    · rfl
    · exact genuineSnapshot_emptyResponse
    · exact genuineEvent_oneBid 0
    · trivial
  have hin : s.pc.inSync = true := by rw [hpc]; rfl
  exact ⟨s, hgen, hin, inSync_matchesExchange oneBidExchange hgen hin⟩

end AstraConnect.Orderbook
