import AstraConnect.Orderbook.SortedBookRefinement
import AstraConnect.Orderbook.Orderbook

set_option autoImplicit false

/-! # What a snapshot and an event do to the two sides

`sides` are the two maps the books stand for. `applySnapshot` leaves the levels of the buffer that
have room, `applyUpdate` applies a whole event when every level of it fits and otherwise the
levels in front of the first one that does not.
-/

namespace AstraConnect.Orderbook

/-- An event with room for all of its levels, applied to both sides. -/
def applyEvent (tickSize : Int) (m : Bool → LevelMap) (event : DepthEvent) : Bool → LevelMap :=
  fun side => (m side).applyLevels tickSize (event.levels side)

/-- The levels of `side` that `applyUpdate` gets to: the asks only when every bid fits. -/
def reached (tickSize : Int) (m : Bool → LevelMap) (event : DepthEvent) (side : Bool) :
    List Entry :=
  if side = true ∨ (m true).fitting tickSize (event.levels true) = event.levels true then
    (m side).fitting tickSize (event.levels side)
  else []

/-- Every level of the event has room. -/
def EventFits (tickSize : Int) (m : Bool → LevelMap) (event : DepthEvent) : Prop :=
  ∀ side, (m side).fitting tickSize (event.levels side) = event.levels side

namespace OrderbookSnapshotIncoming

/-- What `getEntry` still gives before an entry with price 0. -/
def pending (o : OrderbookSnapshotIncoming) (isBid : Bool) : List Entry :=
  ((o.registered isBid).drop (o.given isBid)).takeWhile (fun e => e.price ≠ 0)

end OrderbookSnapshotIncoming

namespace BookData

open OrderbookSnapshotIncoming

def sides (b : BookData) : Bool → LevelMap
  | true => b.bidBook.toMap
  | false => b.askBook.toMap

/-- Both books are intact and have the tick size. -/
structure Ready (tickSize : Int) (b : BookData) : Prop where
  bid : b.bidBook.Inv
  ask : b.askBook.Inv
  bid_tickSize : b.bidBook.tickSize = tickSize
  ask_tickSize : b.askBook.tickSize = tickSize

/-- Nothing but the books differs. -/
structure SameRest (b c : BookData) : Prop where
  orderbookSnapshot : c.orderbookSnapshot = b.orderbookSnapshot
  updateID : c.updateID = b.updateID
  offered : c.offered = b.offered

variable {tickSize : Int}

/-- **One level**, with its result. -/
theorem processEntry_spec {b : BookData} (h : Ready tickSize b) (e : Entry) (isBid : Bool) :
    Ready tickSize (b.processEntry e isBid).1 ∧
      (b.processEntry e isBid).1.sides
        = Function.update b.sides isBid ((b.sides isBid).tryLevel tickSize e) ∧
      ((b.processEntry e isBid).2 = true ↔
        (b.sides isBid).Accepts (toTick tickSize e.price) e.volume) ∧
      SameRest b (b.processEntry e isBid).1 := by
  cases isBid with
  | true =>
      have hu := SortedBook.update_spec h.bid e.price e.volume
      have hmap := SortedBook.toMap_update h.bid e
      have hacc := hu.accepted
      rw [h.bid_tickSize] at hmap hacc
      refine ⟨⟨hu.inv, h.ask, hu.tickSize.trans h.bid_tickSize, h.ask_tickSize⟩, ?_, hacc,
        ⟨rfl, rfl, rfl⟩⟩
      funext side
      cases side with
      | false => rfl
      | true => exact hmap
  | false =>
      have hu := SortedBook.update_spec h.ask e.price e.volume
      have hmap := SortedBook.toMap_update h.ask e
      have hacc := hu.accepted
      rw [h.ask_tickSize] at hmap hacc
      refine ⟨⟨h.bid, hu.inv, h.bid_tickSize, hu.tickSize.trans h.ask_tickSize⟩, ?_, hacc,
        ⟨rfl, rfl, rfl⟩⟩
      funext side
      cases side with
      | false => exact hmap
      | true => rfl

/-- **A list of levels**: those that fit are applied, and the flag says whether all did. -/
theorem processEntries_spec (isBid : Bool) (l : List Entry) {b : BookData}
    (h : Ready tickSize b) :
    Ready tickSize (b.processEntries isBid l).1 ∧
      (b.processEntries isBid l).1.sides = Function.update b.sides isBid
        ((b.sides isBid).applyLevels tickSize ((b.sides isBid).fitting tickSize l)) ∧
      ((b.processEntries isBid l).2 = true ↔ (b.sides isBid).fitting tickSize l = l) ∧
      SameRest b (b.processEntries isBid l).1 := by
  induction l generalizing b with
  | nil =>
      refine ⟨h, ?_, iff_of_true rfl rfl, ⟨rfl, rfl, rfl⟩⟩
      exact (Function.update_eq_self isBid b.sides).symm
  | cons e l ih =>
      obtain ⟨hr, hs, hok, hrest⟩ := processEntry_spec h e isBid
      rw [processEntries]
      by_cases hacc : (b.sides isBid).Accepts (toTick tickSize e.price) e.volume
      · have hs' : (b.processEntry e isBid).1.sides isBid
            = (b.sides isBid).applyLevel tickSize e := by
          rw [hs, Function.update_self, LevelMap.tryLevel, if_pos hacc]
        obtain ⟨hr2, hs2, hok2, hrest2⟩ := ih hr
        rw [if_pos (hok.mpr hacc), LevelMap.fitting, if_pos hacc]
        refine ⟨hr2, ?_, ?_, ⟨hrest2.orderbookSnapshot.trans hrest.orderbookSnapshot,
          hrest2.updateID.trans hrest.updateID, hrest2.offered.trans hrest.offered⟩⟩
        · rw [hs2, hs', hs, Function.update_idem, LevelMap.applyLevels_cons]
        · rw [hok2, hs', List.cons.injEq]
          exact (and_iff_right rfl).symm
      · rw [if_neg (fun ht => hacc (hok.mp ht)), LevelMap.fitting, if_neg hacc]
        refine ⟨hr, ?_, iff_of_false Bool.false_ne_true (by simp), hrest⟩
        rw [hs, LevelMap.tryLevel, if_neg hacc]
        rfl

/-- **`applyUpdate` applies the levels it gets to**, and the flag says whether these are all. -/
theorem applyUpdate_spec {b : BookData} (h : Ready tickSize b) (event : DepthEvent) :
    Ready tickSize (b.applyUpdate event).1 ∧
      (∀ side, (b.applyUpdate event).1.sides side
        = (b.sides side).applyLevels tickSize (reached tickSize b.sides event side)) ∧
      ((b.applyUpdate event).2 = true ↔ EventFits tickSize b.sides event) ∧
      (b.applyUpdate event).1.orderbookSnapshot = b.orderbookSnapshot ∧
      (b.applyUpdate event).1.updateID
        = (if (b.applyUpdate event).2 then event.u else b.updateID) ∧
      (b.applyUpdate event).1.offered = b.offered ++ [event] := by
  set logged : BookData := { b with offered := b.offered ++ [event] } with hlogged
  have hl : Ready tickSize logged := ⟨h.bid, h.ask, h.bid_tickSize, h.ask_tickSize⟩
  have hls : logged.sides = b.sides := by
    funext side
    cases side <;> rfl
  obtain ⟨hr1, hs1, hok1, hrest1⟩ := processEntries_spec true (event.levels true) hl
  obtain ⟨hr2, hs2, hok2, hrest2⟩ := processEntries_spec false (event.levels false) hr1
  rw [hls] at hs1 hok1
  rw [hs1, Function.update_of_ne (by decide)] at hs2 hok2
  have hdef : b.applyUpdate event =
      if (logged.processEntries true (event.levels true)).2 then
        if ((logged.processEntries true (event.levels true)).1.processEntries false
            (event.levels false)).2 then
          ({ ((logged.processEntries true (event.levels true)).1.processEntries false
              (event.levels false)).1 with updateID := event.u }, true)
        else (((logged.processEntries true (event.levels true)).1.processEntries false
            (event.levels false)).1, false)
      else ((logged.processEntries true (event.levels true)).1, false) := rfl
  rw [hdef]
  -- the asks are reached only when all bids have been taken
  by_cases hb : (b.sides true).fitting tickSize (event.levels true) = event.levels true
  · have hsides : ∀ side, ((logged.processEntries true (event.levels true)).1.processEntries false
        (event.levels false)).1.sides side
          = (b.sides side).applyLevels tickSize (reached tickSize b.sides event side) := by
      intro side
      rw [hs2]
      cases side <;> simp [reached, hb, Function.update_of_ne]
    rw [if_pos (hok1.mpr hb)]
    by_cases ha : (b.sides false).fitting tickSize (event.levels false) = event.levels false
    · rw [if_pos (hok2.mpr ha)]
      refine ⟨⟨hr2.bid, hr2.ask, hr2.bid_tickSize, hr2.ask_tickSize⟩, ?_, ?_, ?_, rfl, ?_⟩
      · intro side
        rw [← hsides side]
        cases side <;> rfl
      · refine iff_of_true rfl (fun side => ?_)
        cases side with
        | true => exact hb
        | false => exact ha
      · exact hrest2.orderbookSnapshot.trans hrest1.orderbookSnapshot
      · exact hrest2.offered.trans hrest1.offered
    · rw [if_neg (fun ht => ha (hok2.mp ht))]
      refine ⟨hr2, hsides, iff_of_false Bool.false_ne_true (fun hall => ha (hall false)),
        hrest2.orderbookSnapshot.trans hrest1.orderbookSnapshot, ?_,
        hrest2.offered.trans hrest1.offered⟩
      exact hrest2.updateID.trans hrest1.updateID
  · rw [if_neg (fun ht => hb (hok1.mp ht))]
    refine ⟨hr1, ?_, iff_of_false Bool.false_ne_true (fun hall => hb (hall true)),
      hrest1.orderbookSnapshot, hrest1.updateID, hrest1.offered⟩
    intro side
    rw [hs1]
    cases side <;> simp [reached, hb, LevelMap.applyLevels]

/-- An event that fits is applied as a whole. -/
theorem reached_of_fits {m : Bool → LevelMap} {event : DepthEvent}
    (h : EventFits tickSize m event) (side : Bool) :
    reached tickSize m event side = event.levels side := by
  rw [reached, if_pos (Or.inr (h true)), h side]

/-! ## Snapshots

A loop of `applySnapshot` takes entries until one has the price 0, which is also what the buffer
gives when it is empty. So what it applies is what stands in front of the first such entry. -/

/-- Draining one side of the buffer applies what is pending there, as far as it fits. -/
theorem drainSnapshot_spec (isBid : Bool) {b : BookData} (h : Ready tickSize b) :
    Ready tickSize (b.drainSnapshot isBid) ∧
      (b.drainSnapshot isBid).sides = Function.update b.sides isBid
        ((b.sides isBid).tryLevels tickSize (b.orderbookSnapshot.pending isBid)) ∧
      (b.drainSnapshot isBid).orderbookSnapshot.registered = b.orderbookSnapshot.registered ∧
      (b.drainSnapshot isBid).orderbookSnapshot.updateId = b.orderbookSnapshot.updateId ∧
      (∀ side ≠ isBid, (b.drainSnapshot isBid).orderbookSnapshot.given side
        = b.orderbookSnapshot.given side) ∧
      (b.drainSnapshot isBid).offered = b.offered := by
  -- each entry that is given leaves one less, so the recursion ends
  induction hn : b.orderbookSnapshot.left isBid using Nat.strong_induction_on generalizing b with
  | _ n ih =>
      rw [drainSnapshot]
      set o := b.orderbookSnapshot with ho
      cases hget : (o.registered isBid)[o.given isBid]? with
      | none =>
          have hentry : o.getEntry isBid = (⟨0, 0⟩, o) := by rw [getEntry, hget]
          have hpend : o.pending isBid = [] := by
            rw [pending, List.drop_eq_nil_of_le (List.getElem?_eq_none_iff.mp hget)]
            rfl
          rw [hentry, dif_pos rfl, hpend]
          refine ⟨⟨h.bid, h.ask, h.bid_tickSize, h.ask_tickSize⟩, ?_, rfl, rfl,
            fun _ _ => rfl, rfl⟩
          refine Eq.trans ?_ (Function.update_eq_self isBid b.sides).symm
          funext side
          cases side <;> rfl
      | some e =>
          obtain ⟨hlt, hval⟩ := List.getElem?_eq_some_iff.mp hget
          set o' : OrderbookSnapshotIncoming :=
            { o with given := Function.update o.given isBid (o.given isBid + 1) } with ho'
          have hentry : o.getEntry isBid = (e, o') := by rw [getEntry, hget]
          have hdrop : (o.registered isBid).drop (o.given isBid)
              = e :: (o.registered isBid).drop (o.given isBid + 1) := by
            rw [List.drop_eq_getElem_cons hlt, hval]
          rw [hentry]
          dsimp only
          -- a price of 0 is how `getEntry` says that there is no entry left
          by_cases hp : e.price = 0
          · have hpend : o.pending isBid = [] := by
              rw [pending, hdrop, List.takeWhile_cons_of_neg (by simp [hp])]
            rw [dif_pos hp, hpend]
            refine ⟨⟨h.bid, h.ask, h.bid_tickSize, h.ask_tickSize⟩, ?_, rfl, rfl, ?_, rfl⟩
            · refine Eq.trans ?_ (Function.update_eq_self isBid b.sides).symm
              funext side
              cases side <;> rfl
            · intro side hside
              exact Function.update_of_ne hside _ _
          · rw [dif_neg hp]
            set c : BookData := { b with orderbookSnapshot := o' } with hc
            have hcr : Ready tickSize c := ⟨h.bid, h.ask, h.bid_tickSize, h.ask_tickSize⟩
            have hcs : c.sides = b.sides := by
              funext side
              cases side <;> rfl
            obtain ⟨hr, hs, _, hrest⟩ := processEntry_spec hcr e isBid
            have hsnap : (c.processEntry e isBid).1.orderbookSnapshot = o' :=
              hrest.orderbookSnapshot
            have hgiven : o'.given isBid = o.given isBid + 1 := Function.update_self _ _ _
            have hleft : o'.left isBid < n := by
              rw [← hn, left, left, hgiven]
              show (o.registered isBid).length - _ < _
              omega
            obtain ⟨hr2, hs2, hreg, hid, hgiv, hoff⟩ := ih _ (by rw [hsnap]; exact hleft) hr rfl
            rw [hsnap] at hs2 hreg hid hgiv
            have hpend : o.pending isBid = e :: o'.pending isBid := by
              rw [pending, hdrop, List.takeWhile_cons_of_pos (by simp [hp]), pending, hgiven]
            refine ⟨hr2, ?_, hreg, hid, ?_, hoff.trans hrest.offered⟩
            · rw [hs2, hs, hcs, Function.update_idem, Function.update_self, hpend]
              rfl
            · intro side hside
              rw [hgiv side hside]
              exact Function.update_of_ne hside _ _

/-! ## The calls of `processEntry`

Every call that is made finds both books intact and with the tick size. What divides or overflows
in a book is looked for in these calls. -/

/-- A call of `processEntry`, with the data it finds. -/
structure EntryCall where
  data : BookData
  entry : Entry
  isBid : Bool

/-- The calls in a loop of `applySnapshot`. -/
def drainCalls (b : BookData) (isBid : Bool) : List EntryCall :=
  let r := b.orderbookSnapshot.getEntry isBid
  if _h : r.1.price = 0 then []
  else
    let data := { b with orderbookSnapshot := r.2 }
    ⟨data, r.1, isBid⟩ :: drainCalls (data.processEntry r.1 isBid).1 isBid
termination_by b.orderbookSnapshot.left isBid
decreasing_by
  have := left_getEntry_lt _h
  unfold processEntry
  cases isBid <;> exact this

def snapshotCalls (b : BookData) : List EntryCall :=
  let cleared := { b with bidBook := b.bidBook.clear, askBook := b.askBook.clear, offered := [] }
  cleared.drainCalls true ++ (cleared.drainSnapshot true).drainCalls false

/-- The calls in a loop of `applyUpdate`. -/
def entriesCalls (b : BookData) (isBid : Bool) : List Entry → List EntryCall
  | [] => []
  | entry :: rest =>
      let r := b.processEntry entry isBid
      ⟨b, entry, isBid⟩ :: if r.2 then entriesCalls r.1 isBid rest else []

def updateCalls (b : BookData) (event : DepthEvent) : List EntryCall :=
  let start := { b with offered := b.offered ++ [event] }
  let bids := start.processEntries true (event.levels true)
  start.entriesCalls true (event.levels true) ++
    if bids.2 then bids.1.entriesCalls false (event.levels false) else []

theorem drainCalls_ready (isBid : Bool) {b : BookData} (h : Ready tickSize b) :
    ∀ call ∈ b.drainCalls isBid, Ready tickSize call.data := by
  induction hn : b.orderbookSnapshot.left isBid using Nat.strong_induction_on generalizing b with
  | _ n ih =>
      rw [drainCalls]
      dsimp only
      split
      · simp
      · rename_i hp
        set data : BookData :=
          { b with orderbookSnapshot := (b.orderbookSnapshot.getEntry isBid).2 }
        have hdata : Ready tickSize data := ⟨h.bid, h.ask, h.bid_tickSize, h.ask_tickSize⟩
        obtain ⟨hr, -, -, hrest⟩ :=
          processEntry_spec hdata (b.orderbookSnapshot.getEntry isBid).1 isBid
        refine List.forall_mem_cons.mpr ⟨hdata, ih (data.orderbookSnapshot.left isBid) ?_ hr ?_⟩
        · rw [← hn]
          exact left_getEntry_lt hp
        · rw [hrest.orderbookSnapshot]

theorem snapshotCalls_ready {b : BookData} (hbid : b.bidBook.tickSize = tickSize)
    (hask : b.askBook.tickSize = tickSize) :
    ∀ call ∈ b.snapshotCalls, Ready tickSize call.data := by
  have hcleared : Ready tickSize
      { b with bidBook := b.bidBook.clear, askBook := b.askBook.clear, offered := [] } :=
    ⟨SortedBook.inv_clear _, SortedBook.inv_clear _, hbid, hask⟩
  refine List.forall_mem_append.mpr ⟨drainCalls_ready true hcleared, ?_⟩
  exact drainCalls_ready false (drainSnapshot_spec true hcleared).1

theorem entriesCalls_ready (isBid : Bool) (l : List Entry) {b : BookData}
    (h : Ready tickSize b) : ∀ call ∈ b.entriesCalls isBid l, Ready tickSize call.data := by
  induction l generalizing b with
  | nil => simp [entriesCalls]
  | cons entry rest ih =>
      rw [entriesCalls]
      refine List.forall_mem_cons.mpr ⟨h, ?_⟩
      split
      · exact ih (processEntry_spec h entry isBid).1
      · simp

theorem updateCalls_ready {b : BookData} (h : Ready tickSize b) (event : DepthEvent) :
    ∀ call ∈ b.updateCalls event, Ready tickSize call.data := by
  have hstart : Ready tickSize { b with offered := b.offered ++ [event] } :=
    ⟨h.bid, h.ask, h.bid_tickSize, h.ask_tickSize⟩
  refine List.forall_mem_append.mpr ⟨entriesCalls_ready true _ hstart, ?_⟩
  split
  · exact entriesCalls_ready false _ (processEntries_spec true _ hstart).1
  · simp

/-- **`applySnapshot` replaces both sides** by what is pending in the buffer, whatever they held. -/
theorem applySnapshot_of_tickSize {b : BookData} (hbid : b.bidBook.tickSize = tickSize)
    (hask : b.askBook.tickSize = tickSize) :
    Ready tickSize b.applySnapshot ∧
      (∀ side, b.applySnapshot.sides side
        = (∅ : LevelMap).tryLevels tickSize (b.orderbookSnapshot.pending side)) ∧
      b.applySnapshot.orderbookSnapshot.registered = b.orderbookSnapshot.registered ∧
      b.applySnapshot.orderbookSnapshot.updateId = b.orderbookSnapshot.updateId ∧
      b.applySnapshot.updateID = b.orderbookSnapshot.updateId ∧
      b.applySnapshot.offered = [] := by
  set cleared : BookData :=
    { b with bidBook := b.bidBook.clear, askBook := b.askBook.clear, offered := [] } with hclear
  have hc : Ready tickSize cleared :=
    ⟨SortedBook.inv_clear _, SortedBook.inv_clear _, hbid, hask⟩
  have hcs : cleared.sides = fun _ => ∅ := by
    funext side
    cases side
    · exact SortedBook.toMap_of_members_nil (SortedBook.members_clear _)
    · exact SortedBook.toMap_of_members_nil (SortedBook.members_clear _)
  -- bids first: what is pending for the asks is still there after them
  obtain ⟨hr1, hs1, hreg1, hid1, hgiv1, hoff1⟩ := drainSnapshot_spec true hc
  obtain ⟨hr2, hs2, hreg2, hid2, _, hoff2⟩ := drainSnapshot_spec false hr1
  have hpend : (cleared.drainSnapshot true).orderbookSnapshot.pending false
      = b.orderbookSnapshot.pending false := by
    rw [pending, pending, hreg1, hgiv1 false (by decide)]
  rw [hpend] at hs2
  have hsides : ∀ side, ((cleared.drainSnapshot true).drainSnapshot false).sides side
      = (∅ : LevelMap).tryLevels tickSize (b.orderbookSnapshot.pending side) := by
    intro side
    rw [hs2, hs1, hcs]
    cases side with
    | true => rw [Function.update_of_ne (by decide), Function.update_self]
    | false => rw [Function.update_self, Function.update_of_ne (by decide)]
  refine ⟨⟨hr2.bid, hr2.ask, hr2.bid_tickSize, hr2.ask_tickSize⟩, ?_, hreg2.trans hreg1,
    hid2.trans hid1, hid2.trans hid1, hoff2.trans hoff1⟩
  intro side
  rw [← hsides side]
  cases side <;> rfl

theorem applySnapshot_spec {b : BookData} (h : Ready tickSize b) :
    Ready tickSize b.applySnapshot ∧
      (∀ side, b.applySnapshot.sides side
        = (∅ : LevelMap).tryLevels tickSize (b.orderbookSnapshot.pending side)) ∧
      b.applySnapshot.orderbookSnapshot.registered = b.orderbookSnapshot.registered ∧
      b.applySnapshot.orderbookSnapshot.updateId = b.orderbookSnapshot.updateId ∧
      b.applySnapshot.updateID = b.orderbookSnapshot.updateId ∧
      b.applySnapshot.offered = [] :=
  applySnapshot_of_tickSize h.bid_tickSize h.ask_tickSize

end BookData

end AstraConnect.Orderbook
