import AstraConnect.Orderbook.ExecutionLoop
import AstraConnect.Orderbook.LevelReading
import AstraConnect.Orderbook.SortedBookBounds

set_option autoImplicit false

/-! # Fetching a snapshot and installing it

`Futures.fetchOrderbookSnapshot` is the fetch on the document that the exchange answers with, down
to its fields. It refines the fetch that the update thread is modelled with (`fetch_refines`). A
response of valid pairs is installed as it is, whatever the books and the buffer held before
(`resync_installs_snapshot`).
-/

namespace AstraConnect.Orderbook

open AstraConnect.Order (Exec Str)

/-! ## `Futures::API::fetchOrderbookSnapshot` -/

/-- What a depth request gives: no document, when there is no response or one that
`iterateResponse` refuses, or the document. -/
inductive DepthReply where
  | failed
  | document (doc : JsonTree)

namespace Futures

/-- `for(auto bid : doc["bids"]) { … out.registerEntry(price,volume,true); }`, and the same for the
asks. `garbage` is what an unassigned volume holds. -/
def readSide (garbage : Int) (doc : JsonTree) (name : Str) (isBid : Bool)
    (out : OrderbookSnapshotIncoming) : OrderbookSnapshotIncoming × Exec Unit :=
  match (doc.get name).bind JsonTree.getArray with
  | none => (out, .error .throws)
  | some levels =>
      let entries := (snapshotEntries levels).1.map fun e => (⟨e.1, e.2.getD garbage⟩ : Entry)
      (entries.foldl (fun o e => o.registerEntry e isBid) out, (snapshotEntries levels).2)

/-- The `try` block: what has been written to `out` when it ends. -/
def readSnapshot (garbage : Int) (doc : JsonTree) (out : OrderbookSnapshotIncoming) :
    OrderbookSnapshotIncoming × Exec Unit :=
  match (doc.get "lastUpdateId".toList).bind JsonTree.getInt64 with
  | none => (out, .error .throws)
  | some updateId =>
      match readSide garbage doc "bids".toList true { out with updateId := updateId } with
      | (out, .error stop) => (out, .error stop)
      | (out, .ok _) => readSide garbage doc "asks".toList false out

/-- The buffer afterwards, and whether the fetch returned `SUCCESS`. -/
def fetchOrderbookSnapshot (garbage : Int) (out : OrderbookSnapshotIncoming) :
    DepthReply → OrderbookSnapshotIncoming × Bool
  | .failed => (out.reset, false)
  | .document doc =>
      match readSnapshot garbage doc out.reset with
      | (out, .error _) => (out.reset, false)
      | (out, .ok _) => (out, true)

end Futures

/-! ## What the coarser model does with the same reply

`Orderbook.lean` knows a reply by what it comes to: a response, or a failure that has written some
entries or none. Each document is one of these. -/

/-- The levels of a document, as `readSide` registers them. -/
def levelsOf (garbage : Int) (levels : List JsonTree) : List Entry :=
  (snapshotEntries levels).1.map fun e => ⟨e.1, e.2.getD garbage⟩

/-- The response that a document stands for, once it has been read. -/
def responseOf (garbage : Int) (doc : JsonTree) : Option DepthResponse := do
  let updateId ← (doc.get "lastUpdateId".toList).bind JsonTree.getInt64
  let bids ← (doc.get "bids".toList).bind JsonTree.getArray
  let asks ← (doc.get "asks".toList).bind JsonTree.getArray
  if (snapshotEntries bids).2 = .ok () ∧ (snapshotEntries asks).2 = .ok () then
    some ⟨updateId, fun side => levelsOf garbage (if side then bids else asks)⟩
  else none

/-- A loop over a side that is there. -/
theorem readSide_eq (garbage : Int) {doc : JsonTree} {name : Str} {levels : List JsonTree}
    (h : (doc.get name).bind JsonTree.getArray = some levels) (isBid : Bool)
    (out : OrderbookSnapshotIncoming) :
    Futures.readSide garbage doc name isBid out
      = ((levelsOf garbage levels).foldl (fun o e => o.registerEntry e isBid) out,
          (snapshotEntries levels).2) := by
  unfold Futures.readSide
  rw [h]
  rfl

theorem readSide_none (garbage : Int) {doc : JsonTree} {name : Str}
    (h : (doc.get name).bind JsonTree.getArray = none) (isBid : Bool)
    (out : OrderbookSnapshotIncoming) :
    Futures.readSide garbage doc name isBid out = (out, .error .throws) := by
  unfold Futures.readSide
  rw [h]

/-- The `try` block succeeds on the documents that stand for a response, and writes it. -/
theorem readSnapshot_spec (garbage : Int) (doc : JsonTree) (out : OrderbookSnapshotIncoming) :
    (responseOf garbage doc = none ∧
        ∃ stop, (Futures.readSnapshot garbage doc out).2 = .error stop) ∨
      ∃ r, responseOf garbage doc = some r ∧
        Futures.readSnapshot garbage doc out
          = ((r.levels false).foldl (fun o e => o.registerEntry e false)
              ((r.levels true).foldl (fun o e => o.registerEntry e true)
                { out with updateId := r.lastUpdateId }), .ok ()) := by
  unfold responseOf Futures.readSnapshot
  rcases (doc.get "lastUpdateId".toList).bind JsonTree.getInt64 with - | updateId
  · exact .inl ⟨rfl, .throws, rfl⟩
  dsimp only
  rcases hbids : (doc.get "bids".toList).bind JsonTree.getArray with - | bids
  · rw [readSide_none garbage hbids]
    exact .inl ⟨rfl, .throws, rfl⟩
  rw [readSide_eq garbage hbids]
  rcases hasks : (doc.get "asks".toList).bind JsonTree.getArray with - | asks
  · rcases (snapshotEntries bids).2 with stop | -
    · exact .inl ⟨rfl, stop, rfl⟩
    · dsimp only
      rw [readSide_none garbage hasks]
      exact .inl ⟨rfl, .throws, rfl⟩
  rcases hbidsOk : (snapshotEntries bids).2 with stop | u
  · exact .inl ⟨by simp [hbidsOk], stop, rfl⟩
  dsimp only
  rw [readSide_eq garbage hasks]
  rcases hasksOk : (snapshotEntries asks).2 with stop | v
  · exact .inl ⟨by simp [hasksOk], stop, rfl⟩
  · refine .inr ⟨⟨updateId, fun side => levelsOf garbage (if side then bids else asks)⟩, ?_, rfl⟩
    simp [hbidsOk, hasksOk]

/-- **The fetch on documents refines the fetch on replies**: a document is read as the response it
stands for, and when it stands for none, the fetch fails. -/
theorem fetch_document (garbage : Int) (out : OrderbookSnapshotIncoming) (doc : JsonTree) :
    ∃ updateId, Futures.fetchOrderbookSnapshot garbage out (.document doc)
      = fetchOrderbookSnapshot out
          ((responseOf garbage doc).elim (.failed updateId) .success) := by
  rw [Futures.fetchOrderbookSnapshot]
  rcases readSnapshot_spec garbage doc out.reset with ⟨hnone, stop, hstop⟩ | ⟨r, hsome, hread⟩
  · rcases hread : Futures.readSnapshot garbage doc out.reset with ⟨o, e⟩
    rw [hread] at hstop
    obtain rfl : e = .error stop := hstop
    -- the exception resets the buffer, so only `updateId` can have changed
    refine ⟨o.updateId, ?_⟩
    rw [hnone]
    rfl
  · refine ⟨0, ?_⟩
    rw [hread, hsome]
    rfl

/-- A failed fetch leaves the buffer empty, with both cursors at the start. -/
theorem fetch_failed {garbage : Int} {out : OrderbookSnapshotIncoming} {reply : DepthReply}
    (h : (Futures.fetchOrderbookSnapshot garbage out reply).2 = false) (side : Bool) :
    (Futures.fetchOrderbookSnapshot garbage out reply).1.registered side = [] ∧
      (Futures.fetchOrderbookSnapshot garbage out reply).1.given side = 0 := by
  cases reply with
  | failed => exact ⟨rfl, rfl⟩
  | document doc =>
      obtain ⟨updateId, heq⟩ := fetch_document garbage out doc
      rw [heq] at h ⊢
      rcases hr : responseOf garbage doc with - | r
      · exact ⟨rfl, rfl⟩
      · simp [hr, fetchOrderbookSnapshot] at h

/-! ## Valid responses -/

/-- A level of a response: a price that is not zero and does not overflow `toTick`, and a
quantity, both as decimal strings. -/
def ValidPair (tickSize : Int) (level : JsonTree) (pair : Entry) : Prop :=
  ∃ x y, level.getArray = some [x, y] ∧ decimalOf x = some pair.price ∧
    decimalOf y = some pair.volume ∧ pair.price ≠ 0 ∧ SortedBook.NoOverflow tickSize pair.price

/-- At most 1000 of them under the name of a side. -/
def ValidSide (tickSize : Int) (doc : JsonTree) (name : Str) (pairs : List Entry) : Prop :=
  ∃ levels, (doc.get name).bind JsonTree.getArray = some levels ∧ levels.length ≤ 1000 ∧
    List.Forall₂ (ValidPair tickSize) levels pairs

theorem snapshotLevel_valid {tickSize : Int} {level : JsonTree} {pair : Entry}
    (h : ValidPair tickSize level pair) :
    snapshotLevel level = .ok (pair.price, some pair.volume) := by
  obtain ⟨x, y, harray, hx, hy, hne, -⟩ := h
  rw [snapshotLevel, harray]
  show snapshotFields [x, y] 0 none = _
  rw [snapshotFields, if_neg (by simp), readFixed_eq, hx]
  show snapshotFields [y] pair.price none = _
  rw [snapshotFields_volume hne]
  simp [hy]

theorem snapshotEntries_valid {tickSize : Int} {levels : List JsonTree} {pairs : List Entry}
    (h : List.Forall₂ (ValidPair tickSize) levels pairs) :
    snapshotEntries levels = (pairs.map (fun e => (e.price, some e.volume)), .ok ()) := by
  induction h with
  | nil => rfl
  | cons hpair _ ih => rw [snapshotEntries, snapshotLevel_valid hpair, ih, List.map_cons]

theorem levelsOf_valid (garbage : Int) {tickSize : Int} {levels : List JsonTree}
    {pairs : List Entry} (h : List.Forall₂ (ValidPair tickSize) levels pairs) :
    levelsOf garbage levels = pairs := by
  rw [levelsOf, snapshotEntries_valid h, List.map_map]
  exact List.map_id' pairs

theorem responseOf_valid (garbage : Int) {tickSize : Int} {doc : JsonTree} {updateId : Int}
    {pairs : Bool → List Entry}
    (hid : (doc.get "lastUpdateId".toList).bind JsonTree.getInt64 = some updateId)
    (hbids : ValidSide tickSize doc "bids".toList (pairs true))
    (hasks : ValidSide tickSize doc "asks".toList (pairs false)) :
    responseOf garbage doc = some ⟨updateId, pairs⟩ := by
  obtain ⟨bids, hb, -, hbids⟩ := hbids
  obtain ⟨asks, ha, -, hasks⟩ := hasks
  have hlevels : (fun side => levelsOf garbage (if side then bids else asks)) = pairs := by
    funext side
    cases side with
    | true => exact levelsOf_valid garbage hbids
    | false => exact levelsOf_valid garbage hasks
  unfold responseOf
  rw [hid, hb, ha]
  show (if _ then _ else none) = _
  rw [if_pos ⟨by rw [snapshotEntries_valid hbids], by rw [snapshotEntries_valid hasks]⟩, hlevels]

/-! ## Installing a snapshot

The buffer is given entry by entry, and every entry of a valid response fits. The books are cleared
first, so nothing of what they held is left. -/

namespace OrderbookSnapshotIncoming

/-- What one call of `getEntry` does to what is pending. -/
theorem getEntry_cases (o : OrderbookSnapshotIncoming) (isBid : Bool) :
    ((o.getEntry isBid).1.price = 0 ∧ o.pending isBid = []) ∨
      ((o.getEntry isBid).1.price ≠ 0 ∧
        o.pending isBid = (o.getEntry isBid).1 :: (o.getEntry isBid).2.pending isBid) := by
  unfold getEntry pending
  rcases hget : (o.registered isBid)[o.given isBid]? with - | e
  · rw [List.drop_eq_nil_of_le (List.getElem?_eq_none_iff.mp hget)]
    exact .inl ⟨rfl, rfl⟩
  · obtain ⟨hlt, hval⟩ := List.getElem?_eq_some_iff.mp hget
    rw [List.drop_eq_getElem_cons hlt, hval]
    by_cases hp : e.price = 0
    · exact .inl ⟨hp, List.takeWhile_cons_of_neg (by simp [hp])⟩
    · refine .inr ⟨hp, ?_⟩
      dsimp only
      rw [List.takeWhile_cons_of_pos (by simp [hp]), Function.update_self]

end OrderbookSnapshotIncoming

namespace BookData

open OrderbookSnapshotIncoming

/-- What the calls of `processEntry` in `applySnapshot` return, which ignores it. -/
def snapshotResults (b : BookData) : List Bool :=
  b.snapshotCalls.map (fun call => (call.data.processEntry call.entry call.isBid).2)

variable {tickSize : Int}

/-- No entry is refused when all that is pending fits. -/
theorem drainCalls_of_fitting (isBid : Bool) {b : BookData} (h : Ready tickSize b)
    (hfit : (b.sides isBid).fitting tickSize (b.orderbookSnapshot.pending isBid)
      = b.orderbookSnapshot.pending isBid) :
    ∀ call ∈ b.drainCalls isBid, (call.data.processEntry call.entry call.isBid).2 = true := by
  induction hn : b.orderbookSnapshot.left isBid using Nat.strong_induction_on generalizing b with
  | _ n ih =>
      rw [drainCalls]
      rcases getEntry_cases b.orderbookSnapshot isBid with ⟨hzero, -⟩ | ⟨hp, hpend⟩
      · dsimp only
        rw [dif_pos hzero]
        simp
      · have hleft := left_getEntry_lt hp
        dsimp only
        rw [dif_neg hp]
        set entry := (b.orderbookSnapshot.getEntry isBid).1
        set c : BookData := { b with orderbookSnapshot := (b.orderbookSnapshot.getEntry isBid).2 }
          with hc
        have hcr : Ready tickSize c := ⟨h.bid, h.ask, h.bid_tickSize, h.ask_tickSize⟩
        have hcs : c.sides = b.sides := by
          funext side
          cases side <;> rfl
        obtain ⟨hr, hs, hok, hrest⟩ := processEntry_spec hcr entry isBid
        rw [hpend, LevelMap.fitting_eq_cons] at hfit
        obtain ⟨hacc, hfit⟩ := hfit
        rw [hcs] at hok hs
        rw [List.forall_mem_cons]
        refine ⟨hok.mpr hacc, ?_⟩
        apply ih (c.orderbookSnapshot.left isBid) (by rw [← hn]; exact hleft) hr
        · rw [hs, hrest.orderbookSnapshot, Function.update_self, LevelMap.tryLevel, if_pos hacc]
          exact hfit
        · rw [hrest.orderbookSnapshot]

/-- No entry is refused by `applySnapshot` when each side fits an empty book. -/
theorem snapshotResults_of_fitting {b : BookData} (hbid : b.bidBook.tickSize = tickSize)
    (hask : b.askBook.tickSize = tickSize)
    (hfit : ∀ side, (∅ : LevelMap).fitting tickSize (b.orderbookSnapshot.pending side)
      = b.orderbookSnapshot.pending side) :
    ∀ ok ∈ b.snapshotResults, ok = true := by
  rw [snapshotResults, List.forall_mem_map, snapshotCalls]
  set cleared : BookData :=
    { b with bidBook := b.bidBook.clear, askBook := b.askBook.clear, offered := [] } with hclear
  have hc : Ready tickSize cleared :=
    ⟨SortedBook.inv_clear _, SortedBook.inv_clear _, hbid, hask⟩
  have hempty : ∀ side, cleared.sides side = ∅ := by
    intro side
    cases side
    · exact SortedBook.toMap_of_members_nil (SortedBook.members_clear _)
    · exact SortedBook.toMap_of_members_nil (SortedBook.members_clear _)
  obtain ⟨hr, hs, hreg, -, hgiv, -⟩ := drainSnapshot_spec true hc
  -- the loop over the bids leaves the asks of the buffer and of the book as they were
  have hpend : (cleared.drainSnapshot true).orderbookSnapshot.pending false
      = b.orderbookSnapshot.pending false := by
    rw [pending, pending, hreg, hgiv false (by decide)]
  have hside : (cleared.drainSnapshot true).sides false = ∅ := by
    rw [hs, Function.update_of_ne (by decide), hempty]
  rw [List.forall_mem_append]
  constructor
  · apply drainCalls_of_fitting true hc
    rw [hempty]
    exact hfit true
  · apply drainCalls_of_fitting false hr
    rw [hside, hpend]
    exact hfit false

end BookData

/-- What is pending after the fetch of a response that fits the buffer and has no zero price. -/
theorem pending_fetch (o : OrderbookSnapshotIncoming) {r : DepthResponse}
    (hlen : ∀ side, (r.levels side).length ≤ OrderbookSnapshotIncoming.CAPACITY)
    (hne : ∀ side, ∀ e ∈ r.levels side, e.price ≠ 0) (side : Bool) :
    (fetchOrderbookSnapshot o (.success r)).1.pending side = r.levels side := by
  rw [OrderbookSnapshotIncoming.pending, registered_fetch o hlen, given_fetch, List.drop_zero]
  rw [List.takeWhile_eq_self_iff]
  intro e he
  exact decide_eq_true (hne side e he)

theorem ValidSide.length_le {tickSize : Int} {doc : JsonTree} {name : Str} {pairs : List Entry}
    (h : ValidSide tickSize doc name pairs) : pairs.length ≤ 1000 := by
  obtain ⟨levels, -, hlen, hpairs⟩ := h
  rw [← hpairs.length_eq]
  exact hlen

theorem ValidSide.price_ne {tickSize : Int} {doc : JsonTree} {name : Str} {pairs : List Entry}
    (h : ValidSide tickSize doc name pairs) : ∀ e ∈ pairs, e.price ≠ 0 := by
  obtain ⟨levels, -, -, hpairs⟩ := h
  induction hpairs with
  | nil => simp
  | cons hpair _ ih =>
      obtain ⟨_, _, -, -, -, hne, -⟩ := hpair
      exact List.forall_mem_cons.mpr ⟨hne, ih⟩

/-- **A resync installs exactly the snapshot that was fetched**, whatever the books and the buffer
held before; and a failed fetch leaves the buffer empty with both cursors at the start. -/
theorem resync_installs_snapshot (tickSize garbage : Int) (b : BookData)
    (hbid : b.bidBook.tickSize = tickSize) (hask : b.askBook.tickSize = tickSize) :
    (∀ (doc : JsonTree) (updateId : Int) (pairs : Bool → List Entry),
      (doc.get "lastUpdateId".toList).bind JsonTree.getInt64 = some updateId →
      ValidSide tickSize doc "bids".toList (pairs true) →
      ValidSide tickSize doc "asks".toList (pairs false) →
      ∃ out, Futures.fetchOrderbookSnapshot garbage b.orderbookSnapshot (.document doc)
          = (out, true) ∧
        (∀ ok ∈ { b with orderbookSnapshot := out }.snapshotResults, ok = true) ∧
        { b with orderbookSnapshot := out }.applySnapshot.Ready tickSize ∧
        (∀ side, { b with orderbookSnapshot := out }.applySnapshot.sides side
          = (∅ : LevelMap).applyLevels tickSize (pairs side)) ∧
        { b with orderbookSnapshot := out }.applySnapshot.updateID = updateId) ∧
    ∀ reply, (Futures.fetchOrderbookSnapshot garbage b.orderbookSnapshot reply).2 = false →
      ∀ side,
        (Futures.fetchOrderbookSnapshot garbage b.orderbookSnapshot reply).1.registered side = [] ∧
        (Futures.fetchOrderbookSnapshot garbage b.orderbookSnapshot reply).1.given side = 0 := by
  refine ⟨?_, fun reply hfail side => fetch_failed hfail side⟩
  intro doc updateId pairs hid hbids hasks
  obtain ⟨_, heq⟩ := fetch_document garbage b.orderbookSnapshot doc
  rw [responseOf_valid garbage hid hbids hasks] at heq
  set r : DepthResponse := ⟨updateId, pairs⟩ with hr
  set out := (fetchOrderbookSnapshot b.orderbookSnapshot (.success r)).1 with hout
  have hlen : ∀ side, (pairs side).length ≤ 1000 := by
    rw [Bool.forall_bool]
    exact ⟨hasks.length_le, hbids.length_le⟩
  have hne : ∀ side, ∀ e ∈ pairs side, e.price ≠ 0 := by
    rw [Bool.forall_bool]
    exact ⟨hasks.price_ne, hbids.price_ne⟩
  have hpend : ∀ side, out.pending side = pairs side :=
    pending_fetch b.orderbookSnapshot (fun side => (hlen side).trans (by decide)) hne
  -- 1000 levels take at most 1000 of the 1024 blocks, wherever they lie
  have hfit : ∀ side, (∅ : LevelMap).fitting tickSize (pairs side) = pairs side := by
    intro side
    apply LevelMap.fitting_of_card
    calc (∅ : LevelMap).keys.card + (pairs side).length
        = (pairs side).length := by simp
      _ ≤ 1000 := hlen side
      _ ≤ MAX_BLOCKS := by decide
  obtain ⟨hready, hsides, -, -, hupdate, -⟩ :=
    BookData.applySnapshot_of_tickSize (b := { b with orderbookSnapshot := out }) hbid hask
  refine ⟨out, heq, ?_, hready, ?_, hupdate.trans (updateId_fetch _ _)⟩
  · apply BookData.snapshotResults_of_fitting (b := { b with orderbookSnapshot := out }) hbid hask
    intro side
    show (∅ : LevelMap).fitting tickSize (out.pending side) = out.pending side
    rw [hpend]
    exact hfit side
  · intro side
    rw [hsides]
    show (∅ : LevelMap).tryLevels tickSize (out.pending side) = _
    rw [hpend, LevelMap.tryLevels_of_fitting (hfit side)]

/-- The next entry of the buffer goes into the book. -/
def BookData.drainOne (b : BookData) (isBid : Bool) : BookData :=
  let r := b.orderbookSnapshot.getEntry isBid
  ({ b with orderbookSnapshot := r.2 }.processEntry r.1 isBid).1

theorem BookData.drainOne_spec {b : BookData} {tickSize : Int} (h : b.Ready tickSize)
    (isBid : Bool) : (b.drainOne isBid).Ready tickSize ∧
      (b.drainOne isBid).sides = Function.update b.sides isBid
        ((b.sides isBid).tryLevel tickSize (b.orderbookSnapshot.getEntry isBid).1) ∧
      (b.drainOne isBid).orderbookSnapshot = (b.orderbookSnapshot.getEntry isBid).2 := by
  have hnext : ({ b with orderbookSnapshot := (b.orderbookSnapshot.getEntry isBid).2 } :
      BookData).Ready tickSize := ⟨h.bid, h.ask, h.bid_tickSize, h.ask_tickSize⟩
  have hsides : ({ b with orderbookSnapshot := (b.orderbookSnapshot.getEntry isBid).2 } :
      BookData).sides = b.sides := by
    funext side
    cases side <;> rfl
  obtain ⟨hready, hupdate, -, hsame⟩ :=
    processEntry_spec hnext (b.orderbookSnapshot.getEntry isBid).1 isBid
  rw [hsides] at hupdate
  exact ⟨hready, hupdate, hsame.orderbookSnapshot⟩

/-- A snapshot of two bids and an ask. -/
def earlierResponse : DepthResponse :=
  ⟨3, fun side => if side then [⟨4, 1⟩, ⟨3, 6⟩] else [⟨9, 2⟩]⟩

/-- It has been fetched, and the first entry of each side applied. -/
def halfDrained : BookData :=
  ((fetchedData (fun _ _ _ => 0) 0 1 earlierResponse).drainOne true).drainOne false

/-- Both sides have a level, and a bid is left in the buffer. -/
theorem halfDrained_spec : halfDrained.Ready 1 ∧
    (halfDrained.sides true).lookup 4 = some ⟨4, 1⟩ ∧
    (halfDrained.sides false).lookup 9 = some ⟨9, 2⟩ ∧
    halfDrained.orderbookSnapshot.left true = 1 := by
  have hempty : ∀ side, (fetchedData (fun _ _ _ => 0) 0 1 earlierResponse).sides side = ∅ := by
    intro side
    cases side
    · exact SortedBook.toMap_of_members_nil (SortedBook.members_construct false fun _ _ => 0)
    · exact SortedBook.toMap_of_members_nil (SortedBook.members_construct true fun _ _ => 0)
  have hlookup : ∀ price volume : Int, toTick 1 price = price → volume ≠ 0 →
      ((∅ : LevelMap).tryLevel 1 ⟨price, volume⟩).lookup price = some ⟨price, volume⟩ := by
    intro price volume htick hvolume
    have haccepts : (∅ : LevelMap).Accepts (toTick 1 price) volume :=
      Or.inr (Or.inr ⟨by decide, Or.inr (by decide)⟩)
    rw [LevelMap.tryLevel, if_pos haccepts, LevelMap.applyLevel, LevelMap.lookup_setLevel,
      if_pos htick.symm, if_neg hvolume]
  obtain ⟨hready₁, hsides₁, hbuffer₁⟩ :=
    BookData.drainOne_spec (ready_fetchedData (fun _ _ _ => 0) 0 1 earlierResponse) true
  obtain ⟨hready₂, hsides₂, hbuffer₂⟩ := BookData.drainOne_spec hready₁ false
  refine ⟨hready₂, ?_, ?_, ?_⟩
  · rw [halfDrained, hsides₂, Function.update_of_ne (by decide), hsides₁, Function.update_self,
      hempty]
    exact hlookup 4 1 (by decide) (by decide)
  · rw [halfDrained, hsides₂, Function.update_self, hbuffer₁, hsides₁,
      Function.update_of_ne (by decide), hempty]
    exact hlookup 9 2 (by decide) (by decide)
  · rw [halfDrained, hbuffer₂, hbuffer₁]
    rfl

/-- A response with two bids and an ask, fetched in the middle of a drain. -/
theorem resync_installs_snapshot_halfDrained :
    (halfDrained.sides true).lookup 4 = some ⟨4, 1⟩ ∧
    (halfDrained.sides false).lookup 9 = some ⟨9, 2⟩ ∧
    halfDrained.orderbookSnapshot.left true = 1 ∧
    ∃ doc out, Futures.fetchOrderbookSnapshot 0 halfDrained.orderbookSnapshot (.document doc)
        = (out, true) ∧
      { halfDrained with orderbookSnapshot := out }.applySnapshot.sides true
        = (∅ : LevelMap).applyLevels 1 [⟨500000000, 200000000⟩, ⟨400000000, 100000000⟩] ∧
      { halfDrained with orderbookSnapshot := out }.applySnapshot.sides false
        = (∅ : LevelMap).applyLevels 1 [⟨600000000, 300000000⟩] ∧
      { halfDrained with orderbookSnapshot := out }.applySnapshot.updateID = 7 := by
  let pair (price volume : String) : JsonTree := .arr [.str price.toList, .str volume.toList]
  let doc : JsonTree := .obj [("lastUpdateId".toList, .int 7),
    ("bids".toList, .arr [pair "5" "2", pair "4" "1"]), ("asks".toList, .arr [pair "6" "3"])]
  let pairs : Bool → List Entry := fun side =>
    if side then [⟨500000000, 200000000⟩, ⟨400000000, 100000000⟩] else [⟨600000000, 300000000⟩]
  have hdecimal : decimalOf (.str "1".toList) = some 100000000 ∧
      decimalOf (.str "2".toList) = some 200000000 ∧
      decimalOf (.str "3".toList) = some 300000000 ∧
      decimalOf (.str "4".toList) = some 400000000 ∧
      decimalOf (.str "5".toList) = some 500000000 ∧
      decimalOf (.str "6".toList) = some 600000000 := by
    decide +kernel
  obtain ⟨h1, h2, h3, h4, h5, h6⟩ := hdecimal
  have hbids : ValidSide 1 doc "bids".toList (pairs true) :=
    ⟨_, rfl, by decide, .cons ⟨_, _, rfl, h5, h2, by decide, by decide⟩
      (.cons ⟨_, _, rfl, h4, h1, by decide, by decide⟩ .nil)⟩
  have hasks : ValidSide 1 doc "asks".toList (pairs false) :=
    ⟨_, rfl, by decide, .cons ⟨_, _, rfl, h6, h3, by decide, by decide⟩ .nil⟩
  obtain ⟨hready, hbid, hask, hleft⟩ := halfDrained_spec
  obtain ⟨out, hfetch, -, -, hsides, hid⟩ :=
    (resync_installs_snapshot 1 0 halfDrained hready.bid_tickSize hready.ask_tickSize).1
      doc 7 pairs rfl hbids hasks
  exact ⟨hbid, hask, hleft, doc, out, hfetch, hsides true, hsides false, hid⟩

end AstraConnect.Orderbook
