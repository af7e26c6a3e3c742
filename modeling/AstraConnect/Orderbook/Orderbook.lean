import AstraConnect.Lib.Transition
import AstraConnect.Orderbook.SortedBook

set_option autoImplicit false

/-! # The local order book (`APIManager::Orderbook` in `api/orderbook/orderbook.hpp`)

The update thread as a machine: `Pc` says where `executionLoop` and the functions it calls are,
and one step is one atomic access: a load or store of an atomic, a queue operation, or a whole
section under `updatingLock`. What the exchange answers, what the stream delivers, the destructor
and the readers are actions of their own, so a run is any interleaving of them with the thread.

`updatingLock` is held between steps only by a reader; the sections of the update thread are
single steps that wait until it is free.
-/

namespace AstraConnect.Orderbook

/-! ## Data

The functions on the two sides and on the snapshot buffer, which run under `updatingLock` or on
what nobody else has. They are written out as in the source; the loops stop where those stop. -/

/-- One depth event (`OrderbookArrays`): `levels true` is `bidArray[0..bidCount)`, `levels false`
is `askArray[0..askCount)`. -/
structure DepthEvent where
  slot : Int
  levels : Bool → List Entry
  u : Int
  U : Int
  pu : Int

/-- What the stream queues: an event, or the marker of a dropped one. -/
abbrev OrderbookArrays := Option DepthEvent

/-- `api/orderbook/orderbookSnapshotIncoming.hpp`: `registered side` are the entries in the array
of the side, `given side` the read cursor. -/
structure OrderbookSnapshotIncoming where
  registered : Bool → List Entry
  given : Bool → Nat
  updateId : Int

namespace OrderbookSnapshotIncoming

/-- Entries in one of its arrays. -/
def CAPACITY : Nat := 8192

def registerEntry (o : OrderbookSnapshotIncoming) (entry : Entry) (isBid : Bool) :
    OrderbookSnapshotIncoming :=
  if (o.registered isBid).length ≥ CAPACITY then o
  else { o with registered := Function.update o.registered isBid (o.registered isBid ++ [entry]) }

/-- `getBid` and `getAsk`: the next entry, or a zero entry once drained. -/
def getEntry (o : OrderbookSnapshotIncoming) (isBid : Bool) : Entry × OrderbookSnapshotIncoming :=
  match (o.registered isBid)[o.given isBid]? with
  | none => (⟨0, 0⟩, o)
  | some entry => (entry, { o with given := Function.update o.given isBid (o.given isBid + 1) })

def reset (o : OrderbookSnapshotIncoming) : OrderbookSnapshotIncoming :=
  { o with registered := fun _ => [], given := fun _ => 0 }

/-- Entries left behind the cursor. -/
def left (o : OrderbookSnapshotIncoming) (isBid : Bool) : Nat :=
  (o.registered isBid).length - o.given isBid

theorem left_getEntry_lt {o : OrderbookSnapshotIncoming} {isBid : Bool}
    (h : ¬ (o.getEntry isBid).1.price = 0) :
    (o.getEntry isBid).2.left isBid < o.left isBid := by
  unfold getEntry left at *
  cases hget : (o.registered isBid)[o.given isBid]? with
  | none => simp [hget] at h
  | some entry =>
      obtain ⟨hlt, _⟩ := List.getElem?_eq_some_iff.mp hget
      simp only [Function.update_self]
      omega

end OrderbookSnapshotIncoming

/-- The parsed answer to a depth request. -/
structure DepthResponse where
  lastUpdateId : Int
  levels : Bool → List Entry

/-- How `fetchOrderbookSnapshot` ends: it fills the buffer, or it fails, perhaps after it has
written `updateId`. -/
inductive SnapshotReply where
  | failed (updateId : Int)
  | success (response : DepthResponse)

/-- `Futures::API::fetchOrderbookSnapshot`, on a reply. -/
def fetchOrderbookSnapshot (out : OrderbookSnapshotIncoming) :
    SnapshotReply → OrderbookSnapshotIncoming × Bool
  | .failed updateId => ({ out.reset with updateId := updateId }, false)
  | .success response =>
      let start := { out.reset with updateId := response.lastUpdateId }
      let bids := (response.levels true).foldl (fun o e => o.registerEntry e true) start
      ((response.levels false).foldl (fun o e => o.registerEntry e false) bids, true)

/-- The errors the book stops with. -/
inductive APIError where
  | FETCH_FAILED
  | BAD_FIELD
  | DISCONNECTED
  | ORDERBOOK_OUTDATED
  deriving DecidableEq, Repr

/-- The data the update thread works on: the two sides, the snapshot buffer and the final update id
applied. `offered` is a history variable that no function reads: the events given to `applyUpdate`
since the last snapshot. -/
structure BookData where
  bidBook : SortedBook true
  askBook : SortedBook false
  orderbookSnapshot : OrderbookSnapshotIncoming
  updateID : Int
  offered : List DepthEvent

namespace BookData

/-- The flag is `false` when a new level does not fit its side. -/
def processEntry (b : BookData) (entry : Entry) (isBid : Bool) : BookData × Bool :=
  if isBid then
    let r := b.bidBook.update entry.price entry.volume
    ({ b with bidBook := r.1 }, r.2)
  else
    let r := b.askBook.update entry.price entry.volume
    ({ b with askBook := r.1 }, r.2)

/-- A loop of `applySnapshot`: it stops at an entry with price 0. -/
def drainSnapshot (b : BookData) (isBid : Bool) : BookData :=
  let r := b.orderbookSnapshot.getEntry isBid
  if _h : r.1.price = 0 then { b with orderbookSnapshot := r.2 }
  else drainSnapshot ({ b with orderbookSnapshot := r.2 }.processEntry r.1 isBid).1 isBid
termination_by b.orderbookSnapshot.left isBid
decreasing_by
  have := OrderbookSnapshotIncoming.left_getEntry_lt _h
  unfold processEntry
  cases isBid <;> exact this

/-- Replaces the whole book with the fetched snapshot. -/
def applySnapshot (b : BookData) : BookData :=
  let cleared := { b with bidBook := b.bidBook.clear, askBook := b.askBook.clear, offered := [] }
  let filled := (cleared.drainSnapshot true).drainSnapshot false
  { filled with updateID := filled.orderbookSnapshot.updateId }

/-- A loop of `applyUpdate`: it returns at the first level that does not fit. -/
def processEntries (b : BookData) (isBid : Bool) : List Entry → BookData × Bool
  | [] => (b, true)
  | entry :: rest =>
      let r := b.processEntry entry isBid
      if r.2 then processEntries r.1 isBid rest else (r.1, false)

/-- Applies one depth event. The flag is `false` if a side ran out of room. -/
def applyUpdate (b : BookData) (event : DepthEvent) : BookData × Bool :=
  let bids := { b with offered := b.offered ++ [event] }.processEntries true (event.levels true)
  if bids.2 then
    let asks := bids.1.processEntries false (event.levels false)
    if asks.2 then ({ asks.1 with updateID := event.u }, true) else (asks.1, false)
  else (bids.1, false)

/-! Public reads, with the result and what they leave in `out`. -/

def getTopBids (b : BookData) (out : Nat → Entry) (count : Nat) : (Nat → Entry) × Nat :=
  b.bidBook.top out count

def getTopAsks (b : BookData) (out : Nat → Entry) (count : Nat) : (Nat → Entry) × Nat :=
  b.askBook.top out count

/-- The flag is `false` when the side is empty. -/
def getBestBid (b : BookData) (out : Entry) : Bool × Entry :=
  let r := b.getTopBids (fun _ => out) 1
  (r.2 = 1, r.1 0)

def getBestAsk (b : BookData) (out : Entry) : Bool × Entry :=
  let r := b.getTopAsks (fun _ => out) 1
  (r.2 = 1, r.1 0)

/-- The flag stands for `PriceValid::VALID`. -/
def getEntryWithPrice (b : BookData) (price : Int) (out : Entry) (isBid : Bool) : Bool × Entry :=
  if isBid then b.bidBook.find price out else b.askBook.find price out

end BookData

/-! ## The update thread

The program counter has a place for each atomic access, and says at the places of a shared function
who has called it. -/

/-- Who called `waitForUpdate`: `executionLoop` before its loop, `applyFirstUpdate`, or the inner
loop. -/
inductive Waiter where
  | start
  | first
  | inner
  deriving DecidableEq, Repr

/-- Where control goes once an event is released: `continue` in `applyFirstUpdate`, its return
with a result, or the test of `applied` in the inner loop. -/
inductive Released where
  | skipped
  | first (applied : Bool)
  | inner (applied : Bool)
  deriving DecidableEq, Repr

/-- Where control goes after `stop`: `executionLoop` returns, or `waitForUpdate` returns false. -/
inductive Stopped where
  | exit
  | noUpdate (w : Waiter)
  deriving DecidableEq, Repr

inductive Pc where
  /-- `loadTickSize`, until the exchange answers -/
  | loadTickSize
  /-- between the two calls of `setTickSize` -/
  | setAskTickSize (tickSize : Int)
  /-- `waitForUpdate`: the test of `bufferOut.isEmpty()` -/
  | waiting (w : Waiter)
  | checkRunning (w : Waiter)
  | checkStream (w : Waiter)
  /-- `websocketStream.getLatestData()` and what is decided from the event -/
  | take (w : Waiter)
  /-- `while(running)` -/
  | loopHead
  /-- `resync`: the store to `synced` -/
  | resync
  /-- `resync`: a fetch, with `attempt` fetches made before -/
  | fetch (attempt : Nat)
  /-- `resync`: the load of `running` before a retry -/
  | retry (attempt : Nat)
  | applySnapshot
  /-- `applyUpdate`, called by `applyFirstUpdate` or by the inner loop -/
  | applyFirst (event : DepthEvent)
  | applyInner (event : DepthEvent)
  | release (slot : Int) (r : Released)
  /-- `applyFirstUpdate` has returned false -/
  | firstFailed
  /-- the store of `true` to `synced` -/
  | storeSynced
  /-- the two stores of `stop` -/
  | stopSynced (next : Stopped)
  | stopRunning (next : Stopped)
  | done

structure State extends BookData where
  pc : Pc
  synced : Bool
  running : Bool
  lastError : Option APIError
  failedSyncs : Nat
  /-- `websocketStream.bufferOut` -/
  bufferOut : List OrderbookArrays
  /-- `websocketStream.isRunning()` -/
  streamRunning : Bool
  /-- the reader that holds `updatingLock` -/
  updatingLock : Option Nat
  /-- the slots given back to `arrayHolder`, in order -/
  released : List Int

namespace State

def snapshotAttempts : Nat := 3

def maxFailedSyncs : Nat := 5

/-- `stop(err)` up to its first store. -/
def stop (s : State) (err : APIError) (next : Stopped) : State :=
  { s with lastError := some err, pc := .stopSynced next }

/-- `waitForUpdate` returns false. -/
def noUpdate (s : State) : Waiter → State
  | .start => { s with pc := .done }
  | .first => { s with pc := .firstFailed }
  | .inner => { s with pc := .loopHead }

/-- `release(arrays)`, and where it was called from. -/
def release (s : State) (slot : Int) (r : Released) : State :=
  let freed := { s with released := if slot ≥ 0 then s.released ++ [slot] else s.released }
  match r with
  | .skipped => { freed with pc := .waiting .first }
  | .first true => { freed with pc := .storeSynced, failedSyncs := 0 }
  | .first false => { freed with pc := .firstFailed }
  | .inner true => { freed with pc := .waiting .inner }
  | .inner false => { freed with pc := .loopHead }

/-- What `applyFirstUpdate` does with the item it has taken. -/
def decideFirst (s : State) : OrderbookArrays → Pc
  | none => .firstFailed
  | some event =>
      if event.u < s.updateID then .release event.slot .skipped
      else if event.U ≤ s.updateID then .applyFirst event
      else .release event.slot (.first false)

/-- What the inner loop does with the item it has taken; a dropped event has the slot `-1`. -/
def decideInner (s : State) : OrderbookArrays → Pc
  | none => .release (-1) (.inner false)
  | some event =>
      if event.pu = s.updateID then .applyInner event
      else .release event.slot (.inner false)

/-- A step of the update thread that needs no answer of the exchange. A section under
`updatingLock` waits until no reader holds it. -/
def threadStep (s : State) : Option State :=
  match s.pc with
  | .loadTickSize => none
  | .setAskTickSize tickSize =>
      some { s with askBook := s.askBook.setTickSize tickSize, pc := .waiting .start }
  | .waiting w =>
      some (if s.bufferOut = [] then { s with pc := .checkRunning w }
        else if w = .start then { s with pc := .loopHead }
        else { s with pc := .take w })
  | .checkRunning w => some (if s.running then { s with pc := .checkStream w } else s.noUpdate w)
  | .checkStream w =>
      some (if s.streamRunning then { s with pc := .waiting w }
        else s.stop .DISCONNECTED (.noUpdate w))
  | .take w =>
      match s.bufferOut with
      | [] => none
      | item :: rest =>
          some { s with
            bufferOut := rest
            pc := if w = .inner then s.decideInner item else s.decideFirst item }
  | .loopHead => some { s with pc := if s.running then .resync else .done }
  | .resync => some { s with synced := false, pc := .fetch 0 }
  | .fetch _ => none
  | .retry attempt =>
      some (if s.running then { s with pc := .fetch attempt } else s.stop .FETCH_FAILED .exit)
  | .applySnapshot =>
      if s.updatingLock = none then
        some { s with toBookData := s.toBookData.applySnapshot, pc := .waiting .first }
      else none
  | .applyFirst event =>
      if s.updatingLock = none then
        let r := s.toBookData.applyUpdate event
        some { s with toBookData := r.1, pc := .release event.slot (.first r.2) }
      else none
  | .applyInner event =>
      if s.updatingLock = none then
        let r := s.toBookData.applyUpdate event
        some { s with toBookData := r.1, pc := .release event.slot (.inner r.2) }
      else none
  | .release slot r => some (s.release slot r)
  | .firstFailed =>
      some (if s.running then
          if s.failedSyncs + 1 = maxFailedSyncs then
            { s with failedSyncs := s.failedSyncs + 1 }.stop .ORDERBOOK_OUTDATED .exit
          else { s with failedSyncs := s.failedSyncs + 1, pc := .loopHead }
        else { s with pc := .done })
  | .storeSynced => some { s with synced := true, pc := .waiting .inner }
  | .stopSynced next => some { s with synced := false, pc := .stopRunning next }
  | .stopRunning next =>
      some (match next with
        | .exit => { s with running := false, pc := .done }
        | .noUpdate w => { s with running := false }.noUpdate w)
  | .done => none

/-- `fetchExchangeInfoForPair` answers with a tick size, or fails. -/
def tickSizeReply (s : State) : Option Int → State
  | none => s.stop .FETCH_FAILED .exit
  | some tickSize =>
      if tickSize ≤ 0 then s.stop .BAD_FIELD .exit
      else
        { s with bidBook := s.bidBook.setTickSize tickSize, pc := .setAskTickSize tickSize }

/-- A fetch of `resync` returns, with `attempt` fetches made before it. -/
def snapshotReply (s : State) (attempt : Nat) (reply : SnapshotReply) : State :=
  let r := fetchOrderbookSnapshot s.orderbookSnapshot reply
  let fetched := { s with orderbookSnapshot := r.1 }
  if r.2 then { fetched with pc := .applySnapshot }
  else if attempt + 1 < snapshotAttempts then { fetched with pc := .retry (attempt + 1) }
  else fetched.stop .FETCH_FAILED .exit

/-! ## What a step of the thread can be

`ThreadStep` has one constructor for each way a step can go, with the tests that were passed. The
invariants split into these cases and never unfold `threadStep`. -/

/-- One constructor for each way a step can go, with the conditions that were tested. -/
inductive ThreadStep (s : State) : State → Prop
  | setAskTickSize {tickSize : Int} (hpc : s.pc = .setAskTickSize tickSize) :
      ThreadStep s { s with askBook := s.askBook.setTickSize tickSize, pc := .waiting .start }
  | empty {w : Waiter} (hpc : s.pc = .waiting w) (hbuf : s.bufferOut = []) :
      ThreadStep s { s with pc := .checkRunning w }
  | started (hpc : s.pc = .waiting .start) (hbuf : s.bufferOut ≠ []) :
      ThreadStep s { s with pc := .loopHead }
  | arrived {w : Waiter} (hpc : s.pc = .waiting w) (hw : w ≠ .start) (hbuf : s.bufferOut ≠ []) :
      ThreadStep s { s with pc := .take w }
  | goOn {w : Waiter} (hpc : s.pc = .checkRunning w) (hrun : s.running = true) :
      ThreadStep s { s with pc := .checkStream w }
  | stopping {w : Waiter} (hpc : s.pc = .checkRunning w) (hrun : s.running = false) :
      ThreadStep s (s.noUpdate w)
  | connected {w : Waiter} (hpc : s.pc = .checkStream w) (hstream : s.streamRunning = true) :
      ThreadStep s { s with pc := .waiting w }
  | disconnected {w : Waiter} (hpc : s.pc = .checkStream w) (hstream : s.streamRunning = false) :
      ThreadStep s (s.stop .DISCONNECTED (.noUpdate w))
  | takeFirst {w : Waiter} {item : OrderbookArrays} {rest : List OrderbookArrays}
      (hpc : s.pc = .take w) (hw : w ≠ .inner) (hbuf : s.bufferOut = item :: rest) :
      ThreadStep s { s with bufferOut := rest, pc := s.decideFirst item }
  | takeInner {item : OrderbookArrays} {rest : List OrderbookArrays}
      (hpc : s.pc = .take .inner) (hbuf : s.bufferOut = item :: rest) :
      ThreadStep s { s with bufferOut := rest, pc := s.decideInner item }
  | enter (hpc : s.pc = .loopHead) (hrun : s.running = true) :
      ThreadStep s { s with pc := .resync }
  | leave (hpc : s.pc = .loopHead) (hrun : s.running = false) :
      ThreadStep s { s with pc := .done }
  | resync (hpc : s.pc = .resync) : ThreadStep s { s with synced := false, pc := .fetch 0 }
  | retry {attempt : Nat} (hpc : s.pc = .retry attempt) (hrun : s.running = true) :
      ThreadStep s { s with pc := .fetch attempt }
  | giveUp {attempt : Nat} (hpc : s.pc = .retry attempt) (hrun : s.running = false) :
      ThreadStep s (s.stop .FETCH_FAILED .exit)
  | applySnapshot (hpc : s.pc = .applySnapshot) (hlock : s.updatingLock = none) :
      ThreadStep s { s with toBookData := s.toBookData.applySnapshot, pc := .waiting .first }
  | applyFirst {event : DepthEvent} (hpc : s.pc = .applyFirst event)
      (hlock : s.updatingLock = none) :
      ThreadStep s
        { s with
          toBookData := (s.toBookData.applyUpdate event).1
          pc := .release event.slot (.first (s.toBookData.applyUpdate event).2) }
  | applyInner {event : DepthEvent} (hpc : s.pc = .applyInner event)
      (hlock : s.updatingLock = none) :
      ThreadStep s
        { s with
          toBookData := (s.toBookData.applyUpdate event).1
          pc := .release event.slot (.inner (s.toBookData.applyUpdate event).2) }
  | release {slot : Int} {r : Released} (hpc : s.pc = .release slot r) :
      ThreadStep s (s.release slot r)
  | outdated (hpc : s.pc = .firstFailed) (hrun : s.running = true)
      (hmax : s.failedSyncs + 1 = maxFailedSyncs) :
      ThreadStep s ({ s with failedSyncs := s.failedSyncs + 1 }.stop .ORDERBOOK_OUTDATED .exit)
  | again (hpc : s.pc = .firstFailed) (hrun : s.running = true)
      (hmax : s.failedSyncs + 1 ≠ maxFailedSyncs) :
      ThreadStep s { s with failedSyncs := s.failedSyncs + 1, pc := .loopHead }
  | ended (hpc : s.pc = .firstFailed) (hrun : s.running = false) :
      ThreadStep s { s with pc := .done }
  | storeSynced (hpc : s.pc = .storeSynced) :
      ThreadStep s { s with synced := true, pc := .waiting .inner }
  | stopSynced {next : Stopped} (hpc : s.pc = .stopSynced next) :
      ThreadStep s { s with synced := false, pc := .stopRunning next }
  | stopExit (hpc : s.pc = .stopRunning .exit) :
      ThreadStep s { s with running := false, pc := .done }
  | stopNoUpdate {w : Waiter} (hpc : s.pc = .stopRunning (.noUpdate w)) :
      ThreadStep s ({ s with running := false }.noUpdate w)

theorem threadStep_cases {s s' : State} (hs : s.threadStep = some s') : ThreadStep s s' := by
  unfold threadStep at hs
  cases hc : s.pc with
  -- here the thread waits for a reply of the exchange, or has ended
  | loadTickSize => rw [hc] at hs; cases hs
  | fetch attempt => rw [hc] at hs; cases hs
  | done => rw [hc] at hs; cases hs
  | setAskTickSize tickSize =>
      rw [hc] at hs
      obtain rfl := Option.some.inj hs
      exact .setAskTickSize hc
  | waiting w =>
      rw [hc] at hs
      obtain rfl := Option.some.inj hs
      split
      · exact .empty hc ‹_›
      · split
        · subst w
          exact .started hc ‹_›
        · exact .arrived hc ‹_› ‹_›
  | checkRunning w =>
      rw [hc] at hs
      obtain rfl := Option.some.inj hs
      split
      · exact .goOn hc ‹_›
      · exact .stopping hc (Bool.eq_false_iff.mpr ‹_›)
  | checkStream w =>
      rw [hc] at hs
      obtain rfl := Option.some.inj hs
      split
      · exact .connected hc ‹_›
      · exact .disconnected hc (Bool.eq_false_iff.mpr ‹_›)
  | take w =>
      rw [hc] at hs
      cases hb : s.bufferOut with
      | nil => simp only [hb] at hs; cases hs
      | cons item rest =>
          simp only [hb] at hs
          obtain rfl := Option.some.inj hs
          split
          · subst w
            exact .takeInner hc hb
          · exact .takeFirst hc ‹_› hb
  | loopHead =>
      rw [hc] at hs
      obtain rfl := Option.some.inj hs
      split
      · exact .enter hc ‹_›
      · exact .leave hc (Bool.eq_false_iff.mpr ‹_›)
  | resync =>
      rw [hc] at hs
      obtain rfl := Option.some.inj hs
      exact .resync hc
  | retry attempt =>
      rw [hc] at hs
      obtain rfl := Option.some.inj hs
      split
      · exact .retry hc ‹_›
      · exact .giveUp hc (Bool.eq_false_iff.mpr ‹_›)
  -- a write of the book waits for a reader that holds the lock
  | applySnapshot =>
      rw [hc] at hs
      dsimp only at hs
      split at hs
      · obtain rfl := Option.some.inj hs
        exact .applySnapshot hc ‹_›
      · cases hs
  | applyFirst event =>
      rw [hc] at hs
      dsimp only at hs
      split at hs
      · obtain rfl := Option.some.inj hs
        exact .applyFirst hc ‹_›
      · cases hs
  | applyInner event =>
      rw [hc] at hs
      dsimp only at hs
      split at hs
      · obtain rfl := Option.some.inj hs
        exact .applyInner hc ‹_›
      · cases hs
  | release slot r =>
      rw [hc] at hs
      obtain rfl := Option.some.inj hs
      exact .release hc
  | firstFailed =>
      rw [hc] at hs
      obtain rfl := Option.some.inj hs
      split
      · split
        · exact .outdated hc ‹_› ‹_›
        · exact .again hc ‹_› ‹_›
      · exact .ended hc (Bool.eq_false_iff.mpr ‹_›)
  | storeSynced =>
      rw [hc] at hs
      obtain rfl := Option.some.inj hs
      exact .storeSynced hc
  | stopSynced next =>
      rw [hc] at hs
      obtain rfl := Option.some.inj hs
      exact .stopSynced hc
  | stopRunning next =>
      rw [hc] at hs
      obtain rfl := Option.some.inj hs
      cases next with
      | exit => exact .stopExit hc
      | noUpdate w => exact .stopNoUpdate hc

end State

/-! ## The system -/

/-- The update thread and everything it runs beside. -/
inductive Act where
  | thread
  | exchangeInfo (reply : Option Int)
  | depthSnapshot (reply : SnapshotReply)
  /-- the stream thread enqueues an item -/
  | deliver (item : OrderbookArrays)
  | closeStream
  /-- the destructor's store to `running` -/
  | destroy
  | readerLock (reader : Nat)
  | readerUnlock

def step (s : State) : Act → Option State
  | .thread => s.threadStep
  | .exchangeInfo reply => if s.pc matches .loadTickSize then some (s.tickSizeReply reply) else none
  | .depthSnapshot reply =>
      match s.pc with
      | .fetch attempt => some (s.snapshotReply attempt reply)
      | _ => none
  | .deliver item => some { s with bufferOut := s.bufferOut ++ [item] }
  | .closeStream => some { s with streamRunning := false }
  | .destroy => some { s with running := false }
  | .readerLock reader =>
      if s.updatingLock = none then some { s with updatingLock := some reader } else none
  | .readerUnlock =>
      if s.updatingLock = none then none else some { s with updatingLock := none }

/-- One constructor for each way an action other than a step of the thread can go. -/
inductive OtherStep (s : State) : Act → State → Prop
  | infoFailed (hpc : s.pc = .loadTickSize) :
      OtherStep s (.exchangeInfo none) (s.stop .FETCH_FAILED .exit)
  | infoRefused {tickSize : Int} (hpc : s.pc = .loadTickSize) (hle : tickSize ≤ 0) :
      OtherStep s (.exchangeInfo (some tickSize)) (s.stop .BAD_FIELD .exit)
  | infoLoaded {tickSize : Int} (hpc : s.pc = .loadTickSize) (hpos : 0 < tickSize) :
      OtherStep s (.exchangeInfo (some tickSize))
        { s with bidBook := s.bidBook.setTickSize tickSize, pc := .setAskTickSize tickSize }
  | fetched {attempt : Nat} {r : DepthResponse} (hpc : s.pc = .fetch attempt) :
      OtherStep s (.depthSnapshot (.success r))
        { s with
          orderbookSnapshot := (fetchOrderbookSnapshot s.orderbookSnapshot (.success r)).1
          pc := .applySnapshot }
  | fetchRetried {attempt : Nat} {updateId : Int} (hpc : s.pc = .fetch attempt)
      (hleft : attempt + 1 < State.snapshotAttempts) :
      OtherStep s (.depthSnapshot (.failed updateId))
        { s with
          orderbookSnapshot := (fetchOrderbookSnapshot s.orderbookSnapshot (.failed updateId)).1
          pc := .retry (attempt + 1) }
  | fetchFailed {attempt : Nat} {updateId : Int} (hpc : s.pc = .fetch attempt)
      (hleft : ¬ attempt + 1 < State.snapshotAttempts) :
      OtherStep s (.depthSnapshot (.failed updateId))
        ({ s with
          orderbookSnapshot :=
            (fetchOrderbookSnapshot s.orderbookSnapshot (.failed updateId)).1 }.stop
          .FETCH_FAILED .exit)
  | deliver (item : OrderbookArrays) :
      OtherStep s (.deliver item) { s with bufferOut := s.bufferOut ++ [item] }
  | closeStream : OtherStep s .closeStream { s with streamRunning := false }
  | destroy : OtherStep s .destroy { s with running := false }
  | readerLock {reader : Nat} (hlock : s.updatingLock = none) :
      OtherStep s (.readerLock reader) { s with updatingLock := some reader }
  | readerUnlock (hlock : s.updatingLock ≠ none) :
      OtherStep s .readerUnlock { s with updatingLock := none }

theorem otherStep_of_step {s s' : State} {a : Act} (hs : step s a = some s')
    (hthread : a ≠ .thread) : OtherStep s a s' := by
  cases a with
  | thread => exact absurd rfl hthread
  -- the two replies that the thread waits for
  | exchangeInfo reply =>
      simp only [step] at hs
      split at hs
      · have hc : s.pc = .loadTickSize := by
          cases hc : s.pc <;> simp_all
        obtain rfl := Option.some.inj hs
        cases reply with
        | none => exact .infoFailed hc
        | some tickSize =>
            rw [State.tickSizeReply]
            split
            · exact .infoRefused hc ‹_›
            · exact .infoLoaded hc (by omega)
      · cases hs
  | depthSnapshot reply =>
      simp only [step] at hs
      split at hs
      · rename_i attempt hc
        obtain rfl := Option.some.inj hs
        cases reply with
        | success r => exact .fetched hc
        | failed updateId =>
            simp only [State.snapshotReply, fetchOrderbookSnapshot, Bool.false_eq_true, if_false]
            split
            · exact .fetchRetried hc ‹_›
            · exact .fetchFailed hc ‹_›
      · cases hs
  -- the other threads
  | deliver item =>
      obtain rfl := Option.some.inj hs
      exact .deliver item
  | closeStream =>
      obtain rfl := Option.some.inj hs
      exact .closeStream
  | destroy =>
      obtain rfl := Option.some.inj hs
      exact .destroy
  | readerLock reader =>
      simp only [step] at hs
      split at hs
      · obtain rfl := Option.some.inj hs
        exact .readerLock ‹_›
      · cases hs
  | readerUnlock =>
      simp only [step] at hs
      split at hs
      · cases hs
      · obtain rfl := Option.some.inj hs
        exact .readerUnlock ‹_›

/-- The book at the end of its constructor. `slots` and `updateId` are what the uninitialised
members hold. -/
def construct (slots : Bool → Nat → Nat → Nat) (updateId : Int) : State where
  pc := .loadTickSize
  bidBook := SortedBook.construct true (slots true)
  askBook := SortedBook.construct false (slots false)
  orderbookSnapshot := ⟨fun _ => [], fun _ => 0, updateId⟩
  updateID := 0
  synced := false
  running := true
  lastError := none
  failedSyncs := 0
  bufferOut := []
  streamRunning := true
  updatingLock := none
  released := []
  offered := []

end AstraConnect.Orderbook
