import AstraConnect.Orderbook.BookData

set_option autoImplicit false

/-! # A proof rule for `executionLoop`

`executionLoop` goes through phases: after `applySnapshot` the book is *fresh*, after the first
event that could be applied it is *aligned* with the stream, and when the inner loop has ended it
may still be called synced until `resync` stores `false`. A `LoopRule` gives a property of the
book's data for each phase and the obligations of the three sections under the lock;
`LoopRule.reach` then gives the phase's property in every reachable state, whatever the
interleaving with the readers, the stream, the exchange and the destructor.
-/

namespace AstraConnect.Orderbook

open Transition BookData

/-- The book is aligned with the stream: from the return of `applyFirstUpdate` with `true` until
the inner loop meets an event it does not apply. -/
def Pc.inSync : Pc → Bool
  | .release _ (.first true) => true
  | .storeSynced => true
  | .waiting .inner => true
  | .checkRunning .inner => true
  | .checkStream .inner => true
  | .take .inner => true
  | .applyInner _ => true
  | .release _ (.inner true) => true
  | _ => false

/-- Properties of the book's data for the phases of the loop, and why they hold. -/
structure LoopRule (ok : State → Act → Prop) where
  /-- what is known of the tick size, of a delivered event and of a filled snapshot buffer -/
  tick : Int → Prop
  event : DepthEvent → Prop
  fetched : OrderbookSnapshotIncoming → Prop
  /-- the phases -/
  fresh : BookData → Prop
  aligned : BookData → Prop
  ended : BookData → Prop
  tick_ok : ∀ s tickSize, ok s (.exchangeInfo (some tickSize)) → 0 < tickSize → tick tickSize
  event_ok : ∀ s e, ok s (.deliver (some e)) → event e
  fetched_ok : ∀ s r o, ok s (.depthSnapshot (.success r)) →
    fetched (fetchOrderbookSnapshot o (.success r)).1
  snapshot : ∀ tickSize b, tick tickSize → Ready tickSize b → fetched b.orderbookSnapshot →
    fresh b.applySnapshot
  first : ∀ tickSize b e, tick tickSize → Ready tickSize b → fresh b → event e →
    b.updateID ≤ e.u → e.U ≤ b.updateID → (b.applyUpdate e).2 = true →
    aligned (b.applyUpdate e).1
  inner : ∀ tickSize s e, ok s .thread → s.pc = .applyInner e → tick tickSize →
    Ready tickSize s.toBookData → aligned s.toBookData → event e → e.pu = s.updateID →
    ((s.toBookData.applyUpdate e).2 = true → aligned (s.toBookData.applyUpdate e).1) ∧
    ((s.toBookData.applyUpdate e).2 = false → ended (s.toBookData.applyUpdate e).1)
  aligned_ended : ∀ b, aligned b → ended b

namespace LoopRule

variable {ok : State → Act → Prop} (R : LoopRule ok)

/-- The tick size has been loaded into both books. -/
def Loaded (b : BookData) : Prop := ∃ tickSize, R.tick tickSize ∧ Ready tickSize b

def WaitInv (synced : Bool) (b : BookData) : Waiter → Prop
  | .start => synced = false ∧ R.Loaded b
  | .first => synced = false ∧ R.Loaded b ∧ R.fresh b
  | .inner => R.Loaded b ∧ R.aligned b

/-- What holds at each program counter. -/
def PcInv (synced : Bool) (b : BookData) : Pc → Prop
  | .loadTickSize => synced = false ∧ b.bidBook.Inv ∧ b.askBook.Inv
  | .setAskTickSize tickSize =>
      synced = false ∧ b.bidBook.Inv ∧ b.askBook.Inv ∧ b.bidBook.tickSize = tickSize ∧
        R.tick tickSize
  | .waiting w => R.WaitInv synced b w
  | .checkRunning w => R.WaitInv synced b w
  | .checkStream w => R.WaitInv synced b w
  | .take w => w ≠ .start ∧ R.WaitInv synced b w
  | .loopHead => R.Loaded b ∧ (synced = true → R.ended b)
  | .resync => R.Loaded b ∧ (synced = true → R.ended b)
  | .fetch _ => synced = false ∧ R.Loaded b
  | .retry _ => synced = false ∧ R.Loaded b
  | .applySnapshot => synced = false ∧ R.Loaded b ∧ R.fetched b.orderbookSnapshot
  | .applyFirst e =>
      synced = false ∧ R.Loaded b ∧ R.fresh b ∧ R.event e ∧ b.updateID ≤ e.u ∧ e.U ≤ b.updateID
  | .applyInner e => R.Loaded b ∧ R.aligned b ∧ R.event e ∧ e.pu = b.updateID
  | .release _ .skipped => synced = false ∧ R.Loaded b ∧ R.fresh b
  | .release _ (.first true) => R.Loaded b ∧ R.aligned b
  | .release _ (.first false) => synced = false ∧ R.Loaded b
  | .release _ (.inner true) => R.Loaded b ∧ R.aligned b
  | .release _ (.inner false) => R.Loaded b ∧ (synced = true → R.ended b)
  | .firstFailed => synced = false ∧ R.Loaded b
  | .storeSynced => R.Loaded b ∧ R.aligned b
  | .stopSynced .exit => synced = true → R.ended b
  | .stopSynced (.noUpdate _) => R.Loaded b ∧ (synced = true → R.ended b)
  | .stopRunning .exit => synced = false
  | .stopRunning (.noUpdate _) => synced = false ∧ R.Loaded b
  | .done => synced = true → R.ended b

/-- The invariant of the rule. -/
structure LoopInv (s : State) : Prop where
  events : ∀ e, some e ∈ s.bufferOut → R.event e
  pc : R.PcInv s.synced s.toBookData s.pc

variable {R}

theorem WaitInv.loaded {synced : Bool} {b : BookData} {w : Waiter} (h : R.WaitInv synced b w) :
    R.Loaded b := by
  cases w with
  | start => exact h.2
  | first => exact h.2.1
  | inner => exact h.1

theorem WaitInv.ended {synced : Bool} {b : BookData} {w : Waiter} (h : R.WaitInv synced b w) :
    synced = true → R.ended b := by
  intro hs
  cases w with
  | start => rw [h.1] at hs; cases hs
  | first => rw [h.1] at hs; cases hs
  | inner => exact R.aligned_ended b h.2

/-- **A state called synced is aligned or has just ended.** -/
theorem PcInv.ended {synced : Bool} {b : BookData} {pc : Pc} (h : R.PcInv synced b pc)
    (hs : synced = true) : R.ended b := by
  subst hs
  cases pc with
  | waiting w => exact WaitInv.ended h rfl
  | checkRunning w => exact WaitInv.ended h rfl
  | checkStream w => exact WaitInv.ended h rfl
  | take w => exact WaitInv.ended h.2 rfl
  | loopHead => exact h.2 rfl
  | resync => exact h.2 rfl
  | applyInner e => exact R.aligned_ended b h.2.1
  | storeSynced => exact R.aligned_ended b h.2
  | done => exact h rfl
  | release slot r =>
      rcases r with _ | (_ | _) | (_ | _)
      · cases h.1
      · cases h.1
      · exact R.aligned_ended b h.2
      · exact h.2 rfl
      · exact R.aligned_ended b h.2
  | stopSynced next =>
      cases next with
      | exit => exact h rfl
      | noUpdate w => exact h.2 rfl
  | stopRunning next =>
      cases next with
      | exit => cases h
      | noUpdate w => cases h.1
  | loadTickSize => cases h.1
  | setAskTickSize tickSize => cases h.1
  | fetch attempt => cases h.1
  | retry attempt => cases h.1
  | applySnapshot => cases h.1
  | applyFirst e => cases h.1
  | firstFailed => cases h.1

theorem PcInv.aligned {synced : Bool} {b : BookData} {pc : Pc} (h : R.PcInv synced b pc)
    (hs : pc.inSync = true) : R.Loaded b ∧ R.aligned b := by
  cases pc with
  | waiting w => cases w <;> first | exact h | cases hs
  | checkRunning w => cases w <;> first | exact h | cases hs
  | checkStream w => cases w <;> first | exact h | cases hs
  | take w => cases w <;> first | exact h.2 | cases hs
  | applyInner e => exact ⟨h.1, h.2.1⟩
  | storeSynced => exact h
  | release slot r => rcases r with _ | (_ | _) | (_ | _) <;> first | exact h | cases hs
  | _ => cases hs

/-- `waitForUpdate` returns false, with `synced` as it was or already cleared. -/
theorem pcInv_noUpdate {s : State} {w : Waiter} (hl : R.Loaded s.toBookData)
    (hsync : s.synced = true → R.ended s.toBookData) (hfirst : w = .first → s.synced = false) :
    R.PcInv (s.noUpdate w).synced (s.noUpdate w).toBookData (s.noUpdate w).pc := by
  cases w with
  | start => exact hsync
  | first => exact ⟨hfirst rfl, hl⟩
  | inner => exact ⟨hl, hsync⟩

theorem noUpdate_bufferOut (s : State) (w : Waiter) : (s.noUpdate w).bufferOut = s.bufferOut := by
  cases w <;> rfl

/-! ## Steps of the update thread -/

/-- Taking an item off the queue. -/
theorem pcInv_take {s : State} {w : Waiter} {item : OrderbookArrays}
    (h : R.WaitInv s.synced s.toBookData w) (hw : w ≠ .start)
    (hitem : ∀ e, item = some e → R.event e) :
    R.PcInv s.synced s.toBookData
      (if w = .inner then s.decideInner item else s.decideFirst item) := by
  cases w with
  | start => exact absurd rfl hw
  | first =>
      obtain ⟨hs, hl, hf⟩ := h
      rw [if_neg (by decide)]
      cases item with
      | none => exact ⟨hs, hl⟩
      | some e =>
          simp only [State.decideFirst]
          split
          · exact ⟨hs, hl, hf⟩
          · split
            · exact ⟨hs, hl, hf, hitem e rfl, by omega, by omega⟩
            · exact ⟨hs, hl⟩
  | inner =>
      obtain ⟨hl, ha⟩ := h
      rw [if_pos rfl]
      cases item with
      | none => exact ⟨hl, fun _ => R.aligned_ended _ ha⟩
      | some e =>
          simp only [State.decideInner]
          split
          · next hpu => exact ⟨hl, ha, hitem e rfl, hpu⟩
          · exact ⟨hl, fun _ => R.aligned_ended _ ha⟩

theorem loopInv_thread {s s' : State} (h : R.LoopInv s) (hok : ok s .thread)
    (hs : s.threadStep = some s') : R.LoopInv s' := by
  obtain ⟨hev, hpc⟩ := h
  -- from `resync` on `synced` is false, until the first event has been applied
  have hout : ∀ {p : Prop}, s.synced = false → s.synced = true → p := fun hfalse ht => by
    rw [hfalse] at ht
    cases ht
  -- the guards of the loop change nothing; the snapshot and the two kinds of events use the rule
  cases State.threadStep_cases hs with
  | setAskTickSize hc =>
      rw [hc] at hpc
      obtain ⟨h1, h2, h3, h4, h5⟩ := hpc
      exact ⟨hev, h1, _, h5, h2, SortedBook.inv_setTickSize h3 _, h4, rfl⟩
  | empty hc _ => rw [hc] at hpc; exact ⟨hev, hpc⟩
  | started hc _ =>
      rw [hc] at hpc
      exact ⟨hev, hpc.2, WaitInv.ended (w := .start) hpc⟩
  | arrived hc hw _ => rw [hc] at hpc; exact ⟨hev, hw, hpc⟩
  | goOn hc _ => rw [hc] at hpc; exact ⟨hev, hpc⟩
  | stopping hc _ =>
      rw [hc] at hpc
      refine ⟨by rw [noUpdate_bufferOut]; exact hev, ?_⟩
      refine pcInv_noUpdate (WaitInv.loaded hpc) (WaitInv.ended hpc) ?_
      rintro rfl
      exact hpc.1
  | connected hc _ => rw [hc] at hpc; exact ⟨hev, hpc⟩
  | disconnected hc _ =>
      rw [hc] at hpc
      exact ⟨hev, WaitInv.loaded hpc, WaitInv.ended hpc⟩
  | @takeFirst w item rest hc hw hb =>
      rw [hc] at hpc
      refine ⟨fun e he => hev e (by rw [hb]; exact List.mem_cons_of_mem _ he), ?_⟩
      have htake := pcInv_take hpc.2 hpc.1
        (fun e (he : item = some e) => hev e (by rw [hb, he]; exact List.mem_cons_self ..))
      rw [if_neg hw] at htake
      exact htake
  | @takeInner item rest hc hb =>
      rw [hc] at hpc
      refine ⟨fun e he => hev e (by rw [hb]; exact List.mem_cons_of_mem _ he), ?_⟩
      exact pcInv_take hpc.2 hpc.1
        (fun e (he : item = some e) => hev e (by rw [hb, he]; exact List.mem_cons_self ..))
  | enter hc _ => rw [hc] at hpc; exact ⟨hev, hpc⟩
  | leave hc _ => rw [hc] at hpc; exact ⟨hev, hpc.2⟩
  | resync hc => rw [hc] at hpc; exact ⟨hev, rfl, hpc.1⟩
  | retry hc _ => rw [hc] at hpc; exact ⟨hev, hpc⟩
  | giveUp hc _ =>
      rw [hc] at hpc
      exact ⟨hev, fun ht => hout hpc.1 ht⟩
  | applySnapshot hc _ =>
      rw [hc] at hpc
      obtain ⟨h1, ⟨tickSize, ht, hr⟩, h3⟩ := hpc
      exact ⟨hev, h1, ⟨tickSize, ht, (applySnapshot_spec hr).1⟩, R.snapshot tickSize _ ht hr h3⟩
  | @applyFirst e hc _ =>
      rw [hc] at hpc
      obtain ⟨h1, ⟨tickSize, ht, hr⟩, hf, he, hu, hU⟩ := hpc
      refine ⟨hev, ?_⟩
      have hl : R.Loaded (s.toBookData.applyUpdate e).1 :=
        ⟨tickSize, ht, (applyUpdate_spec hr e).1⟩
      show R.PcInv s.synced (s.toBookData.applyUpdate e).1
        (.release e.slot (.first (s.toBookData.applyUpdate e).2))
      -- only an event that fits the book aligns it
      cases hres : (s.toBookData.applyUpdate e).2 with
      | true => exact ⟨hl, R.first tickSize _ e ht hr hf he hu hU hres⟩
      | false => exact ⟨h1, hl⟩
  | @applyInner e hc _ =>
      rw [hc] at hpc
      obtain ⟨⟨tickSize, ht, hr⟩, ha, he, hpu⟩ := hpc
      obtain ⟨htrue, hfalse⟩ := R.inner tickSize s e hok hc ht hr ha he hpu
      have hl : R.Loaded (s.toBookData.applyUpdate e).1 :=
        ⟨tickSize, ht, (applyUpdate_spec hr e).1⟩
      refine ⟨hev, ?_⟩
      show R.PcInv s.synced (s.toBookData.applyUpdate e).1
        (.release e.slot (.inner (s.toBookData.applyUpdate e).2))
      cases hres : (s.toBookData.applyUpdate e).2 with
      | true => exact ⟨hl, htrue hres⟩
      | false => exact ⟨hl, fun _ => hfalse hres⟩
  | @release slot r hc =>
      rw [hc] at hpc
      rcases r with _ | (_ | _) | (_ | _) <;> exact ⟨hev, hpc⟩
  | outdated hc _ _ =>
      rw [hc] at hpc
      exact ⟨hev, fun ht => hout hpc.1 ht⟩
  | again hc _ _ =>
      rw [hc] at hpc
      exact ⟨hev, hpc.2, fun ht => hout hpc.1 ht⟩
  | ended hc _ =>
      rw [hc] at hpc
      exact ⟨hev, fun ht => hout hpc.1 ht⟩
  | storeSynced hc => rw [hc] at hpc; exact ⟨hev, hpc⟩
  | @stopSynced next hc =>
      rw [hc] at hpc
      cases next with
      | exit => exact ⟨hev, rfl⟩
      | noUpdate w => exact ⟨hev, rfl, hpc.1⟩
  | stopExit hc =>
      rw [hc] at hpc
      exact ⟨hev, fun ht => hout hpc ht⟩
  | stopNoUpdate hc =>
      rw [hc] at hpc
      refine ⟨by rw [noUpdate_bufferOut]; exact hev, ?_⟩
      exact pcInv_noUpdate hpc.2 (fun ht => hout hpc.1 ht) (fun _ => hpc.1)

theorem loopInv_step {s s' : State} {a : Act} (h : R.LoopInv s) (hok : ok s a)
    (hs : step s a = some s') : R.LoopInv s' := by
  by_cases hthread : a = .thread
  · subst hthread
    exact loopInv_thread h hok hs
  obtain ⟨hev, hinv⟩ := h
  -- the answers of the exchange find the thread out of sync
  cases otherStep_of_step hs hthread with
  | infoFailed hpc =>
      rw [hpc] at hinv
      exact ⟨hev, fun ht => absurd ht (Bool.eq_false_iff.mp hinv.1)⟩
  | infoRefused hpc =>
      rw [hpc] at hinv
      exact ⟨hev, fun ht => absurd ht (Bool.eq_false_iff.mp hinv.1)⟩
  | @infoLoaded tickSize hpc hpos =>
      rw [hpc] at hinv
      obtain ⟨hsynced, hbid, hask⟩ := hinv
      exact ⟨hev, hsynced, SortedBook.inv_setTickSize hbid tickSize, hask, rfl,
        R.tick_ok s tickSize hok hpos⟩
  | @fetched attempt r hpc =>
      rw [hpc] at hinv
      obtain ⟨hsynced, tickSize, ht, hr⟩ := hinv
      exact ⟨hev, hsynced, ⟨tickSize, ht, hr.bid, hr.ask, hr.bid_tickSize, hr.ask_tickSize⟩,
        R.fetched_ok s r s.orderbookSnapshot hok⟩
  | fetchRetried hpc =>
      rw [hpc] at hinv
      obtain ⟨hsynced, tickSize, ht, hr⟩ := hinv
      exact ⟨hev, hsynced, tickSize, ht, hr.bid, hr.ask, hr.bid_tickSize, hr.ask_tickSize⟩
  | fetchFailed hpc =>
      rw [hpc] at hinv
      exact ⟨hev, fun ht => absurd ht (Bool.eq_false_iff.mp hinv.1)⟩
  | deliver item =>
      refine ⟨fun e he => ?_, hinv⟩
      rcases List.mem_append.mp he with he | he
      · exact hev e he
      · obtain rfl := List.mem_singleton.mp he
        exact R.event_ok s e hok
  | closeStream => exact ⟨hev, hinv⟩
  | destroy => exact ⟨hev, hinv⟩
  | readerLock => exact ⟨hev, hinv⟩
  | readerUnlock => exact ⟨hev, hinv⟩

/-- **The rule.** Every reachable state satisfies the property of its phase. -/
theorem reach (R : LoopRule ok) {slots : Bool → Nat → Nat → Nat} {updateId : Int} {s : State}
    (h : Reach step ok (construct slots updateId) s) : R.LoopInv s := by
  refine h.invariant ⟨fun e he => ?_, rfl, SortedBook.inv_construct _ _,
    SortedBook.inv_construct _ _⟩ (fun s a s' hi hok hs => loopInv_step hi hok hs)
  cases he

end LoopRule

/-- The books are intact and have their tick size whenever the thread works on them. -/
def intactRule : LoopRule (fun _ _ => True) where
  tick tickSize := 0 < tickSize
  event _ := True
  fetched _ := True
  fresh _ := True
  aligned _ := True
  ended _ := True
  tick_ok _ _ _ h := h
  event_ok _ _ _ := trivial
  fetched_ok _ _ _ _ := trivial
  snapshot _ _ _ _ _ := trivial
  first _ _ _ _ _ _ _ _ _ _ := trivial
  inner _ _ _ _ _ _ _ _ _ _ := ⟨fun _ => trivial, fun _ => trivial⟩
  aligned_ended _ _ := trivial

/-! ## The buffer after a fetch

A fetch resets the buffer and registers the entries of the response. So it starts at its first
entry, whatever was in the buffer before. -/

/-- Registering entries moves no cursor and keeps the id. -/
theorem foldl_registerEntry (isBid : Bool) (l : List Entry) (o : OrderbookSnapshotIncoming) :
    (l.foldl (fun o e => o.registerEntry e isBid) o).given = o.given ∧
      (l.foldl (fun o e => o.registerEntry e isBid) o).updateId = o.updateId := by
  induction l generalizing o with
  | nil => exact ⟨rfl, rfl⟩
  | cons e l ih =>
      rw [List.foldl_cons, (ih _).1, (ih _).2, OrderbookSnapshotIncoming.registerEntry]
      split <;> exact ⟨rfl, rfl⟩

/-- A successful fetch leaves both cursors at the start. -/
theorem given_fetch (o : OrderbookSnapshotIncoming) (r : DepthResponse) :
    (fetchOrderbookSnapshot o (.success r)).1.given = fun _ => 0 := by
  unfold fetchOrderbookSnapshot
  rw [(foldl_registerEntry _ _ _).1, (foldl_registerEntry _ _ _).1]
  rfl

theorem updateId_fetch (o : OrderbookSnapshotIncoming) (r : DepthResponse) :
    (fetchOrderbookSnapshot o (.success r)).1.updateId = r.lastUpdateId := by
  unfold fetchOrderbookSnapshot
  rw [(foldl_registerEntry _ _ _).2, (foldl_registerEntry _ _ _).2]

theorem registered_foldl (isBid : Bool) (l : List Entry) (o : OrderbookSnapshotIncoming)
    (h : (o.registered isBid).length + l.length ≤ OrderbookSnapshotIncoming.CAPACITY) :
    (l.foldl (fun o e => o.registerEntry e isBid) o).registered
      = Function.update o.registered isBid (o.registered isBid ++ l) := by
  induction l generalizing o with
  | nil => rw [List.append_nil, Function.update_eq_self, List.foldl_nil]
  | cons e l ih =>
      rw [List.length_cons] at h
      have hreg : (o.registerEntry e isBid).registered
          = Function.update o.registered isBid (o.registered isBid ++ [e]) := by
        rw [OrderbookSnapshotIncoming.registerEntry, if_neg (by omega)]
      rw [List.foldl_cons, ih, hreg, Function.update_idem, Function.update_self, List.append_assoc]
      · rfl
      · rw [hreg, Function.update_self, List.length_append, List.length_singleton]
        omega

/-- A response that fits the arrays is registered as it is. -/
theorem registered_fetch (o : OrderbookSnapshotIncoming) {r : DepthResponse}
    (h : ∀ side, (r.levels side).length ≤ OrderbookSnapshotIncoming.CAPACITY) :
    (fetchOrderbookSnapshot o (.success r)).1.registered = r.levels := by
  set start := { o.reset with updateId := r.lastUpdateId } with hstart
  have hempty : start.registered = fun _ => [] := rfl
  have hbids := registered_foldl true (r.levels true) start
    (by rw [hempty, List.length_nil, Nat.zero_add]; exact h true)
  have hasks := registered_foldl false (r.levels false)
    ((r.levels true).foldl (fun o e => o.registerEntry e true) start)
    (by
      rw [hbids, Function.update_of_ne (by decide), hempty, List.length_nil, Nat.zero_add]
      exact h false)
  refine hasks.trans ?_
  rw [hbids, hempty]
  funext side
  cases side <;> simp [Function.update_of_ne]

/-! ## The way to a synced book

A run that is known to the end: a new book, an answer for the tick size, one snapshot and one
event. It shows that the phases of the rule are reached. -/

section sync

variable (slots : Bool → Nat → Nat → Nat) (updateId tickSize : Int) (r : DepthResponse)

/-- The data of a new book, with the tick size loaded and a snapshot fetched. -/
def fetchedData : BookData :=
  let b := (construct slots updateId).toBookData
  { b with
    bidBook := b.bidBook.setTickSize tickSize
    askBook := b.askBook.setTickSize tickSize
    orderbookSnapshot := (fetchOrderbookSnapshot b.orderbookSnapshot (.success r)).1 }

/-- The steps taken on the way: one answer of each kind, one event, and the thread outside the
inner loop's `applyUpdate`. -/
def OnTheWay (e : DepthEvent) (s : State) (a : Act) : Prop :=
  a = .exchangeInfo (some tickSize) ∨ a = .depthSnapshot (.success r) ∨ a = .deliver (some e) ∨
    a = .thread ∧ ∀ e', s.pc ≠ .applyInner e'

theorem ready_fetchedData : Ready tickSize (fetchedData slots updateId tickSize r) :=
  ⟨SortedBook.inv_setTickSize (SortedBook.inv_construct _ _) tickSize,
    SortedBook.inv_setTickSize (SortedBook.inv_construct _ _) tickSize, rfl, rfl⟩

/-- **A snapshot and an event that straddles it sync the book**, if the event fits. -/
theorem reach_synced {e : DepthEvent} (hts : 0 < tickSize) (hu : r.lastUpdateId ≤ e.u)
    (hU : e.U ≤ r.lastUpdateId)
    (hfits : ((fetchedData slots updateId tickSize r).applySnapshot.applyUpdate e).2 = true) :
    ∃ s, Reach step (OnTheWay tickSize r e) (construct slots updateId) s ∧
      s.toBookData = ((fetchedData slots updateId tickSize r).applySnapshot.applyUpdate e).1 ∧
      s.pc = .waiting .inner ∧ s.synced = true ∧ s.updatingLock = none ∧ s.bufferOut = [] := by
  set fresh := (fetchedData slots updateId tickSize r).applySnapshot with hfresh
  have hid : fresh.updateID = r.lastUpdateId := by
    rw [hfresh, (applySnapshot_spec (ready_fetchedData slots updateId tickSize r)).2.2.2.2.1]
    exact updateId_fetch _ r
  have hthread : ∀ s : State, (∀ e', s.pc ≠ .applyInner e') → OnTheWay tickSize r e s .thread :=
    fun s h => Or.inr (Or.inr (Or.inr ⟨rfl, h⟩))
  set s0 := construct slots updateId with hs0
  have h1 : Reach step (OnTheWay tickSize r e) s0
      { s0 with bidBook := s0.bidBook.setTickSize tickSize, pc := .setAskTickSize tickSize } := by
    refine Reach.refl.tail (a := .exchangeInfo (some tickSize)) (Or.inl rfl) ?_
    show some (s0.tickSizeReply (some tickSize)) = _
    rw [State.tickSizeReply, if_neg (by omega)]
  -- the event arrives, and the thread goes on to the fetch
  have h2 := (h1.tail (a := .thread) (hthread _ (fun _ h => by cases h)) rfl).tail
    (a := .deliver (some e)) (Or.inr (Or.inr (Or.inl rfl))) rfl
  have h3 := ((h2.tail (a := .thread) (hthread _ (fun _ h => by cases h)) rfl).tail
    (a := .thread) (hthread _ (fun _ h => by cases h)) rfl).tail
    (a := .thread) (hthread _ (fun _ h => by cases h)) rfl
  -- the snapshot is applied and the event taken
  have h4 := ((h3.tail (a := .depthSnapshot (.success r)) (Or.inr (Or.inl rfl)) rfl).tail
    (a := .thread) (hthread _ (fun _ h => by cases h)) rfl).tail
    (a := .thread) (hthread _ (fun _ h => by cases h)) rfl
  have h5 : Reach step (OnTheWay tickSize r e) s0
      { s0 with toBookData := fresh, bufferOut := [], pc := .applyFirst e } := by
    refine h4.tail (a := .thread) (hthread _ (fun _ h => by cases h)) ?_
    show some { s0 with
      toBookData := fresh
      bufferOut := []
      pc := if e.u < fresh.updateID then .release e.slot .skipped
        else if e.U ≤ fresh.updateID then .applyFirst e
        else .release e.slot (.first false) } = _
    rw [if_neg (by omega), if_pos (by omega)]
  have h6 : Reach step (OnTheWay tickSize r e) s0
      { s0 with
        toBookData := (fresh.applyUpdate e).1
        bufferOut := []
        pc := .release e.slot (.first true) } := by
    refine h5.tail (a := .thread) (hthread _ (fun _ h => by cases h)) ?_
    show some { s0 with
      toBookData := (fresh.applyUpdate e).1
      bufferOut := []
      pc := .release e.slot (.first (fresh.applyUpdate e).2) } = _
    rw [hfits]
  have h7 := (h6.tail (a := .thread) (hthread _ (fun _ h => by cases h)) rfl).tail
    (a := .thread) (hthread _ (fun _ h => by cases h)) rfl
  exact ⟨_, h7, rfl, rfl, rfl, rfl, rfl⟩

/-- An answer of the exchange for an empty book. -/
def emptyResponse : DepthResponse := ⟨10, fun _ => []⟩

theorem sides_emptyResponse (side : Bool) :
    (fetchedData slots updateId 1 emptyResponse).applySnapshot.sides side = ∅ :=
  (applySnapshot_spec (ready_fetchedData slots updateId 1 emptyResponse)).2.1 side

theorem applyUpdate_emptyResponse {e : DepthEvent} (h : EventFits 1 (fun _ => ∅) e) :
    ((fetchedData slots updateId 1 emptyResponse).applySnapshot.applyUpdate e).2 = true := by
  have hr := (applySnapshot_spec (ready_fetchedData slots updateId 1 emptyResponse)).1
  refine (applyUpdate_spec hr e).2.2.1.mpr (fun side => ?_)
  rw [sides_emptyResponse]
  exact h side

end sync

end AstraConnect.Orderbook
