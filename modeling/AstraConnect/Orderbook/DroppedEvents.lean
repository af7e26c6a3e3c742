import AstraConnect.Orderbook.ExecutionLoop

set_option autoImplicit false

/-! # A burst of dropped events

While the update thread is busy the stream can queue any number of dropped markers. Each marker
that `applyFirstUpdate` takes uses up one snapshot and is counted like a snapshot that does not
align with the stream; a first event without room for its levels is counted too. `Watched` keeps
the number of such snapshots in a row beside the book. Where every fetch succeeds, the stream stays
connected and an unbroken chain follows the markers, these are all that is counted: the book does
not give up while there are fewer than `maxFailedSyncs` of them (`burst_not_outdated`).
-/

namespace AstraConnect.Orderbook

open Transition BookData State

/-- Depth events of which each continues where the one before it ended. -/
structure Chain where
  event : Nat → DepthEvent
  unbroken : ∀ i, (event (i + 1)).pu = (event i).u
  ordered : ∀ i, (event i).U ≤ (event i).u
  later : ∀ i, (event i).u < (event (i + 1)).U

/-- An id falls inside an event of the chain at `start` or behind it. -/
def Chain.Inside (c : Chain) (start : Nat) (id : Int) : Prop :=
  ∃ i, start ≤ i ∧ (c.event i).U ≤ id ∧ id ≤ (c.event i).u

theorem Chain.u_lt (c : Chain) {i j : Nat} (h : i < j) : (c.event i).u < (c.event j).U := by
  induction j, h using Nat.le_induction with
  | base => exact c.later i
  | succ j _ ih =>
      calc (c.event i).u < (c.event j).U := ih
        _ ≤ (c.event j).u := c.ordered j
        _ < (c.event (j + 1)).U := c.later j

/-- The book, how many events of the chain the stream has delivered and the thread has taken, and
how many snapshots in a row a marker or an event without room has used up. -/
structure Watched where
  book : State
  delivered : Nat
  taken : Nat
  strikes : Nat

instance (tickSize : Int) (m : Bool → LevelMap) (e : DepthEvent) :
    Decidable (EventFits tickSize m e) :=
  inferInstanceAs (Decidable (∀ _, _ = _))

namespace Watched

def deliveredAfter (w : Watched) : Act → Nat
  | .deliver (some _) => w.delivered + 1
  | _ => w.delivered

def takenAfter (w : Watched) : Act → Nat
  | .thread =>
      match w.book.pc, w.book.bufferOut with
      | .take _, some _ :: _ => w.taken + 1
      | _, _ => w.taken
  | _ => w.taken

def strikesAfter (w : Watched) : Act → Nat
  | .thread =>
      match w.book.pc, w.book.bufferOut with
      | .take .first, none :: _ => w.strikes + 1
      | .applyFirst e, _ =>
          if EventFits w.book.bidBook.tickSize w.book.sides e then 0 else w.strikes + 1
      | _, _ => w.strikes
  | _ => w.strikes

end Watched

def watchStep (w : Watched) (a : Act) : Option Watched :=
  (step w.book a).map (fun s => ⟨s, w.deliveredAfter a, w.takenAfter a, w.strikesAfter a⟩)

/-- The runs in question: the stream stays connected and delivers markers, then the chain; every
fetch succeeds, with a snapshot that falls inside an event of the chain that is still to be
taken. -/
def Burst (c : Chain) (w : Watched) : Act → Prop
  | .deliver none => w.delivered = 0
  | .deliver (some e) => e = c.event w.delivered
  | .depthSnapshot reply => ∃ r, reply = .success r ∧ c.Inside w.taken r.lastUpdateId
  | .closeStream => False
  | _ => True

/-! ## The invariant

What is queued is the markers and then a part of the chain, and the counter of the book is the
number of strikes, up to the one that is about to be counted. -/

/-- What the queue holds of the chain. -/
def Chain.queued (c : Chain) (taken delivered : Nat) : List OrderbookArrays :=
  (List.range' taken (delivered - taken)).map (fun i => some (c.event i))

theorem Chain.queued_cons (c : Chain) {taken delivered : Nat} (h : taken < delivered) :
    c.queued taken delivered = some (c.event taken) :: c.queued (taken + 1) delivered := by
  unfold queued
  obtain ⟨n, rfl⟩ := Nat.exists_eq_add_of_lt h
  rw [show taken + n + 1 - taken = n + 1 by omega, List.range'_succ, List.map_cons,
    show taken + n + 1 - (taken + 1) = n by omega]

theorem Chain.queued_succ (c : Chain) {taken delivered : Nat} (h : taken ≤ delivered) :
    c.queued taken (delivered + 1) = c.queued taken delivered ++ [some (c.event delivered)] := by
  unfold queued
  rw [show delivered + 1 - taken = (delivered - taken) + 1 by omega, List.range'_concat,
    List.map_append]
  simp [show taken + (delivered - taken) = delivered by omega]

/-- The counter of the book and the one that is kept beside it, by the place of the thread. -/
def Watched.PcInv (c : Chain) (w : Watched) : Pc → Prop
  | .release _ (.first true) => w.strikes = 0
  | .release _ (.first false) => w.strikes = w.book.failedSyncs + 1
  | .firstFailed => w.book.running = true → w.strikes = w.book.failedSyncs + 1
  | .applySnapshot =>
      w.strikes = w.book.failedSyncs ∧ c.Inside w.taken w.book.orderbookSnapshot.updateId
  | .waiting .first => w.strikes = w.book.failedSyncs ∧ c.Inside w.taken w.book.updateID
  | .checkRunning .first => w.strikes = w.book.failedSyncs ∧ c.Inside w.taken w.book.updateID
  | .checkStream .first => w.strikes = w.book.failedSyncs ∧ c.Inside w.taken w.book.updateID
  | .take .first => w.strikes = w.book.failedSyncs ∧ c.Inside w.taken w.book.updateID
  | .release _ .skipped => w.strikes = w.book.failedSyncs ∧ c.Inside w.taken w.book.updateID
  | .stopSynced (.noUpdate _) => False
  | .stopRunning (.noUpdate _) => False
  | .stopSynced .exit => True
  | .stopRunning .exit => True
  | .done => True
  | _ => w.strikes = w.book.failedSyncs

structure Watched.Inv (c : Chain) (w : Watched) : Prop where
  loop : intactRule.LoopInv w.book
  stream : w.book.streamRunning = true
  le : w.taken ≤ w.delivered
  queue : ∃ m, w.book.bufferOut = List.replicate m none ++ c.queued w.taken w.delivered
  few : w.strikes < maxFailedSyncs
  error : w.book.lastError ≠ some .ORDERBOOK_OUTDATED
  pc : w.PcInv c w.book.pc

namespace Watched

variable {c : Chain} {w : Watched}

/-- A step that leaves the queue and the error alone. -/
theorem Inv.of_frame {s : State} {strikes : Nat} (h : w.Inv c) (hloop : intactRule.LoopInv s)
    (hstream : s.streamRunning = w.book.streamRunning) (hbuf : s.bufferOut = w.book.bufferOut)
    (herr : s.lastError = w.book.lastError) (hfew : strikes < maxFailedSyncs)
    (hpc : PcInv c ⟨s, w.delivered, w.taken, strikes⟩ s.pc) :
    Inv c ⟨s, w.delivered, w.taken, strikes⟩ := by
  obtain ⟨m, hqueue⟩ := h.queue
  exact ⟨hloop, hstream.trans h.stream, h.le, ⟨m, hbuf.trans hqueue⟩, hfew,
    fun he => h.error (herr.symm.trans he), hpc⟩

/-- A step that stops the book for another reason. -/
theorem Inv.of_stop {s : State} {err : APIError} (h : w.Inv c)
    (hloop : intactRule.LoopInv (s.stop err .exit))
    (hstream : s.streamRunning = w.book.streamRunning) (hbuf : s.bufferOut = w.book.bufferOut)
    (herr : err ≠ .ORDERBOOK_OUTDATED) :
    Inv c ⟨s.stop err .exit, w.delivered, w.taken, w.strikes⟩ := by
  obtain ⟨m, hqueue⟩ := h.queue
  exact ⟨hloop, hstream.trans h.stream, h.le, ⟨m, hbuf.trans hqueue⟩, h.few,
    fun he => herr (Option.some.inj he), trivial⟩

/-- The front of the queue: a marker, or the next event of the chain. -/
theorem Inv.front (h : w.Inv c) {item : OrderbookArrays} {rest : List OrderbookArrays}
    (hbuf : w.book.bufferOut = item :: rest) :
    (item = none ∧ ∃ m, rest = List.replicate m none ++ c.queued w.taken w.delivered) ∨
      (item = some (c.event w.taken) ∧ w.taken < w.delivered ∧
        rest = c.queued (w.taken + 1) w.delivered) := by
  obtain ⟨m, hqueue⟩ := h.queue
  rw [hbuf] at hqueue
  cases m with
  | succ m =>
      rw [List.replicate_succ, List.cons_append] at hqueue
      obtain ⟨rfl, rfl⟩ := List.cons.inj hqueue
      exact .inl ⟨rfl, m, rfl⟩
  | zero =>
      rw [List.replicate_zero, List.nil_append] at hqueue
      by_cases hlt : w.taken < w.delivered
      · rw [c.queued_cons hlt] at hqueue
        obtain ⟨rfl, rfl⟩ := List.cons.inj hqueue
        exact .inr ⟨rfl, hlt, rfl⟩
      · rw [Chain.queued, Nat.sub_eq_zero_of_le (by omega)] at hqueue
        cases hqueue

/-- A step that takes the front of the queue. -/
theorem Inv.of_take {s : State} {item : OrderbookArrays} {rest : List OrderbookArrays}
    {strikes taken : Nat} (h : w.Inv c) (hbuf : w.book.bufferOut = item :: rest)
    (htaken : taken = w.taken + if item.isSome then 1 else 0) (hloop : intactRule.LoopInv s)
    (hstream : s.streamRunning = w.book.streamRunning) (hrest : s.bufferOut = rest)
    (herr : s.lastError = w.book.lastError) (hfew : strikes < maxFailedSyncs)
    (hpc : PcInv c ⟨s, w.delivered, taken, strikes⟩ s.pc) :
    Inv c ⟨s, w.delivered, taken, strikes⟩ := by
  have hqueue : taken ≤ w.delivered ∧
      ∃ m, rest = List.replicate m none ++ c.queued taken w.delivered := by
    rcases h.front hbuf with ⟨rfl, m, hm⟩ | ⟨rfl, hlt, hm⟩
    · rw [htaken]
      exact ⟨h.le, m, hm⟩
    · rw [htaken]
      exact ⟨hlt, 0, hm⟩
  obtain ⟨hle, m, hm⟩ := hqueue
  exact ⟨hloop, hstream.trans h.stream, hle, ⟨m, hrest.trans hm⟩, hfew,
    fun he => h.error (herr.symm.trans he), hpc⟩

/-- The first event that a snapshot inside the chain does not cover straddles it. -/
theorem decideFirst_chain {s : State} {n : Nat} (hin : c.Inside n s.updateID) :
    (s.decideFirst (some (c.event n)) = .release (c.event n).slot .skipped ∧
        c.Inside (n + 1) s.updateID) ∨
      s.decideFirst (some (c.event n)) = .applyFirst (c.event n) := by
  obtain ⟨i, hle, hU, hu⟩ := hin
  rw [decideFirst]
  by_cases hlt : (c.event n).u < s.updateID
  · rw [if_pos hlt]
    refine .inl ⟨rfl, i, ?_, hU, hu⟩
    -- the event is not the one the snapshot falls inside
    rcases Nat.lt_or_eq_of_le hle with h | rfl
    · exact h
    · omega
  · have hn : n = i := by
      rcases Nat.lt_or_eq_of_le hle with h | h
      · have := c.u_lt h
        omega
      · exact h
    subst hn
    rw [if_neg hlt, if_pos hU]
    exact .inr rfl

theorem inv_noUpdate {s : State} {waiter : Waiter} (h : w.Inv c)
    (hloop : intactRule.LoopInv (s.noUpdate waiter))
    (hstream : s.streamRunning = w.book.streamRunning) (hbuf : s.bufferOut = w.book.bufferOut)
    (herr : s.lastError = w.book.lastError) (hrun : s.running = false)
    (hsyncs : w.strikes = s.failedSyncs) :
    Inv c ⟨s.noUpdate waiter, w.delivered, w.taken, w.strikes⟩ := by
  cases waiter with
  | start => exact h.of_frame hloop hstream hbuf herr h.few trivial
  | first =>
      refine h.of_frame hloop hstream hbuf herr h.few (fun htrue => ?_)
      rw [show s.running = true from htrue] at hrun
      cases hrun
  | inner => exact h.of_frame hloop hstream hbuf herr h.few hsyncs

theorem PcInv.strikes_eq {waiter : Waiter} {pc : Pc} (h : w.PcInv c pc)
    (hpc : pc = .waiting waiter ∨ pc = .checkRunning waiter ∨ pc = .checkStream waiter) :
    w.strikes = w.book.failedSyncs := by
  rcases hpc with rfl | rfl | rfl <;> cases waiter
  · exact h
  · exact h.1
  · exact h
  · exact h
  · exact h.1
  · exact h
  · exact h
  · exact h.1
  · exact h

/-- `applyFirstUpdate` takes an item: a marker uses the snapshot up, an event of the chain is
covered by the snapshot or straddles it. -/
theorem Inv.takeFirst {waiter : Waiter} {item : OrderbookArrays} {rest : List OrderbookArrays}
    (h : w.Inv c) (hc : w.book.pc = .take waiter) (hw : waiter ≠ .inner)
    (hb : w.book.bufferOut = item :: rest)
    (hloop : intactRule.LoopInv { w.book with
      bufferOut := rest, pc := w.book.decideFirst item })
    (hfew : w.strikesAfter .thread < maxFailedSyncs) :
    Inv c ⟨{ w.book with bufferOut := rest, pc := w.book.decideFirst item }, w.delivered,
      w.takenAfter .thread, w.strikesAfter .thread⟩ := by
  have hlpc := h.loop.pc
  have hpc := h.pc
  rw [hc] at hlpc
  obtain rfl : waiter = .first := by
    cases waiter with
    | start => exact absurd rfl hlpc.1
    | first => rfl
    | inner => exact absurd rfl hw
  rw [hc] at hpc
  obtain ⟨hsyncs, hin⟩ := hpc
  rcases h.front hb with ⟨rfl, -⟩ | ⟨rfl, -, -⟩
  · simp only [takenAfter, strikesAfter, hc, hb] at hfew ⊢
    refine h.of_take hb rfl hloop rfl rfl rfl hfew (fun _ => ?_)
    rw [hsyncs]
  · simp only [takenAfter, strikesAfter, hc, hb] at hfew ⊢
    refine h.of_take hb rfl hloop rfl rfl rfl hfew ?_
    rcases decideFirst_chain hin with ⟨hdec, hin⟩ | hdec
    · rw [hdec]
      exact ⟨hsyncs, hin⟩
    · rw [hdec]
      exact hsyncs

/-- What the inner loop takes is no strike. -/
theorem Inv.takeInner {item : OrderbookArrays} {rest : List OrderbookArrays} (h : w.Inv c)
    (hc : w.book.pc = .take .inner) (hb : w.book.bufferOut = item :: rest)
    (hloop : intactRule.LoopInv { w.book with
      bufferOut := rest, pc := w.book.decideInner item })
    (hfew : w.strikesAfter .thread < maxFailedSyncs) :
    Inv c ⟨{ w.book with bufferOut := rest, pc := w.book.decideInner item }, w.delivered,
      w.takenAfter .thread, w.strikesAfter .thread⟩ := by
  have hpc := h.pc
  rw [hc] at hpc
  have hkept : ∀ n, PcInv c ⟨{ w.book with bufferOut := rest, pc := w.book.decideInner item },
      w.delivered, n, w.strikes⟩ (w.book.decideInner item) := by
    intro n
    cases item with
    | none => exact hpc
    | some e =>
        rw [decideInner]
        split <;> exact hpc
  cases item with
  | none =>
      simp only [takenAfter, strikesAfter, hc, hb] at hfew ⊢
      exact h.of_take hb rfl hloop rfl rfl rfl hfew (hkept _)
  | some e =>
      simp only [takenAfter, strikesAfter, hc, hb] at hfew ⊢
      exact h.of_take hb rfl hloop rfl rfl rfl hfew (hkept _)

/-- The first event fits the book, or is a strike. -/
theorem Inv.applyFirst {e : DepthEvent} (h : w.Inv c) (hc : w.book.pc = .applyFirst e)
    (hloop : intactRule.LoopInv { w.book with
      toBookData := (w.book.toBookData.applyUpdate e).1
      pc := .release e.slot (.first (w.book.toBookData.applyUpdate e).2) })
    (hfew : w.strikesAfter .thread < maxFailedSyncs) :
    Inv c ⟨{ w.book with
        toBookData := (w.book.toBookData.applyUpdate e).1
        pc := .release e.slot (.first (w.book.toBookData.applyUpdate e).2) }, w.delivered,
      w.takenAfter .thread, w.strikesAfter .thread⟩ := by
  have hlpc := h.loop.pc
  have hpc := h.pc
  rw [hc] at hlpc
  obtain ⟨-, ⟨tickSize, -, hr⟩, -⟩ := hlpc
  obtain ⟨-, -, hok, -⟩ := applyUpdate_spec hr e
  rw [← hr.bid_tickSize] at hok
  simp only [takenAfter, strikesAfter, hc] at hfew hpc ⊢
  refine h.of_frame hloop rfl rfl rfl hfew ?_
  by_cases hfits : EventFits w.book.bidBook.tickSize w.book.sides e
  · rw [hok.mpr hfits, if_pos hfits]
    exact rfl
  · rw [Bool.eq_false_iff.mpr (fun ht => hfits (hok.mp ht)), if_neg hfits]
    show w.strikes + 1 = w.book.failedSyncs + 1
    rw [hpc]

/-- **A step of the thread** keeps the counters together. -/
theorem Inv.thread {s' : State} (h : w.Inv c) (hs : w.book.threadStep = some s')
    (hfew : w.strikesAfter .thread < maxFailedSyncs) :
    Inv c ⟨s', w.delivered, w.takenAfter .thread, w.strikesAfter .thread⟩ := by
  have hloop := LoopRule.loopInv_thread h.loop trivial hs
  have hpc := h.pc
  have hlpc := h.loop.pc
  -- only a take and the first event of a round move the counters
  cases threadStep_cases hs with
  | setAskTickSize hc =>
      simp only [takenAfter, strikesAfter, hc] at hfew hpc ⊢
      exact h.of_frame hloop rfl rfl rfl hfew hpc
  | @empty waiter hc _ =>
      simp only [takenAfter, strikesAfter, hc] at hfew hpc ⊢
      refine h.of_frame hloop rfl rfl rfl hfew ?_
      cases waiter <;> exact hpc
  | started hc _ =>
      simp only [takenAfter, strikesAfter, hc] at hfew hpc ⊢
      exact h.of_frame hloop rfl rfl rfl hfew hpc
  | @arrived waiter hc _ _ =>
      simp only [takenAfter, strikesAfter, hc] at hfew hpc ⊢
      refine h.of_frame hloop rfl rfl rfl hfew ?_
      cases waiter <;> exact hpc
  | @goOn waiter hc _ =>
      simp only [takenAfter, strikesAfter, hc] at hfew hpc ⊢
      refine h.of_frame hloop rfl rfl rfl hfew ?_
      cases waiter <;> exact hpc
  | stopping hc hrun =>
      simp only [takenAfter, strikesAfter, hc] at hfew hpc ⊢
      exact inv_noUpdate h hloop rfl rfl rfl hrun (hpc.strikes_eq (.inr (.inl rfl)))
  | @connected waiter hc _ =>
      simp only [takenAfter, strikesAfter, hc] at hfew hpc ⊢
      refine h.of_frame hloop rfl rfl rfl hfew ?_
      cases waiter <;> exact hpc
  -- the stream stays up in such a run
  | disconnected hc hstream =>
      rw [h.stream] at hstream
      cases hstream
  | takeFirst hc hw hb => exact h.takeFirst hc hw hb hloop hfew
  | takeInner hc hb => exact h.takeInner hc hb hloop hfew
  | enter hc _ =>
      simp only [takenAfter, strikesAfter, hc] at hfew hpc ⊢
      exact h.of_frame hloop rfl rfl rfl hfew hpc
  | leave hc _ =>
      simp only [takenAfter, strikesAfter, hc] at hfew hpc ⊢
      exact h.of_frame hloop rfl rfl rfl hfew trivial
  | resync hc =>
      simp only [takenAfter, strikesAfter, hc] at hfew hpc ⊢
      exact h.of_frame hloop rfl rfl rfl hfew hpc
  | retry hc _ =>
      simp only [takenAfter, strikesAfter, hc] at hfew hpc ⊢
      exact h.of_frame hloop rfl rfl rfl hfew hpc
  | giveUp hc _ =>
      simp only [takenAfter, strikesAfter, hc]
      exact h.of_stop hloop rfl rfl (by decide)
  | applySnapshot hc _ =>
      rw [hc] at hlpc
      obtain ⟨-, ⟨tickSize, -, hr⟩, -⟩ := hlpc
      obtain ⟨-, -, -, -, hid, -⟩ := applySnapshot_spec hr
      simp only [takenAfter, strikesAfter, hc] at hfew hpc ⊢
      refine h.of_frame hloop rfl rfl rfl hfew ⟨hpc.1, ?_⟩
      rw [hid]
      exact hpc.2
  | applyFirst hc _ => exact h.applyFirst hc hloop hfew
  | applyInner hc _ =>
      simp only [takenAfter, strikesAfter, hc] at hfew hpc ⊢
      refine h.of_frame hloop rfl rfl rfl hfew ?_
      cases (w.book.toBookData.applyUpdate _).2 <;> exact hpc
  | @release slot r hc =>
      simp only [takenAfter, strikesAfter, hc] at hfew hpc ⊢
      rcases r with _ | (_ | _) | (_ | _)
      · exact h.of_frame hloop rfl rfl rfl hfew hpc
      · exact h.of_frame hloop rfl rfl rfl hfew (fun _ => hpc)
      · exact h.of_frame hloop rfl rfl rfl hfew hpc
      · exact h.of_frame hloop rfl rfl rfl hfew hpc
      · exact h.of_frame hloop rfl rfl rfl hfew hpc
  -- there are never as many strikes as this needs
  | outdated hc hrun hmax =>
      rw [hc] at hpc
      have hstrikes := hpc hrun
      have hlt := h.few
      omega
  | again hc hrun _ =>
      simp only [takenAfter, strikesAfter, hc] at hfew hpc ⊢
      exact h.of_frame hloop rfl rfl rfl hfew (hpc hrun)
  | ended hc _ =>
      simp only [takenAfter, strikesAfter, hc] at hfew hpc ⊢
      exact h.of_frame hloop rfl rfl rfl hfew trivial
  | storeSynced hc =>
      simp only [takenAfter, strikesAfter, hc] at hfew hpc ⊢
      exact h.of_frame hloop rfl rfl rfl hfew hpc
  | @stopSynced next hc =>
      simp only [takenAfter, strikesAfter, hc] at hfew hpc ⊢
      cases next with
      | exit => exact h.of_frame hloop rfl rfl rfl hfew trivial
      | noUpdate waiter => exact hpc.elim
  | stopExit hc =>
      simp only [takenAfter, strikesAfter, hc] at hfew hpc ⊢
      exact h.of_frame hloop rfl rfl rfl hfew trivial
  | stopNoUpdate hc =>
      rw [hc] at hpc
      exact hpc.elim

/-- The destructor's store is seen only where the thread has given up a sync. -/
theorem PcInv.destroy {pc : Pc} (h : w.PcInv c pc) :
    PcInv c ⟨{ w.book with running := false }, w.delivered, w.taken, w.strikes⟩ pc := by
  cases pc with
  | firstFailed => exact fun hrun => (by cases hrun)
  | waiting waiter => cases waiter <;> exact h
  | checkRunning waiter => cases waiter <;> exact h
  | checkStream waiter => cases waiter <;> exact h
  | take waiter => cases waiter <;> exact h
  | release slot r => rcases r with _ | (_ | _) | (_ | _) <;> exact h
  | stopSynced next => cases next <;> exact h
  | stopRunning next => cases next <;> exact h
  | _ => exact h

/-- **One step.** -/
theorem Inv.step {w' : Watched} {a : Act} (h : w.Inv c) (hburst : Burst c w a)
    (hfew : w.strikesAfter a < maxFailedSyncs) (hs : watchStep w a = some w') : w'.Inv c := by
  rw [watchStep, Option.map_eq_some_iff] at hs
  obtain ⟨s', hs, rfl⟩ := hs
  by_cases hthread : a = .thread
  · subst hthread
    exact h.thread hs hfew
  have hloop := LoopRule.loopInv_step h.loop trivial hs
  have hinv := h.pc
  cases otherStep_of_step hs hthread with
  | infoFailed => exact h.of_stop hloop rfl rfl (by decide)
  | infoRefused => exact h.of_stop hloop rfl rfl (by decide)
  | infoLoaded hpc =>
      rw [hpc] at hinv
      exact h.of_frame hloop rfl rfl rfl h.few hinv
  | @fetched attempt r hpc =>
      rw [hpc] at hinv
      obtain ⟨r', heq, hin⟩ := hburst
      obtain rfl := SnapshotReply.success.inj heq
      refine h.of_frame hloop rfl rfl rfl h.few ⟨hinv, ?_⟩
      show c.Inside w.taken
        (fetchOrderbookSnapshot w.book.orderbookSnapshot (.success r)).1.updateId
      rw [updateId_fetch]
      exact hin
  | fetchRetried => cases hburst.choose_spec.1
  | fetchFailed => cases hburst.choose_spec.1
  | deliver item =>
      obtain ⟨m, hqueue⟩ := h.queue
      have hle := h.le
      cases item with
      | none =>
          -- no event has been delivered yet, so the queue holds markers only
          obtain hzero : w.delivered = 0 := hburst
          have hempty : c.queued w.taken w.delivered = [] := by
            rw [Chain.queued, Nat.sub_eq_zero_of_le (by omega)]
            rfl
          refine ⟨hloop, h.stream, hle, ⟨m + 1, ?_⟩, h.few, h.error, h.pc⟩
          show w.book.bufferOut ++ [none] = _ ++ c.queued w.taken w.delivered
          rw [hqueue, hempty, List.append_nil, List.append_nil, List.replicate_succ']
      | some e =>
          obtain rfl : e = c.event w.delivered := hburst
          refine ⟨hloop, h.stream, Nat.le_succ_of_le hle, ⟨m, ?_⟩, h.few, h.error, h.pc⟩
          show w.book.bufferOut ++ _ = _ ++ c.queued w.taken (w.delivered + 1)
          rw [hqueue, c.queued_succ hle, List.append_assoc]
  | closeStream => exact hburst.elim
  | destroy => exact h.of_frame hloop rfl rfl rfl h.few h.pc.destroy
  | readerLock => exact h.of_frame hloop rfl rfl rfl h.few h.pc
  | readerUnlock => exact h.of_frame hloop rfl rfl rfl h.few h.pc

end Watched

/-- A new book, before anything has been delivered. -/
def watch (slots : Bool → Nat → Nat → Nat) (updateId : Int) : Watched :=
  ⟨construct slots updateId, 0, 0, 0⟩

theorem inv_watch (c : Chain) (slots : Bool → Nat → Nat → Nat) (updateId : Int) :
    (watch slots updateId).Inv c :=
  ⟨LoopRule.reach intactRule .refl, rfl, Nat.le_refl 0, ⟨0, rfl⟩, Nat.succ_pos 4,
    by simp [watch, construct], rfl⟩

/-- **Fewer than `maxFailedSyncs` in a row.** In every run in which every fetch succeeds, the
stream stays connected and any number of markers is followed by a chain that every snapshot falls
inside, the book never stops with `ORDERBOOK_OUTDATED`, as long as no five snapshots in a row are
used up by a marker or by a first event without room. -/
theorem burst_not_outdated (c : Chain) (slots : Bool → Nat → Nat → Nat) (updateId : Int)
    {w : Watched}
    (h : Reach watchStep (fun w a => Burst c w a ∧ w.strikesAfter a < maxFailedSyncs)
      (watch slots updateId) w) :
    w.book.lastError ≠ some .ORDERBOOK_OUTDATED := by
  have hinv : w.Inv c := by
    apply h.invariant (inv_watch c slots updateId)
    intro w a w' hi hok hs
    exact hi.step hok.1 hok.2 hs
  exact hinv.error

/-! ## Runs with a burst -/

section runs

/-- Events with the ids `10, 11, …` and no levels. -/
def plainChain : Chain where
  event i := ⟨0, fun _ => [], 10 + i, 10 + i, 9 + i⟩
  unbroken i := by
    push_cast
    ring
  ordered i := Int.le_refl _
  later i := by
    push_cast
    omega

/-- The tick size arrives, `k` markers are queued, and each of them meets a fresh snapshot. -/
def burstOf (k : Nat) : List Act :=
  [.exchangeInfo (some 1), .thread] ++ List.replicate k (.deliver none) ++ [.thread] ++
    (List.replicate k [.thread, .thread, .depthSnapshot (.success emptyResponse), .thread,
      .thread, .thread, .thread]).flatten

/-- A test for the actions of `burstOf`. -/
def burstTest (w : Watched) : Act → Bool
  | .deliver none => w.delivered = 0
  | .deliver (some _) => false
  | .depthSnapshot (.success r) => r.lastUpdateId = 10 ∧ w.taken = 0
  | .depthSnapshot (.failed _) => false
  | .closeStream => false
  | _ => true

theorem burst_of_burstTest {w : Watched} {a : Act} (h : burstTest w a = true) :
    Burst plainChain w a := by
  cases a with
  | deliver item =>
      cases item with
      | none =>
          show w.delivered = 0
          exact of_decide_eq_true h
      | some e => cases h
  | depthSnapshot reply =>
      cases reply with
      | failed updateId => cases h
      | success r =>
          obtain ⟨hid, htaken⟩ := of_decide_eq_true h
          exact ⟨r, rfl, 0, Nat.le_of_eq htaken, hid.ge, hid.le⟩
  | closeStream => cases h
  | _ => trivial

/-- Four markers are survived. -/
theorem burst_not_outdated_four :
    ∃ w, Reach watchStep (fun w a => Burst plainChain w a ∧ w.strikesAfter a < maxFailedSyncs)
        (watch (fun _ _ _ => 0) 0) w ∧ w.strikes = 4 ∧
      w.book.lastError ≠ some .ORDERBOOK_OUTDATED := by
  obtain ⟨w, hrun, hfour⟩ : ∃ w, runFrom (fun w a =>
      if burstTest w a && w.strikesAfter a < maxFailedSyncs then watchStep w a else none)
        (watch (fun _ _ _ => 0) 0) (burstOf 4) = some w ∧ w.strikes = 4 := ⟨_, rfl, rfl⟩
  have hreach : Reach watchStep
      (fun w a => Burst plainChain w a ∧ w.strikesAfter a < maxFailedSyncs)
      (watch (fun _ _ _ => 0) 0) w := by
    refine Reach.of_runFrom (fun w a htest => ?_) .refl hrun
    obtain ⟨hburst, hfew⟩ := Bool.and_eq_true_iff.mp htest
    exact ⟨burst_of_burstTest hburst, of_decide_eq_true hfew⟩
  exact ⟨w, hreach, hfour, burst_not_outdated plainChain _ _ hreach⟩

/-- Five markers are not, although the chain follows them and every snapshot falls inside it. -/
theorem burst_five_outdated :
    ∃ w, Reach watchStep (Burst plainChain) (watch (fun _ _ _ => 0) 0) w ∧
      w.book.bufferOut = [some (plainChain.event 0)] ∧
      w.book.lastError = some .ORDERBOOK_OUTDATED := by
  obtain ⟨w, hrun, hempty, hdelivered, herror⟩ : ∃ w, runFrom (fun w a =>
      if burstTest w a then watchStep w a else none)
        (watch (fun _ _ _ => 0) 0) (burstOf 5) = some w ∧ w.book.bufferOut = [] ∧
        w.delivered = 0 ∧ w.book.lastError = some .ORDERBOOK_OUTDATED := ⟨_, rfl, rfl, rfl, rfl⟩
  have hreach : Reach watchStep (Burst plainChain) (watch (fun _ _ _ => 0) 0) w :=
    Reach.of_runFrom (fun _ _ => burst_of_burstTest) .refl hrun
  refine ⟨_, hreach.tail (a := .deliver (some (plainChain.event 0))) ?_ rfl, ?_, herror⟩
  · show _ = plainChain.event w.delivered
    rw [hdelivered]
  · show w.book.bufferOut ++ _ = _
    rw [hempty, List.nil_append]

end runs

end AstraConnect.Orderbook
