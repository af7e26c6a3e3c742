import AstraConnect.Orderbook.SlotOwnership

set_option autoImplicit false

/-! # The end of a book (`~Orderbook`, `~WebsocketStreamHolder`)

`~Orderbook` stops the update thread and joins it; the members are destroyed after that, among them
`websocketStream`, whose destructor stops the stream thread and joins it too. The stream thread
looks at `running` between two messages only, and with a message in hand it waits in
`bufferOut.enqueue` while the ring is full. The update thread alone takes items from the ring, and
it ends before the join of the stream thread, or long before, when it has called `stop`.

`Lifetime` adds the loop of the stream thread and the two destructors to the threads of `Depth`. The
destructor does not meet a stream thread that waits for room, as long as the stream thread does not
read a message that finds the ring full and the update thread gone (`join_not_stuck`).
-/

namespace AstraConnect.Orderbook

open Transition DepthDecoder OrderbookArrayHolder

/-! ## The stream thread and the destructors -/

/-- Where the stream thread is in `WebsocketStreamHolder::executionLoop`. -/
inductive StreamPlace where
  /-- `setupConnection` and `exponentialBackOff` before the loop -/
  | connecting
  /-- `while(running)` -/
  | loopHead
  /-- `getLatestMessage` and `exponentialBackOff` in the loop -/
  | reading
  /-- `func` and `bufferOut.enqueue`, where `Depth.decoder` tells how far it is -/
  | decoding
  | ended
  deriving DecidableEq, Repr

/-- Where the destructors are. -/
inductive Destructor where
  | alive
  /-- `~Orderbook`: `thread.join()` -/
  | joinThread
  /-- `~WebsocketStreamHolder`: `thread.join()` -/
  | joinStream
  | finished
  deriving DecidableEq, Repr

structure Lifetime where
  depth : Depth
  stream : StreamPlace
  destructor : Destructor

inductive LifeAct where
  | connected
  /-- the back-off has run out of attempts, or was told to stop -/
  | gaveUp
  /-- the test of `running` at the head of the loop -/
  | turn
  /-- a message was read; after a reconnect it is the empty text, which is `broken` -/
  | receive (m : Message)
  | decoder
  | book (a : Act)
  | destroy
  | joinedThread
  | joinedStream

namespace Lifetime

/-- `websocketStream.running.value.store(false)` -/
def stopStream (σ : Depth) : Depth :=
  { σ with book := { σ.book with streamRunning := false } }

/-- A step of the stream thread inside the loop's body; it is back at the head when the event is in
the ring. -/
def decoderStep (garbage : Nat → Int) (σ : Lifetime) : Option Lifetime :=
  (σ.depth.decoderStep garbage).map (fun depth =>
    { σ with
      depth := depth
      stream := if depth.decoder matches .idle then .loopHead else .decoding })

end Lifetime

open Lifetime

def lifeStep (garbage : Nat → Int) (σ : Lifetime) : LifeAct → Option Lifetime
  | .connected => if σ.stream = .connecting then some { σ with stream := .loopHead } else none
  | .gaveUp =>
      if σ.stream = .connecting ∨ σ.stream = .reading then
        some { σ with depth := stopStream σ.depth, stream := .ended }
      else none
  | .turn =>
      if σ.stream = .loopHead then
        some { σ with stream := if σ.depth.book.streamRunning then .reading else .ended }
      else none
  | .receive m =>
      if σ.stream = .reading then
        some { σ with depth := { σ.depth with decoder := .load m }, stream := .decoding }
      else none
  | .decoder => if σ.stream = .decoding then σ.decoderStep garbage else none
  | .book .destroy => none
  | .book .closeStream => none
  | .book a => (depthStep garbage σ.depth (.book a)).map (fun depth => { σ with depth := depth })
  | .destroy =>
      if σ.destructor = .alive then
        some { σ with
          depth := { σ.depth with book := { σ.depth.book with running := false } }
          destructor := .joinThread }
      else none
  | .joinedThread =>
      if σ.destructor = .joinThread ∧ σ.depth.book.pc matches .done then
        some { σ with depth := stopStream σ.depth, destructor := .joinStream }
      else none
  | .joinedStream =>
      if σ.destructor = .joinStream ∧ σ.stream = .ended then
        some { σ with destructor := .finished }
      else none

/-- A new book; `arrays` is what the uninitialised arrays hold. -/
def constructLifetime (slots : Bool → Nat → Nat → Nat) (updateId : Int)
    (arrays : Int → Bool → Nat → Entry) : Lifetime where
  depth := constructDepth slots updateId arrays
  stream := .connecting
  destructor := .alive

/-- The destructor waits for the stream thread, and the stream thread for room. -/
def StuckInJoin (σ : Lifetime) : Prop :=
  σ.destructor = .joinStream ∧ (∃ item, σ.depth.decoder = .put item) ∧
    BUFFER_OUT ≤ σ.depth.book.bufferOut.length

/-! ## The condition

Where the thread is about to end is read off its program counter. The ring has to have room then
for the message in hand, because no one takes from it any more. -/

/-- The next step of the update thread is its last. -/
def State.ending (s : State) : Bool :=
  match s.pc with
  | .checkRunning .start => !s.running
  | .loopHead => !s.running
  | .firstFailed => !s.running
  | .stopRunning .exit => true
  | .stopRunning (.noUpdate .start) => true
  | _ => false

/-- Once the update thread has ended, no message is read when the ring is full; and when it ends,
the ring has room for the message the stream thread is at. -/
def RoomAfterEnd (σ : Lifetime) : LifeAct → Prop
  | .receive _ => σ.depth.book.pc = .done → σ.depth.book.bufferOut.length < BUFFER_OUT
  | .book .thread =>
      σ.depth.book.ending = true → σ.stream = .decoding →
        σ.depth.book.bufferOut.length < BUFFER_OUT
  | _ => True

/-! ## The invariant -/

structure LifeInv (σ : Lifetime) : Prop where
  room : σ.depth.book.pc = .done → σ.stream = .decoding →
    σ.depth.book.bufferOut.length < BUFFER_OUT
  idle : σ.stream ≠ .decoding → σ.depth.decoder = .idle
  joined : σ.destructor = .joinStream → σ.depth.book.pc = .done

theorem decide_ne_done (s : State) (item : OrderbookArrays) :
    s.decideFirst item ≠ .done ∧ s.decideInner item ≠ .done := by
  cases item with
  | none => exact ⟨Pc.noConfusion, Pc.noConfusion⟩
  | some event =>
      unfold State.decideFirst State.decideInner
      refine ⟨?_, ?_⟩ <;> repeat' split
      all_goals exact Pc.noConfusion

theorem ending_of_done {s s' : State} (hs : s.threadStep = some s') (hdone : s'.pc = .done) :
    s.ending = true := by
  unfold State.ending
  cases State.threadStep_cases hs with
  | @stopping w hpc hrun =>
      cases w with
      | start => simp [hpc, hrun]
      | first => cases hdone
      | inner => cases hdone
  | leave hpc hrun => simp [hpc, hrun]
  | ended hpc hrun => simp [hpc, hrun]
  | stopExit hpc => rw [hpc]
  | @stopNoUpdate w hpc =>
      cases w with
      | start => rw [hpc]
      | first => cases hdone
      | inner => cases hdone
  | @release slot r hpc => rcases r with _ | (_ | _) | (_ | _) <;> cases hdone
  | @takeFirst w item => exact absurd hdone (decide_ne_done s item).1
  | @takeInner item => exact absurd hdone (decide_ne_done s item).2
  | _ => cases hdone

/-- The update thread only takes from the queue. -/
theorem length_threadStep {s s' : State} (hs : s.threadStep = some s') :
    s'.bufferOut.length ≤ s.bufferOut.length := by
  cases State.threadStep_cases hs with
  | takeFirst _ _ hbuf =>
      rw [hbuf]
      exact Nat.le_succ _
  | takeInner _ hbuf =>
      rw [hbuf]
      exact Nat.le_succ _
  | @stopping w => cases w <;> exact le_rfl
  | @stopNoUpdate w => cases w <;> exact le_rfl
  | @release slot r => rcases r with _ | (_ | _) | (_ | _) <;> exact le_rfl
  | _ => exact le_rfl

/-- Nothing but its own steps ends the update thread, and nothing starts it again. -/
theorem done_iff_of_other {s s' : State} {a : Act} (hs : step s a = some s')
    (hthread : a ≠ .thread) : s'.pc = .done ↔ s.pc = .done := by
  cases otherStep_of_step hs hthread with
  | deliver => exact Iff.rfl
  | closeStream => exact Iff.rfl
  | destroy => exact Iff.rfl
  | readerLock => exact Iff.rfl
  | readerUnlock => exact Iff.rfl
  | _ =>
      rw [‹s.pc = _›]
      exact iff_of_false Pc.noConfusion Pc.noConfusion

namespace Depth

variable {garbage : Nat → Int} {σ σ' : Depth}

/-- The stream thread leaves the book alone until it has put its item there. -/
theorem book_decoderStep (hs : σ.decoderStep garbage = some σ') :
    σ'.book.pc = σ.book.pc ∧ (σ'.decoder ≠ .idle → σ'.book = σ.book) := by
  cases decoderStep_cases hs with
  | put => exact ⟨rfl, fun h => absurd rfl h⟩
  | _ => exact ⟨rfl, fun _ => rfl⟩

theorem book_threadStep (hs : σ.threadStep = some σ') :
    σ'.decoder = σ.decoder ∧ σ'.book.bufferOut.length ≤ σ.book.bufferOut.length ∧
      σ.book.pc ≠ .done ∧ (σ'.book.pc = .done → σ.book.ending = true) := by
  unfold threadStep at hs
  split at hs
  · rename_i slot r hpc
    have hrelease : σ.book.threadStep = some (σ.book.release slot r) := by
      rw [State.threadStep, hpc]
    have hnot : σ.book.pc ≠ .done := by
      rw [hpc]
      exact Pc.noConfusion
    split at hs
    · obtain ⟨-, hs⟩ := Option.ite_none_right_eq_some.mp hs
      obtain rfl := Option.some.inj hs
      exact ⟨rfl, le_rfl, hnot, fun h => absurd h hnot⟩
    · obtain rfl := Option.some.inj hs
      exact ⟨rfl, length_threadStep hrelease, hnot, ending_of_done hrelease⟩
  · obtain ⟨s', hthread, rfl⟩ := Option.map_eq_some_iff.mp hs
    refine ⟨rfl, length_threadStep hthread, fun hdone => ?_, ending_of_done hthread⟩
    rw [State.threadStep, hdone] at hthread
    cases hthread

end Depth

/-! ## The steps keep the invariant

While the update thread runs there is nothing to show. After its end the queue grows by the stream
thread only, one message at a time. -/

section

variable {garbage : Nat → Int} {σ σ' : Lifetime}

/-- A step of the stream thread outside the loop's body. -/
theorem LifeInv.outside (h : LifeInv σ) (hnot : σ.stream ≠ .decoding) {stream : StreamPlace}
    (hstream : stream ≠ .decoding) (streamRunning : Bool) :
    LifeInv { σ with
      depth := { σ.depth with book := { σ.depth.book with streamRunning := streamRunning } }
      stream := stream } :=
  ⟨fun _ hd => absurd hd hstream, fun _ => h.idle hnot, h.joined⟩

theorem LifeInv.decoder (h : LifeInv σ) (hin : σ.stream = .decoding)
    (hs : σ.decoderStep garbage = some σ') : LifeInv σ' := by
  obtain ⟨depth, hdepth, rfl⟩ := Option.map_eq_some_iff.mp hs
  obtain ⟨hpc, hbook⟩ := Depth.book_decoderStep hdepth
  refine ⟨fun hdone hstream => ?_, fun hstream => ?_, fun hjoin => ?_⟩
  · -- still at the message, so nothing has been put into the ring yet
    have hbusy : depth.decoder ≠ .idle := by
      intro hidle
      simp [hidle] at hstream
    show depth.book.bufferOut.length < BUFFER_OUT
    rw [hbook hbusy]
    exact h.room (hpc.symm.trans hdone) hin
  · cases hd : depth.decoder with
    | idle => rfl
    | _ => simp [hd] at hstream
  · exact hpc.trans (h.joined hjoin)

theorem LifeInv.book {a : Act} (h : LifeInv σ) (hok : RoomAfterEnd σ (.book a)) {depth : Depth}
    (hs : depthStep garbage σ.depth (.book a) = some depth) :
    LifeInv { σ with depth := depth } := by
  by_cases hthread : a = .thread
  · subst hthread
    obtain ⟨hdecoder, hlen, hnot, hend⟩ := Depth.book_threadStep hs
    refine ⟨fun hdone hstream => ?_, fun hstream => ?_, fun hjoin => ?_⟩
    · -- the last step of the thread, where the condition gives the room
      exact lt_of_le_of_lt hlen (hok (hend hdone) hstream)
    · exact hdecoder.trans (h.idle hstream)
    · exact absurd (h.joined hjoin) hnot
  · have hdeliver : ∀ item, a ≠ .deliver item := by
      rintro item rfl
      cases hs
    rw [depthStep_other hthread hdeliver, Option.map_eq_some_iff] at hs
    obtain ⟨s', hs, rfl⟩ := hs
    have hdone := done_iff_of_other hs hthread
    have hqueue := (step_slots hs hthread hdeliver).1
    refine ⟨fun hd hstream => ?_, h.idle, fun hjoin => hdone.mpr (h.joined hjoin)⟩
    show s'.bufferOut.length < BUFFER_OUT
    rw [hqueue]
    exact h.room (hdone.mp hd) hstream

theorem LifeInv.step {a : LifeAct} (h : LifeInv σ) (hok : RoomAfterEnd σ a)
    (hs : lifeStep garbage σ a = some σ') : LifeInv σ' := by
  cases a with
  | connected =>
      obtain ⟨hplace, hs⟩ := Option.ite_none_right_eq_some.mp hs
      obtain rfl := Option.some.inj hs
      exact h.outside (by rw [hplace]; decide) (by decide) σ.depth.book.streamRunning
  | gaveUp =>
      obtain ⟨hplace, hs⟩ := Option.ite_none_right_eq_some.mp hs
      obtain rfl := Option.some.inj hs
      refine h.outside (fun hd => ?_) (by decide) false
      rw [hd] at hplace
      exact absurd hplace (by decide)
  | turn =>
      obtain ⟨hplace, hs⟩ := Option.ite_none_right_eq_some.mp hs
      obtain rfl := Option.some.inj hs
      refine h.outside (by rw [hplace]; decide) ?_ σ.depth.book.streamRunning
      split <;> decide
  -- a message is taken up only while the ring has room, once the thread has ended
  | receive m =>
      obtain ⟨-, hs⟩ := Option.ite_none_right_eq_some.mp hs
      obtain rfl := Option.some.inj hs
      exact ⟨fun hdone _ => hok hdone, fun hnot => absurd rfl hnot, h.joined⟩
  | decoder =>
      obtain ⟨hplace, hs⟩ := Option.ite_none_right_eq_some.mp hs
      exact h.decoder hplace hs
  | book a =>
      have hbook : (depthStep garbage σ.depth (.book a)).map
          (fun depth => { σ with depth := depth }) = some σ' := by
        cases a with
        | destroy => cases hs
        | closeStream => cases hs
        | _ => exact hs
      obtain ⟨depth, hdepth, rfl⟩ := Option.map_eq_some_iff.mp hbook
      exact h.book hok hdepth
  | destroy =>
      obtain ⟨-, hs⟩ := Option.ite_none_right_eq_some.mp hs
      obtain rfl := Option.some.inj hs
      exact ⟨h.room, h.idle, fun hjoin => (by cases hjoin)⟩
  -- `join` returns when the thread has ended
  | joinedThread =>
      obtain ⟨⟨-, hdone⟩, hs⟩ := Option.ite_none_right_eq_some.mp hs
      obtain rfl := Option.some.inj hs
      refine ⟨h.room, h.idle, fun _ => ?_⟩
      show σ.depth.book.pc = .done
      cases hpc : σ.depth.book.pc <;> simp_all
  | joinedStream =>
      obtain ⟨-, hs⟩ := Option.ite_none_right_eq_some.mp hs
      obtain rfl := Option.some.inj hs
      exact ⟨h.room, h.idle, fun hjoin => (by cases hjoin)⟩

/-- **The join ends.** In every run in which the stream thread reads no message that finds the ring
full and the update thread gone, `~WebsocketStreamHolder` never waits for a stream thread that waits
for room in the ring. -/
theorem join_not_stuck {slots : Bool → Nat → Nat → Nat} {updateId : Int}
    {arrays : Int → Bool → Nat → Entry}
    (h : Reach (lifeStep garbage) RoomAfterEnd (constructLifetime slots updateId arrays) σ) :
    ¬ StuckInJoin σ := by
  have hinv : LifeInv σ := by
    apply h.invariant (I := LifeInv)
    · exact ⟨fun hdone => (by cases hdone), fun _ => rfl, fun hjoin => (by cases hjoin)⟩
    · intro σ a σ' hi hok hs
      exact hi.step hok hs
  rintro ⟨hjoin, ⟨item, hput⟩, hfull⟩
  have hplace : σ.stream = .decoding := by
    by_contra hnot
    rw [hinv.idle hnot] at hput
    cases hput
  have hroom := hinv.room (hinv.joined hjoin) hplace
  omega

end

/-- The tick size request fails and the update thread ends. -/
def stoppedRun : List LifeAct :=
  [.connected, .book (.exchangeInfo none), .book .thread, .book .thread]

/-- The book is destroyed while the stream thread is in `enqueue`, and there is room. -/
theorem join_not_stuck_oneMessage :
    ∃ σ, Reach (lifeStep (fun _ => 0)) RoomAfterEnd
        (constructLifetime (fun _ _ _ => 0) 0 (fun _ _ _ => ⟨0, 0⟩)) σ ∧
      σ.destructor = .joinStream ∧ (∃ item, σ.depth.decoder = .put item) ∧ ¬ StuckInJoin σ := by
  let doc : JsonTree := .obj [("data".toList, .obj [("b".toList, .arr []), ("a".toList, .arr []),
    ("u".toList, .int 12), ("U".toList, .int 11), ("pu".toList, .int 10)])]
  obtain ⟨σ, hrun, hjoin, hput⟩ : ∃ σ, runFrom (fun σ a =>
      if decide (σ.depth.book.bufferOut.length < BUFFER_OUT) then lifeStep (fun _ => 0) σ a
      else none) (constructLifetime (fun _ _ _ => 0) 0 (fun _ _ _ => ⟨0, 0⟩))
      (stoppedRun ++ [.turn, .receive (.document doc), .decoder, .decoder, .decoder, .decoder,
        .destroy, .joinedThread]) = some σ ∧
      σ.destructor = .joinStream ∧ (∃ item, σ.depth.decoder = .put item) :=
    ⟨_, rfl, rfl, _, rfl⟩
  have hroom : ∀ (σ : Lifetime) (a : LifeAct),
      decide (σ.depth.book.bufferOut.length < BUFFER_OUT) = true → RoomAfterEnd σ a := by
    intro σ a htest
    have hlt := of_decide_eq_true htest
    unfold RoomAfterEnd
    split
    · exact fun _ => hlt
    · exact fun _ _ => hlt
    · trivial
  have hreach : Reach (lifeStep (fun _ => 0)) RoomAfterEnd
      (constructLifetime (fun _ _ _ => 0) 0 (fun _ _ _ => ⟨0, 0⟩)) σ :=
    Reach.of_runFrom hroom .refl hrun
  exact ⟨σ, hreach, hjoin, hput, join_not_stuck hreach⟩

/-! ## A ring that nobody empties

The counterexample needs 1025 messages. After any number of them the system is `Abandoned` with so
many items, which is kept by one more message. -/

/-- A text that cannot be parsed. -/
def brokenMessage : Message := .broken (fun _ => [])

/-- The stream thread reads it and comes to `enqueue` with a marker. -/
def markerRun : List LifeAct :=
  [.turn, .receive brokenMessage, .decoder, .decoder, .decoder, .decoder, .decoder, .decoder]

/-- The update thread has ended, and the stream thread is between two messages with all slots
free and `n` items in the ring. -/
structure Abandoned (σ : Lifetime) (n : Nat) : Prop where
  ended : σ.depth.book.pc = .done
  running : σ.depth.book.streamRunning = true
  alive : σ.destructor = .alive
  between : σ.stream = .loopHead
  slots : σ.depth.freeSlots.length = SLOTS
  count : σ.depth.freeCount = SLOTS
  queued : σ.depth.book.bufferOut.length = n

section

variable (garbage : Nat → Int) {σ : Lifetime} {n : Nat}

/-- The next message makes a marker, whatever is in the ring. -/
theorem run_marker (h : Abandoned σ n) :
    ∃ slot rest, σ.depth.freeSlots = slot :: rest ∧
      runFrom (lifeStep garbage) σ markerRun = some { σ with
        stream := .decoding
        depth := { σ.depth with freeSlots := rest ++ [slot], decoder := .put none } } := by
  obtain ⟨slot, rest, hfree⟩ : ∃ slot rest, σ.depth.freeSlots = slot :: rest := by
    cases hfree : σ.depth.freeSlots with
    | nil =>
        have hlen := h.slots
        rw [hfree] at hlen
        cases hlen
    | cons slot rest => exact ⟨slot, rest, rfl⟩
  have hrest : rest.length < SLOTS := by
    have hlen := h.slots
    rw [hfree, List.length_cons] at hlen
    omega
  have hcount : σ.depth.freeCount ≠ 0 := by
    rw [h.count]
    decide
  refine ⟨slot, rest, hfree, ?_⟩
  simp [markerRun, runFrom, lifeStep, Lifetime.decoderStep, Depth.decoderStep, brokenMessage,
    decode, Decoded.writes, h.between, h.running, hcount, hfree, hrest]

theorem run_message (h : Abandoned σ n) (hn : n < BUFFER_OUT) :
    ∃ σ', runFrom (lifeStep garbage) σ (markerRun ++ [.decoder]) = some σ' ∧
      Abandoned σ' (n + 1) := by
  obtain ⟨slot, rest, hfree, hrun⟩ := run_marker garbage h
  have hroom : σ.depth.book.bufferOut.length < BUFFER_OUT := by
    rw [h.queued]
    exact hn
  have hslots : (rest ++ [slot]).length = SLOTS := by
    rw [List.length_append, List.length_singleton, ← h.slots, hfree, List.length_cons]
  refine ⟨{ σ with depth := { σ.depth with
      book := { σ.depth.book with bufferOut := σ.depth.book.bufferOut ++ [none] }
      freeSlots := rest ++ [slot]
      decoder := .idle } }, ?_, ?_⟩
  · rw [runFrom_append, hrun]
    simp [runFrom, lifeStep, Lifetime.decoderStep, Depth.decoderStep, hroom, h.between]
  · refine ⟨h.ended, h.running, h.alive, h.between, hslots, h.count, ?_⟩
    show (σ.depth.book.bufferOut ++ [none]).length = n + 1
    rw [List.length_append, h.queued, List.length_singleton]

end

/-- The tick size request fails and then `n` messages arrive. -/
theorem run_messages (garbage : Nat → Int) (n : Nat) (hn : n ≤ BUFFER_OUT) :
    ∃ σ, Reach (lifeStep garbage) (fun _ _ => True)
        (constructLifetime (fun _ _ _ => 0) 0 (fun _ _ _ => ⟨0, 0⟩)) σ ∧ Abandoned σ n := by
  induction n with
  | zero =>
      obtain ⟨σ, hrun, hσ⟩ : ∃ σ, runFrom (lifeStep garbage)
          (constructLifetime (fun _ _ _ => 0) 0 (fun _ _ _ => ⟨0, 0⟩)) stoppedRun = some σ ∧
          Abandoned σ 0 :=
        ⟨_, rfl, rfl, rfl, rfl, rfl, (List.length_map ..).trans List.length_range, rfl, rfl⟩
      exact ⟨σ, Reach.refl.of_run hrun, hσ⟩
  | succ n ih =>
      obtain ⟨σ, hreach, hσ⟩ := ih (by omega)
      obtain ⟨σ', hrun, hσ'⟩ := run_message garbage hσ (by omega)
      exact ⟨σ', hreach.of_run hrun, hσ'⟩

/-- The update thread has ended through `stop`, 1024 messages have filled the ring and one more has
been read. The book is destroyed: the stream thread, the destructor and the update thread cannot
go on. -/
theorem join_stuck :
    ∃ σ, Reach (lifeStep (fun _ => 0)) (fun _ _ => True)
        (constructLifetime (fun _ _ _ => 0) 0 (fun _ _ _ => ⟨0, 0⟩)) σ ∧
      StuckInJoin σ ∧ σ.depth.book.pc = .done ∧ lifeStep (fun _ => 0) σ .decoder = none ∧
      lifeStep (fun _ => 0) σ .joinedStream = none ∧
      lifeStep (fun _ => 0) σ (.book .thread) = none := by
  obtain ⟨σ, hreach, hσ⟩ := run_messages (fun _ => 0) BUFFER_OUT le_rfl
  obtain ⟨slot, rest, -, hrun⟩ := run_marker (fun _ => 0) hσ
  have hmarker := hreach.of_run hrun
  have hfull : ¬ σ.depth.book.bufferOut.length < BUFFER_OUT := by
    rw [hσ.queued]
    exact lt_irrefl _
  obtain ⟨σ', hend, hstuck, hdone, hstream, hjoin, hthread⟩ : ∃ σ', runFrom (lifeStep (fun _ => 0))
      { σ with
        stream := .decoding
        depth := { σ.depth with freeSlots := rest ++ [slot], decoder := .put none } }
      [.destroy, .joinedThread] = some σ' ∧
      StuckInJoin σ' ∧ σ'.depth.book.pc = .done ∧ lifeStep (fun _ => 0) σ' .decoder = none ∧
      lifeStep (fun _ => 0) σ' .joinedStream = none ∧
      lifeStep (fun _ => 0) σ' (.book .thread) = none := by
    refine ⟨{ σ with
      stream := .decoding
      destructor := .joinStream
      depth := { σ.depth with
        book := { σ.depth.book with running := false, streamRunning := false }
        freeSlots := rest ++ [slot]
        decoder := .put none } }, ?_, ⟨rfl, ⟨none, rfl⟩, le_of_not_gt hfull⟩, hσ.ended, ?_, rfl, ?_⟩
    · simp [runFrom, lifeStep, stopStream, hσ.alive, hσ.ended]
    · simp [lifeStep, Lifetime.decoderStep, Depth.decoderStep, hfull]
    · simp [lifeStep, depthStep, Depth.threadStep, State.threadStep, hσ.ended]
  exact ⟨σ', hmarker.of_run hend, hstuck, hdone, hstream, hjoin, hthread⟩

end AstraConnect.Orderbook
