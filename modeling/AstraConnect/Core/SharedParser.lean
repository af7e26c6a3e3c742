import AstraConnect.Lib.Transition

set_option autoImplicit false

/-! # The parsers that threads share (`threadSafeParser.hpp`)

The streams of one manager decode their messages with one parser, and the requests of one API
object with another. A `ThreadSafeParserRAII` holds the parser's lock until the end of the block it
stands in, and in `WebsocketStreamHolder::executionLoop`, `fetchCandles` and
`fetchOpenInterestHist` the block also puts what was decoded into a ring, which waits when the ring
is full. Any threads run these blocks here, and consumers take items from the rings or do not.

Nobody waits with a parser in hand as long as each parser is only taken when the ring has room for
what is put there before the parser is given back (`not_waitsWithParser`).
-/

namespace AstraConnect.Core

open Transition

/-! ## Parsers and rings -/

inductive ParserId where
  /-- `APIManager::websocketParser` -/
  | websocketParser
  | parserFutures (api : Nat)
  | parserSpot (api : Nat)
  deriving DecidableEq, Repr

inductive RingId where
  /-- `WebsocketStreamHolder::bufferOut` -/
  | bufferOut (stream : Nat)
  /-- a ring a caller passes to `fetchCandles` or `fetchOpenInterestHist` -/
  | candles (buffer : Nat)
  | openInterest (buffer : Nat)
  deriving DecidableEq, Repr

def RingId.capacity : RingId → Nat
  | .bufferOut _ => 1024
  | .candles _ => 2048
  | .openInterest _ => 1024

/-- A block with a parser: it reads `items` in order and enqueues each of them. An item whose
reading throws is `none`; it ends the block, which then clears its ring or does not. -/
structure ParserUse (δ : Type) where
  parser : ParserId
  output : Option RingId
  items : List (Option δ)
  clears : Bool

/-- The blocks of the source. -/
inductive Job (δ : Type) where
  /-- a turn of `WebsocketStreamHolder::executionLoop`, with what `func` makes of the message -/
  | executionLoop (stream : Nat) (data : Option δ)
  | fetchCandles (api buffer : Nat) (candles : List (Option δ))
  | fetchOpenInterestHist (api buffer : Nat) (frames : List (Option δ))
  | spotFetchCandles (api buffer : Nat) (candles : List (Option δ))
  /-- `fetchOpenInterestCurrent`, `fetchExchangeInfoForPair`, `fetchOrderbookSnapshot`, and every
  answer that `iterateResponse` refuses -/
  | fetchSingle (api : Nat)

def Job.use {δ : Type} : Job δ → ParserUse δ
  | .executionLoop stream data => ⟨.websocketParser, some (.bufferOut stream), [data], false⟩
  | .fetchCandles api buffer candles => ⟨.parserFutures api, some (.candles buffer), candles, true⟩
  | .fetchOpenInterestHist api buffer frames =>
      ⟨.parserFutures api, some (.openInterest buffer), frames, true⟩
  | .spotFetchCandles api buffer candles => ⟨.parserSpot api, some (.candles buffer), candles, true⟩
  | .fetchSingle api => ⟨.parserFutures api, none, [], false⟩

/-- How many items are enqueued: those before the first that throws. -/
def ahead {δ : Type} : List (Option δ) → Nat
  | [] => 0
  | none :: _ => 0
  | some _ :: rest => ahead rest + 1

/-! ## The threads

A thread takes the parser of its job, reads and enqueues the items, and gives the parser back. What
it has still to enqueue goes with its place. -/

/-- Where a thread is. -/
inductive Place (δ : Type) where
  | idle
  /-- `parserAccess`, waiting for the lock -/
  | locking (use : ParserUse δ)
  /-- with the parser, and the items that are left -/
  | looping (use : ParserUse δ) (items : List (Option δ))
  /-- with the parser, in `enqueue` -/
  | enqueueing (use : ParserUse δ) (item : δ) (rest : List (Option δ))
  /-- `returnParser` -/
  | unlocking (use : ParserUse δ)

structure Sharing (τ δ : Type) where
  lock : ParserId → Option τ
  rings : RingId → List δ
  threads : τ → Place δ

section

variable {τ δ : Type} [DecidableEq τ]

namespace Sharing

def moveTo (s : Sharing τ δ) (t : τ) (p : Place δ) : Sharing τ δ :=
  { s with threads := Function.update s.threads t p }

/-- `enqueue`, which waits on a full ring. -/
def enqueue (s : Sharing τ δ) (ring : RingId) (item : δ) : Option (Sharing τ δ) :=
  if (s.rings ring).length < ring.capacity then
    some { s with rings := Function.update s.rings ring (s.rings ring ++ [item]) }
  else none

/-- `outputBuff.clearBuffer()` in the handler of a block that has one. -/
def thrown (s : Sharing τ δ) (use : ParserUse δ) : Sharing τ δ :=
  match use.clears, use.output with
  | true, some ring => { s with rings := Function.update s.rings ring [] }
  | _, _ => s

/-- A step of a thread inside a block. -/
def go (s : Sharing τ δ) (t : τ) : Option (Sharing τ δ) :=
  match s.threads t with
  | .idle => none
  | .locking use =>
      if s.lock use.parser = none then
        some ({ s with lock := Function.update s.lock use.parser (some t) }.moveTo t
          (.looping use use.items))
      else none
  | .looping use [] => some (s.moveTo t (.unlocking use))
  | .looping use (none :: _) => some ((s.thrown use).moveTo t (.unlocking use))
  | .looping use (some item :: rest) => some (s.moveTo t (.enqueueing use item rest))
  | .enqueueing use item rest =>
      use.output.bind (fun ring =>
        (s.enqueue ring item).map (fun s' => s'.moveTo t (.looping use rest)))
  | .unlocking use =>
      some ({ s with lock := Function.update s.lock use.parser none }.moveTo t .idle)

end Sharing

inductive ShareAct (τ δ : Type) where
  /-- a stream thread has read a message, or a caller has the answer to a request -/
  | start (t : τ) (job : Job δ)
  | go (t : τ)
  /-- a consumer takes an item -/
  | dequeue (ring : RingId)

def shareStep (s : Sharing τ δ) : ShareAct τ δ → Option (Sharing τ δ)
  | .start t job =>
      match s.threads t with
      | .idle => some (s.moveTo t (.locking job.use))
      | _ => none
  | .go t => s.go t
  | .dequeue ring =>
      match s.rings ring with
      | [] => none
      | _ :: rest => some { s with rings := Function.update s.rings ring rest }

end

/-- All parsers free, all rings empty. -/
def newSharing (τ δ : Type) : Sharing τ δ where
  lock _ := none
  rings _ := []
  threads _ := .idle

/-- A thread that holds the lock of a parser and waits for room in a ring. -/
def WaitsWithParser {τ δ : Type} (s : Sharing τ δ) (t : τ) : Prop :=
  ∃ use item rest ring, s.threads t = .enqueueing use item rest ∧ use.output = some ring ∧
    s.lock use.parser = some t ∧ ring.capacity ≤ (s.rings ring).length

/-! ## The condition -/

/-- The items a thread has still to put into a ring before it gives its parser back. -/
def pending {δ : Type} (ring : RingId) : Place δ → Nat
  | .looping use items => if use.output = some ring then ahead items else 0
  | .enqueueing use _ rest => if use.output = some ring then ahead rest + 1 else 0
  | _ => 0

/-- A parser is taken when the ring has room for all items of the block, and for those that other
holders of a parser have still to put there. -/
def HasRoom {τ δ : Type} [Fintype τ] (s : Sharing τ δ) : ShareAct τ δ → Prop
  | .go t =>
      match s.threads t with
      | .locking use => ∀ ring, use.output = some ring →
          (s.rings ring).length + ∑ t', pending ring (s.threads t') + ahead use.items
            ≤ ring.capacity
      | _ => True
  | _ => True

/-! ## The invariant

It adds up, for each ring, what the holders of a parser have still to put there. The sum is over
the threads, of which there are finitely many here. -/

/-- Every ring has room for what the holders of a parser have still to put there. -/
def RoomKept {τ δ : Type} [Fintype τ] (s : Sharing τ δ) : Prop :=
  ∀ ring, (s.rings ring).length + ∑ t, pending ring (s.threads t) ≤ ring.capacity

theorem rings_thrown_le {τ δ : Type} (s : Sharing τ δ) (use : ParserUse δ) (ring : RingId) :
    ((s.thrown use).rings ring).length ≤ (s.rings ring).length := by
  unfold Sharing.thrown
  split
  · rename_i cleared _ _
    show (Function.update s.rings cleared [] ring).length ≤ _
    rw [Function.update_apply]
    split
    · exact Nat.zero_le _
    · exact le_rfl
  · exact le_rfl

theorem threads_thrown {τ δ : Type} (s : Sharing τ δ) (use : ParserUse δ) :
    (s.thrown use).threads = s.threads := by
  unfold Sharing.thrown
  split <;> rfl

section

variable {τ δ : Type} [Fintype τ] [DecidableEq τ] {s s' : Sharing τ δ} {t : τ}

theorem sum_pending_update (ring : RingId) (threads : τ → Place δ) (t : τ) (p : Place δ) :
    (∑ t', pending ring (Function.update threads t p t')) + pending ring (threads t)
      = (∑ t', pending ring (threads t')) + pending ring p := by
  -- the terms of the other threads are the same
  have hrest : ∑ t' ∈ Finset.univ.erase t, pending ring (Function.update threads t p t')
      = ∑ t' ∈ Finset.univ.erase t, pending ring (threads t') := by
    refine Finset.sum_congr rfl (fun t' ht' => ?_)
    rw [Function.update_of_ne (Finset.ne_of_mem_erase ht')]
  calc (∑ t', pending ring (Function.update threads t p t')) + pending ring (threads t)
      = pending ring p + (∑ t' ∈ Finset.univ.erase t, pending ring (threads t'))
          + pending ring (threads t) := by
        rw [← Finset.add_sum_erase _ _ (Finset.mem_univ t), hrest, Function.update_self]
    _ = pending ring (threads t) + (∑ t' ∈ Finset.univ.erase t, pending ring (threads t'))
          + pending ring p := by omega
    _ = (∑ t', pending ring (threads t')) + pending ring p := by
        rw [Finset.add_sum_erase _ (fun t' => pending ring (threads t')) (Finset.mem_univ t)]

/-- A thread that moves on keeps the room, when the ring and the thread together grow by no more
than is free. -/
theorem RoomKept.move (h : RoomKept s) {p : Place δ}
    (hthreads : s'.threads = Function.update s.threads t p)
    (hle : ∀ ring, (s'.rings ring).length + pending ring p
      ≤ (s.rings ring).length + pending ring (s.threads t)) : RoomKept s' := by
  intro ring
  have hsum := sum_pending_update ring s.threads t p
  have hroom := h ring
  have hgrow := hle ring
  rw [hthreads]
  omega

/-- An item that is enqueued takes the room that was kept for it. -/
theorem roomKept_enqueue (h : RoomKept s) {use : ParserUse δ} {item : δ}
    {rest : List (Option δ)} {ring : RingId} (hp : s.threads t = .enqueueing use item rest)
    (hring : use.output = some ring) :
    RoomKept ({ s with rings := Function.update s.rings ring (s.rings ring ++ [item]) }.moveTo t
      (.looping use rest)) := by
  refine h.move rfl (fun ring' => ?_)
  show (Function.update s.rings ring (s.rings ring ++ [item]) ring').length
    + (if use.output = some ring' then ahead rest else 0) ≤ _
  rw [hp, pending, Function.update_apply, hring]
  by_cases heq : ring' = ring
  · subst heq
    rw [if_pos rfl, if_pos rfl, if_pos rfl, List.length_append, List.length_singleton]
    omega
  · have hne : ¬ some ring = some ring' := fun hc => heq (Option.some.inj hc).symm
    rw [if_neg heq, if_neg hne, if_neg hne]

theorem roomKept_go (h : RoomKept s) (hok : HasRoom s (.go t)) (hs : s.go t = some s') :
    RoomKept s' := by
  unfold Sharing.go at hs
  simp only [HasRoom] at hok
  split at hs
  · cases hs
  · -- the lock is taken: the condition gives the room
    rename_i use hp
    rw [hp] at hok
    obtain ⟨-, hs⟩ := Option.ite_none_right_eq_some.mp hs
    obtain rfl := Option.some.inj hs
    intro ring
    have hsum := sum_pending_update ring s.threads t (.looping use use.items)
    have hkept := h ring
    show (s.rings ring).length
      + ∑ t', pending ring (Function.update s.threads t (.looping use use.items) t') ≤ _
    have hold : pending ring (s.threads t) = 0 := by rw [hp]; rfl
    by_cases hring : use.output = some ring
    · have hnew : pending ring (.looping use use.items) = ahead use.items := if_pos hring
      have hroom := hok ring hring
      omega
    · have hnew : pending ring (.looping use use.items) = 0 := if_neg hring
      omega
  · obtain rfl := Option.some.inj hs
    exact h.move rfl (fun ring => Nat.add_le_add_left (Nat.zero_le _) _)
  · rename_i use _ hp
    obtain rfl := Option.some.inj hs
    refine h.move (t := t) (p := .unlocking use) ?_ (fun ring => ?_)
    · show Function.update (s.thrown use).threads t _ = _
      rw [threads_thrown]
    · exact Nat.add_le_add (rings_thrown_le s use ring) (Nat.zero_le _)
  · rename_i use item rest hp
    obtain rfl := Option.some.inj hs
    refine h.move rfl (fun ring => ?_)
    rw [hp]
    exact le_rfl
  · rename_i use item rest hp
    obtain ⟨ring, hring, hs⟩ := Option.bind_eq_some_iff.mp hs
    obtain ⟨s₁, henq, rfl⟩ := Option.map_eq_some_iff.mp hs
    obtain ⟨-, henq⟩ := Option.ite_none_right_eq_some.mp henq
    obtain rfl := Option.some.inj henq
    exact roomKept_enqueue h hp hring
  · obtain rfl := Option.some.inj hs
    exact h.move rfl (fun ring => Nat.add_le_add_left (Nat.zero_le _) _)

theorem roomKept_step {a : ShareAct τ δ} (h : RoomKept s) (hok : HasRoom s a)
    (hs : shareStep s a = some s') : RoomKept s' := by
  cases a with
  | start t job =>
      simp only [shareStep] at hs
      split at hs
      · obtain rfl := Option.some.inj hs
        exact h.move rfl (fun ring => Nat.add_le_add_left (Nat.zero_le _) _)
      · cases hs
  | go t => exact roomKept_go h hok hs
  | dequeue ring =>
      simp only [shareStep] at hs
      split at hs
      · cases hs
      · rename_i item rest hring
        obtain rfl := Option.some.inj hs
        intro ring'
        have hkept := h ring'
        show (Function.update s.rings ring rest ring').length
          + ∑ t, pending ring' (s.threads t) ≤ _
        rw [Function.update_apply]
        split
        · subst ring'
          rw [hring, List.length_cons] at hkept
          omega
        · exact hkept

/-- **No wait with a parser.** In every run in which each parser is only taken when the ring has
room for the items of the block, whatever the consumers do, no thread holds a parser while it waits
for room in a ring. -/
theorem not_waitsWithParser (h : Reach shareStep HasRoom (newSharing τ δ) s) (t : τ) :
    ¬ WaitsWithParser s t := by
  have hkept : RoomKept s := by
    apply h.invariant (I := RoomKept)
    · intro ring
      show 0 + ∑ _ : τ, 0 ≤ ring.capacity
      rw [Finset.sum_const_zero]
      exact Nat.zero_le _
    · intro s a s' hI hok hs
      exact roomKept_step hI hok hs
  rintro ⟨use, item, rest, ring, hp, hring, -, hfull⟩
  -- the thread itself has the item in hand to put there
  have hmine : pending ring (s.threads t) ≤ ∑ t', pending ring (s.threads t') :=
    Finset.single_le_sum (f := fun t' => pending ring (s.threads t'))
      (fun _ _ => Nat.zero_le _) (Finset.mem_univ t)
  rw [hp, pending, if_pos hring] at hmine
  have hroom := hkept ring
  omega

end

/-- One message of a stream: its thread enqueues with the parser in hand, and there is room. -/
theorem not_waitsWithParser_oneMessage :
    ∃ s, Reach shareStep HasRoom (newSharing (Fin 1) Nat) s ∧
      s.lock .websocketParser = some 0 ∧ (∃ use, s.threads 0 = .enqueueing use 7 []) ∧
      ¬ WaitsWithParser s 0 := by
  have hstart : Reach shareStep HasRoom (newSharing (Fin 1) Nat)
      ((newSharing (Fin 1) Nat).moveTo 0 (.locking (Job.executionLoop 0 (some 7)).use)) :=
    Reach.refl.tail (a := .start 0 (.executionLoop 0 (some 7))) trivial rfl
  have hroom : HasRoom ((newSharing (Fin 1) Nat).moveTo 0
      (.locking (Job.executionLoop 0 (some 7)).use)) (.go 0) := by
    intro ring hring
    obtain rfl := Option.some.inj hring
    decide
  obtain ⟨s, hs, hlock, hp⟩ : ∃ s, runFrom shareStep ((newSharing (Fin 1) Nat).moveTo 0
      (.locking (Job.executionLoop 0 (some 7)).use)) [.go 0, .go 0] = some s ∧
      s.lock .websocketParser = some 0 ∧ (∃ use, s.threads 0 = .enqueueing use 7 []) :=
    ⟨_, rfl, rfl, _, rfl⟩
  -- the two steps one by one, since only the first takes the lock
  obtain ⟨s₁, h₁, hs⟩ := Option.bind_eq_some_iff.mp hs
  obtain ⟨s₂, h₂, hs⟩ := Option.bind_eq_some_iff.mp hs
  obtain rfl := Option.some.inj hs
  have hfree : HasRoom s₁ (.go 0) := by
    obtain rfl := Option.some.inj h₁
    trivial
  have hreach := (hstart.tail hroom h₁).tail hfree h₂
  exact ⟨s₂, hreach, hlock, hp, not_waitsWithParser hreach 0⟩

/-! ## A ring that nobody reads

One stream's thread puts in a message after the other. By induction on their number the ring holds
them all, until it is full and the next one waits with the parser. -/

/-- What the thread of a stream does with one message. -/
def messageRun (item : Nat) : List (ShareAct (Fin 2) Nat) :=
  [.start 0 (.executionLoop 0 (some item)), .go 0, .go 0, .go 0, .go 0, .go 0]

section

variable {s : Sharing (Fin 2) Nat}

/-- Both threads between two messages, and `n` items in the first stream's ring. -/
structure Between (s : Sharing (Fin 2) Nat) (n : Nat) : Prop where
  idle : ∀ t, s.threads t = .idle
  free : s.lock .websocketParser = none
  queued : (s.rings (.bufferOut 0)).length = n

theorem run_message {n : Nat} (h : Between s n) (hn : n < 1024) (item : Nat) :
    ∃ s', runFrom shareStep s (messageRun item) = some s' ∧ Between s' (n + 1) := by
  have hroom : (s.rings (.bufferOut 0)).length < RingId.capacity (.bufferOut 0) := by
    rw [h.queued]
    exact hn
  refine ⟨{ s with
      lock := Function.update s.lock .websocketParser none
      rings := Function.update s.rings (.bufferOut 0) (s.rings (.bufferOut 0) ++ [item])
      threads := Function.update s.threads 0 .idle }, ?_, ?_⟩
  · simp [messageRun, runFrom, shareStep, Sharing.go, Sharing.moveTo, Sharing.enqueue, Job.use,
      h.idle 0, h.free, hroom]
  · refine ⟨fun t => ?_, rfl, ?_⟩
    · show Function.update s.threads 0 .idle t = .idle
      rw [Function.update_apply]
      split
      · rfl
      · exact h.idle t
    · show (s.rings (.bufferOut 0) ++ [item]).length = n + 1
      rw [List.length_append, h.queued, List.length_singleton]

/-- Messages arrive and nobody takes them. -/
theorem run_messages (n : Nat) (hn : n ≤ 1024) :
    ∃ s, Reach shareStep (fun _ _ => True) (newSharing (Fin 2) Nat) s ∧ Between s n := by
  induction n with
  | zero => exact ⟨_, .refl, fun _ => rfl, rfl, rfl⟩
  | succ n ih =>
      obtain ⟨s, hreach, hs⟩ := ih (by omega)
      obtain ⟨s', hrun, hs'⟩ := run_message hs (by omega) n
      exact ⟨s', hreach.of_run hrun, hs'⟩

end

/-- After 1024 messages that nobody took, the thread of the stream waits in `enqueue` with the
parser, and the thread of the other stream for the parser. -/
theorem stalled_consumer :
    ∃ s, Reach shareStep (fun _ _ => True) (newSharing (Fin 2) Nat) s ∧ WaitsWithParser s 0 ∧
      s.threads 1 = .locking (Job.executionLoop 1 (some 8)).use ∧
      shareStep s (.go 1) = none := by
  obtain ⟨s, hreach, hs⟩ := run_messages 1024 le_rfl
  obtain ⟨s', hrun, hwait, hother, hstuck⟩ : ∃ s', runFrom shareStep s
      [.start 0 (.executionLoop 0 (some 7)), .go 0, .go 0,
        .start 1 (.executionLoop 1 (some 8))] = some s' ∧ WaitsWithParser s' 0 ∧
      s'.threads 1 = .locking (Job.executionLoop 1 (some 8)).use ∧
      shareStep s' (.go 1) = none := by
    refine ⟨{ s with
        lock := Function.update s.lock .websocketParser (some 0)
        threads := Function.update (Function.update s.threads 0
            (.enqueueing (Job.executionLoop 0 (some 7)).use 7 [])) 1
          (.locking (Job.executionLoop 1 (some 8)).use) }, ?_, ?_, ?_, ?_⟩
    · simp [runFrom, shareStep, Sharing.go, Sharing.moveTo, Job.use, hs.idle, hs.free]
    · refine ⟨_, 7, [], .bufferOut 0, rfl, rfl, rfl, ?_⟩
      exact le_of_eq hs.queued.symm
    · rfl
    · rfl
  exact ⟨s', hreach.of_run hrun, hwait, hother, hstuck⟩

end AstraConnect.Core
