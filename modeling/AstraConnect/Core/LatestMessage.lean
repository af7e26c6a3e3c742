import AstraConnect.Lib.Transition
import AstraConnect.AstraLib.RingProgress
import AstraConnect.Order.OrderStream

set_option autoImplicit false

/-! # The messages that `getLastMessage` hands out (`userFuturesStream.hpp`)

The thread of a `WebsocketStreamHolder` passes every message to `func`, puts what it returns into
`bufferOut` and counts it in `controlVariable`. A message that `func` throws at is dropped.
`FuturesStream::getLastMessage` looks at the count, and only when it is not zero calls
`getLatestData`, which takes one off the count and one value out of `bufferOut`.

One thread calls `getLastMessage` here. A step of the two threads is one access to shared memory,
those inside `enqueue` and `dequeue` as well, and the steps come in any order. `messages` and `got`
are history variables.

`getLastMessage` says that it does not block, although `dequeue` waits for the producer. It
does not because a value is counted only after it was published, and a published one stays counted
until it is taken (`getLastMessage_wait_free`).
-/

namespace AstraConnect.Core.Latest

open Transition AstraLib
open AstraConnect.Order (RequestStatus)

/-! ## The two threads

The places of both threads are those outside `enqueue` and `dequeue`; inside, the ring knows where
they are. -/

inductive Side where
  | stream
  | consumer
  deriving DecidableEq, Repr

/-- Where `executionLoop` is. -/
inductive StreamPlace where
  /-- before the next message -/
  | read
  /-- in `bufferOut.enqueue(data)` -/
  | enqueue
  /-- `controlVariable.fetch_add(1)` -/
  | count
  deriving DecidableEq, Repr

/-- Where `getLastMessage` is. -/
inductive ConsumerPlace where
  /-- in no call; what the last one has returned -/
  | idle (last : Option RequestStatus)
  /-- `if(controlVariable.load() != 0)` -/
  | check
  /-- `controlVariable.fetch_sub(1)` -/
  | take
  /-- in `bufferOut.dequeue()` -/
  | dequeue
  deriving DecidableEq, Repr

structure Holder (M A : Type) where
  bufferOut : AtomicRingBuffer Side A
  controlVariable : Int
  stream : StreamPlace
  consumer : ConsumerPlace
  /-- the messages that `func` was called with -/
  messages : List M
  /-- what was written to `ref`, by call -/
  got : List A

inductive Act (M : Type) where
  /-- `executionLoop` has read a message and calls `func` -/
  | message (json : M)
  | stream
  /-- the other thread calls `getLastMessage` -/
  | getLastMessage
  | consumer

namespace Act

variable {M : Type}

def isCall : Act M → Bool
  | .getLastMessage => true
  | _ => false

def isConsumer : Act M → Bool
  | .consumer => true
  | _ => false

end Act

namespace Holder

variable {M A : Type}

def streamStep (n : RingSize) (s : Holder M A) : Option (Holder M A) :=
  match s.stream with
  | .read => none
  | .enqueue =>
      (s.bufferOut.go n .stream false).map fun ring =>
        match ring.threads .stream with
        | .idle _ => { s with bufferOut := ring, stream := .count }
        | _ => { s with bufferOut := ring }
  | .count => some { s with controlVariable := s.controlVariable + 1, stream := .read }

def consumerStep (n : RingSize) (s : Holder M A) : Option (Holder M A) :=
  match s.consumer with
  | .idle _ => none
  | .check =>
      some { s with consumer := if s.controlVariable ≠ 0 then .take else .idle (some .FAIL) }
  | .take =>
      (ringStep n s.bufferOut (.call .consumer .dequeue)).map fun ring =>
        { s with bufferOut := ring, controlVariable := s.controlVariable - 1, consumer := .dequeue }
  | .dequeue =>
      (s.bufferOut.go n .consumer false).map fun ring =>
        match ring.threads .consumer with
        | .idle (some (.item data)) =>
            { s with bufferOut := ring, consumer := .idle (some .SUCCESS), got := s.got ++ [data] }
        | _ => { s with bufferOut := ring }

/-- `func` is `none` where it throws. -/
def step (n : RingSize) (func : M → Option A) (s : Holder M A) : Act M → Option (Holder M A)
  | .message json =>
      if s.stream = .read then
        match func json with
        | none => some { s with messages := s.messages ++ [json] }
        | some data =>
            (ringStep n s.bufferOut (.call .stream (.enqueue data))).map fun ring =>
              { s with bufferOut := ring, messages := s.messages ++ [json], stream := .enqueue }
      else none
  | .stream => s.streamStep n
  | .getLastMessage =>
      match s.consumer with
      | .idle _ => some { s with consumer := .check }
      | _ => none
  | .consumer => s.consumerStep n

def construct (n : RingSize) (data : Nat → A) : Holder M A where
  bufferOut := .construct n data
  controlVariable := 0
  stream := .read
  consumer := .idle none
  messages := []
  got := []

/-! ## What is where

A parsed message goes through three hands: the stream's thread has it until it is counted, then it
is counted until a call takes it off the count, and then the call has it until it is returned.
`uncounted` and `taken` are the two ends of this. -/

/-- What `func` has returned. -/
def parsed (func : M → Option A) (s : Holder M A) : List A := s.messages.filterMap func

/-- The value of the stream's thread is not counted yet. -/
def uncounted (s : Holder M A) : Nat := if s.stream = .read then 0 else 1

/-- The value of the call is not counted any more. -/
def taken (s : Holder M A) : Nat := if s.consumer = .dequeue then 1 else 0

/-- Where the stream's thread is in `enqueue`. -/
def Enqueueing (offered parsed : List A) : RingPlace A → Prop
  | .takeWrite data => offered ++ [data] = parsed
  | .awaitFree _ ticket => offered = parsed ∧ ticket + 1 = parsed.length
  | .store _ ticket => offered = parsed ∧ ticket + 1 = parsed.length
  | .publish ticket => offered = parsed ∧ ticket + 1 = parsed.length
  | _ => False

/-- Where the consumer is in `dequeue`. -/
def Dequeueing (asked : List Side) (got : List A) : RingPlace A → Prop
  | .takeRead => asked.length = got.length
  | .awaitItem ticket => asked.length = got.length + 1 ∧ ticket = got.length
  | .load ticket => asked.length = got.length + 1 ∧ ticket = got.length
  | .release ticket _ => asked.length = got.length + 1 ∧ ticket = got.length
  | _ => False

def StreamAt (parsed : List A) (r : AtomicRingBuffer Side A) : StreamPlace → Prop
  | .read | .count => (∃ last, r.threads .stream = .idle last) ∧ r.line.offered = parsed
  | .enqueue => Enqueueing r.line.offered parsed (r.threads .stream)

def ConsumerAt (got : List A) (r : AtomicRingBuffer Side A) : ConsumerPlace → Prop
  | .idle _ | .check | .take =>
      (∃ last, r.threads .consumer = .idle last) ∧ r.line.asked.length = got.length
  | .dequeue => Dequeueing r.line.asked got (r.threads .consumer)

/-- **The invariant.** -/
structure Inv (n : RingSize) (func : M → Option A) (s : Holder M A) : Prop where
  ring : s.bufferOut.Inv n
  stream : StreamAt (s.parsed func) s.bufferOut s.stream
  consumer : ConsumerAt s.got s.bufferOut s.consumer
  got : s.got <+: s.bufferOut.line.offered
  count : s.controlVariable + s.got.length + s.taken + s.uncounted = (s.parsed func).length
  nonneg : 0 ≤ s.controlVariable
  due : s.consumer = .take → 0 < s.controlVariable

variable {n : RingSize} {func : M → Option A} {s s' : Holder M A}
variable {parsed got : List A} {r r' : AtomicRingBuffer Side A}

/-! ## The steps -/

theorem parsed_message (s : Holder M A) (json : M) :
    (s.messages ++ [json]).filterMap func = s.parsed func ++ (func json).toList := by
  rw [List.filterMap_append, List.filterMap_cons, List.filterMap_nil]
  cases func json <;> rfl

theorem StreamAt.frame {place : StreamPlace} (h : StreamAt parsed r place)
    (hthreads : r'.threads .stream = r.threads .stream)
    (hoffered : r'.line.offered = r.line.offered) : StreamAt parsed r' place := by
  cases place <;> rw [StreamAt, hthreads, hoffered] <;> exact h

theorem ConsumerAt.frame {place : ConsumerPlace} (h : ConsumerAt got r place)
    (hthreads : r'.threads .consumer = r.threads .consumer)
    (hasked : r'.line.asked = r.line.asked) : ConsumerAt got r' place := by
  cases place <;> rw [ConsumerAt, hthreads, hasked] <;> exact h

theorem inv_construct (data : Nat → A) : (construct n data : Holder M A).Inv n func where
  ring := AtomicRingBuffer.inv_construct data
  stream := ⟨⟨none, rfl⟩, rfl⟩
  consumer := ⟨⟨none, rfl⟩, rfl⟩
  got := List.prefix_rfl
  count := rfl
  nonneg := le_rfl
  due h := by cases h

/-- A message that `func` throws at changes nothing else. -/
theorem Inv.dropped (h : s.Inv n func) {json : M} (hfunc : func json = none) :
    Inv n func { s with messages := s.messages ++ [json] } := by
  have hparsed : (s.messages ++ [json]).filterMap func = s.parsed func := by
    rw [parsed_message, hfunc]
    exact List.append_nil _
  refine ⟨h.ring, ?_, h.consumer, h.got, ?_, h.nonneg, h.due⟩
  · show StreamAt ((s.messages ++ [json]).filterMap func) s.bufferOut s.stream
    rw [hparsed]
    exact h.stream
  · show s.controlVariable + s.got.length + s.taken + s.uncounted =
      (((s.messages ++ [json]).filterMap func).length : Int)
    rw [hparsed]
    exact h.count

theorem Inv.enqueue (h : s.Inv n func) {json : M} {data : A} (hfunc : func json = some data)
    (hread : s.stream = .read)
    (hr : ringStep n s.bufferOut (.call .stream (.enqueue data)) = some r) :
    Inv n func
      { s with bufferOut := r, messages := s.messages ++ [json], stream := .enqueue } := by
  have hring : r.Inv n := h.ring.step ringOk_call hr
  obtain ⟨-, rfl⟩ := AtomicRingBuffer.call_cases hr
  have hparsed : (s.messages ++ [json]).filterMap func = s.parsed func ++ [data] := by
    rw [parsed_message, hfunc]
    rfl
  have hmine := h.stream
  rw [hread] at hmine
  refine ⟨hring, ?_, h.consumer.frame ?_ rfl, h.got, ?_, h.nonneg, h.due⟩
  · show Enqueueing s.bufferOut.line.offered ((s.messages ++ [json]).filterMap func)
      ((s.bufferOut.moveTo .stream (.takeWrite data)).threads .stream)
    rw [hparsed, AtomicRingBuffer.threads_moveTo_self, ← hmine.2]
    rfl
  · exact AtomicRingBuffer.threads_moveTo_of_ne _ (by decide) _
  · have hcount := h.count
    rw [uncounted, if_pos hread] at hcount
    show s.controlVariable + s.got.length + s.taken + 1 =
      (((s.messages ++ [json]).filterMap func).length : Int)
    rw [hparsed, List.length_append, List.length_singleton]
    omega

/-- What a step in `enqueue` does. -/
theorem enqueueing_go (hi : r.Inv n)
    (h : Enqueueing r.line.offered parsed (r.threads .stream))
    (hgo : r.go n .stream false = some r') :
    r'.line.asked = r.line.asked ∧ r.line.offered <+: r'.line.offered ∧
      ((∃ last, r'.threads .stream = .idle last) ∧ r'.line.offered = parsed ∨
        Enqueueing r'.line.offered parsed (r'.threads .stream)) := by
  cases hp : r.threads .stream with
  | takeWrite data =>
      rw [hp] at h
      rw [AtomicRingBuffer.go, hp] at hgo
      obtain rfl := Option.some.inj hgo
      refine ⟨rfl, List.prefix_append _ _, .inr ?_⟩
      rw [AtomicRingBuffer.threads_moveTo_self]
      refine ⟨h, ?_⟩
      rw [← h, List.length_append, hi.offered]
      rfl
  | awaitFree data ticket =>
      rw [hp] at h
      rw [AtomicRingBuffer.go, hp] at hgo
      obtain ⟨-, hgo⟩ := Option.ite_none_right_eq_some.mp hgo
      obtain rfl := Option.some.inj hgo
      refine ⟨rfl, List.prefix_rfl, .inr ?_⟩
      rw [AtomicRingBuffer.threads_moveTo_self]
      exact h
  | store data ticket =>
      rw [hp] at h
      rw [AtomicRingBuffer.go, hp] at hgo
      obtain rfl := Option.some.inj hgo
      refine ⟨rfl, List.prefix_rfl, .inr ?_⟩
      rw [AtomicRingBuffer.threads_moveTo_self]
      exact h
  | publish ticket =>
      rw [hp] at h
      rw [AtomicRingBuffer.go, hp] at hgo
      obtain rfl := Option.some.inj hgo
      exact ⟨rfl, List.prefix_rfl, .inl ⟨⟨_, AtomicRingBuffer.threads_moveTo_self ..⟩, h.1⟩⟩
  | _ =>
      rw [hp] at h
      exact h.elim

/-- What a step in `dequeue` does. -/
theorem dequeueing_go (hi : r.Inv n)
    (h : Dequeueing r.line.asked got (r.threads .consumer))
    (hgo : r.go n .consumer false = some r') :
    r'.line.offered = r.line.offered ∧
      ((∃ data, r'.threads .consumer = .idle (some (.item data)) ∧
          r'.line.asked.length = got.length + 1 ∧ r.line.offered[got.length]? = some data) ∨
        Dequeueing r'.line.asked got (r'.threads .consumer)) := by
  have hpromise := hi.promise .consumer
  cases hp : r.threads .consumer with
  | takeRead =>
      rw [hp] at h
      rw [AtomicRingBuffer.go, hp] at hgo
      obtain rfl := Option.some.inj hgo
      refine ⟨rfl, .inr ?_⟩
      rw [AtomicRingBuffer.threads_moveTo_self]
      refine ⟨?_, hi.asked.symm.trans h⟩
      show (r.line.asked ++ [_]).length = _
      rw [List.length_append, h]
      rfl
  | awaitItem ticket =>
      rw [hp] at h
      rw [AtomicRingBuffer.go, hp] at hgo
      obtain ⟨-, hgo⟩ := Option.ite_none_right_eq_some.mp hgo
      obtain rfl := Option.some.inj hgo
      refine ⟨rfl, .inr ?_⟩
      rw [AtomicRingBuffer.threads_moveTo_self]
      exact h
  | load ticket =>
      rw [hp] at h
      rw [AtomicRingBuffer.go, hp] at hgo
      obtain rfl := Option.some.inj hgo
      refine ⟨rfl, .inr ?_⟩
      rw [AtomicRingBuffer.threads_moveTo_self]
      exact h
  | release ticket data =>
      rw [hp] at h hpromise
      rw [AtomicRingBuffer.go, hp] at hgo
      obtain rfl := Option.some.inj hgo
      refine ⟨rfl, .inl ⟨data, AtomicRingBuffer.threads_moveTo_self .., h.1, ?_⟩⟩
      rw [← h.2]
      exact hpromise.2.1
  | _ =>
      rw [hp] at h
      exact h.elim

/-- The stream's thread goes on in `enqueue`. -/
theorem Inv.streamGo (h : s.Inv n func) (hplace : s.stream = .enqueue)
    (hs : s.streamStep n = some s') : s'.Inv n func := by
  rw [streamStep, hplace] at hs
  obtain ⟨r, hgo, rfl⟩ := Option.map_eq_some_iff.mp hs
  have hring : r.Inv n := h.ring.go (AtomicRingBuffer.go_cases hgo)
  have hmine : Enqueueing s.bufferOut.line.offered (s.parsed func)
      (s.bufferOut.threads .stream) := by
    have hstream := h.stream
    rwa [hplace] at hstream
  have hother : r.threads .consumer = s.bufferOut.threads .consumer :=
    (AtomicRingBuffer.go_cases hgo).threads_of_ne (by decide)
  obtain ⟨hasked, hoffered, hends⟩ := enqueueing_go h.ring hmine hgo
  have hconsumer : ConsumerAt s.got r s.consumer := h.consumer.frame hother hasked
  have hgot : s.got <+: r.line.offered := h.got.trans hoffered
  have hcount := h.count
  rw [uncounted, hplace] at hcount
  rcases hends with ⟨⟨last, hidle⟩, hparsed⟩ | hgoes
  · rw [hidle]
    exact ⟨hring, ⟨⟨last, hidle⟩, hparsed⟩, hconsumer, hgot, hcount, h.nonneg, h.due⟩
  · have hkeep : Inv n func { s with bufferOut := r, stream := .enqueue } :=
      ⟨hring, hgoes, hconsumer, hgot, hcount, h.nonneg, h.due⟩
    cases hp : r.threads .stream with
    | idle last =>
        rw [hp] at hgoes
        exact hgoes.elim
    | _ => exact hkeep

theorem Inv.streamStep (h : s.Inv n func) (hs : s.streamStep n = some s') : s'.Inv n func := by
  cases hplace : s.stream with
  | read =>
      rw [Holder.streamStep, hplace] at hs
      cases hs
  | enqueue => exact h.streamGo hplace hs
  | count =>
      rw [Holder.streamStep, hplace] at hs
      obtain rfl := Option.some.inj hs
      have hmine := h.stream
      have hcount := h.count
      rw [hplace] at hmine
      rw [uncounted, hplace] at hcount
      refine ⟨h.ring, hmine, h.consumer, h.got, ?_, Int.add_nonneg h.nonneg (by decide),
        fun htake => Int.lt_add_one_of_le (h.due htake).le⟩
      show s.controlVariable + 1 + s.got.length + s.taken + (0 : Nat) = _
      rw [if_neg (by decide)] at hcount
      exact Eq.trans (by omega) hcount

/-- The consumer goes on in `dequeue`. -/
theorem Inv.consumerGo (h : s.Inv n func) (hplace : s.consumer = .dequeue)
    (hs : s.consumerStep n = some s') : s'.Inv n func := by
  rw [consumerStep, hplace] at hs
  obtain ⟨r, hgo, rfl⟩ := Option.map_eq_some_iff.mp hs
  have hring : r.Inv n := h.ring.go (AtomicRingBuffer.go_cases hgo)
  have hmine : Dequeueing s.bufferOut.line.asked s.got (s.bufferOut.threads .consumer) := by
    have hconsumer := h.consumer
    rwa [hplace] at hconsumer
  have hother : r.threads .stream = s.bufferOut.threads .stream :=
    (AtomicRingBuffer.go_cases hgo).threads_of_ne (by decide)
  obtain ⟨hoffered, hends⟩ := dequeueing_go h.ring hmine hgo
  have hstream : StreamAt (s.parsed func) r s.stream := h.stream.frame hother hoffered
  have hgot : s.got <+: r.line.offered := hoffered ▸ h.got
  have hcount := h.count
  rw [taken, hplace] at hcount
  rcases hends with ⟨data, hidle, hasked, hdata⟩ | hgoes
  · rw [hidle]
    refine ⟨hring, hstream, ⟨⟨_, hidle⟩, ?_⟩, ?_, ?_, h.nonneg, nofun⟩
    · show r.line.asked.length = (s.got ++ [data]).length
      rw [hasked, List.length_append, List.length_singleton]
    · obtain ⟨hlt, rfl⟩ := List.getElem?_eq_some_iff.mp hdata
      show s.got ++ [_] <+: r.line.offered
      rw [hoffered]
      exact List.concat_get_prefix h.got hlt
    · show s.controlVariable + (s.got ++ [data]).length + (0 : Nat) + s.uncounted = _
      rw [List.length_append, List.length_singleton]
      rw [if_pos rfl] at hcount
      exact Eq.trans (by omega) hcount
  · have hkeep : Inv n func { s with bufferOut := r, consumer := .dequeue } :=
      ⟨hring, hstream, hgoes, hgot, hcount, h.nonneg, nofun⟩
    cases hp : r.threads .consumer with
    | idle last =>
        rw [hp] at hgoes
        exact hgoes.elim
    | _ => exact hkeep

theorem Inv.consumerStep (h : s.Inv n func) (hs : s.consumerStep n = some s') :
    s'.Inv n func := by
  have hmine := h.consumer
  have hcount := h.count
  cases hplace : s.consumer with
  | idle last =>
      rw [Holder.consumerStep, hplace] at hs
      cases hs
  | check =>
      rw [Holder.consumerStep, hplace] at hs
      obtain rfl := Option.some.inj hs
      rw [hplace] at hmine
      rw [taken, hplace, if_neg (by decide)] at hcount
      by_cases hzero : s.controlVariable = 0
      · rw [if_neg (not_not.mpr hzero)]
        exact ⟨h.ring, h.stream, hmine, h.got, hcount, h.nonneg, nofun⟩
      · rw [if_pos hzero]
        exact ⟨h.ring, h.stream, hmine, h.got, hcount, h.nonneg,
          fun _ => lt_of_le_of_ne h.nonneg (Ne.symm hzero)⟩
  | take =>
      rw [Holder.consumerStep, hplace] at hs
      obtain ⟨r, hr, rfl⟩ := Option.map_eq_some_iff.mp hs
      have hring : r.Inv n := h.ring.step ringOk_call hr
      obtain ⟨-, rfl⟩ := AtomicRingBuffer.call_cases hr
      rw [hplace] at hmine
      rw [taken, hplace, if_neg (by decide)] at hcount
      have hdue := h.due hplace
      have hstream : StreamAt (s.parsed func) (s.bufferOut.moveTo .consumer .takeRead) s.stream :=
        h.stream.frame (AtomicRingBuffer.threads_moveTo_of_ne _ (by decide) _) rfl
      refine ⟨hring, hstream, ?_, h.got, ?_, Int.sub_nonneg_of_le hdue, nofun⟩
      · show Dequeueing s.bufferOut.line.asked s.got
          ((s.bufferOut.moveTo .consumer .takeRead).threads .consumer)
        rw [AtomicRingBuffer.threads_moveTo_self]
        exact hmine.2
      · show s.controlVariable - 1 + s.got.length + (1 : Nat) + s.uncounted = _
        exact Eq.trans (by omega) hcount
  | dequeue => exact h.consumerGo hplace hs

theorem Inv.step (h : s.Inv n func) {a : Act M} (hs : s.step n func a = some s') :
    s'.Inv n func := by
  cases a with
  | stream => exact h.streamStep hs
  | consumer => exact h.consumerStep hs
  | message json =>
      unfold Holder.step at hs
      obtain ⟨hread, hs⟩ := Option.ite_none_right_eq_some.mp hs
      cases hfunc : func json with
      | none =>
          rw [hfunc] at hs
          obtain rfl := Option.some.inj hs
          exact h.dropped hfunc
      | some data =>
          rw [hfunc] at hs
          obtain ⟨r, hr, rfl⟩ := Option.map_eq_some_iff.mp hs
          exact h.enqueue hfunc hread hr
  | getLastMessage =>
      unfold Holder.step at hs
      have hmine := h.consumer
      have hcount := h.count
      cases hplace : s.consumer with
      | idle last =>
          rw [hplace] at hs hmine
          rw [taken, hplace] at hcount
          obtain rfl := Option.some.inj hs
          exact ⟨h.ring, h.stream, hmine, h.got, hcount, h.nonneg, nofun⟩
      | _ =>
          rw [hplace] at hs
          cases hs

/-- **The invariant holds in every run.** -/
theorem inv_of_reach {data : Nat → A}
    (h : Reach (step n func) (fun _ _ => True) (construct n data) s) : s.Inv n func :=
  h.invariant (inv_construct data) (fun _ _ _ hi _ hs => hi.step hs)

/-! ## Counted values are there, and taken ones gone

With one producer and one consumer the tickets are the numbers of the parsed messages. What the
counts say about tickets, the ring's invariant turns into what is in the slots. -/

theorem StreamAt.writes {place : StreamPlace} (h : StreamAt parsed r place) {ticket : Nat}
    (hw : (r.threads .stream).writes = some ticket) :
    place = .enqueue ∧ ticket + 1 = parsed.length := by
  cases place with
  | enqueue =>
      rw [StreamAt] at h
      refine ⟨rfl, ?_⟩
      cases hp : r.threads .stream <;> rw [hp] at h hw <;> cases hw
      · exact h.2
      · exact h.2
      · exact h.2
  | _ =>
      obtain ⟨⟨last, hp⟩, -⟩ := h
      rw [hp] at hw
      cases hw

theorem StreamAt.reads {place : StreamPlace} (h : StreamAt parsed r place) :
    (r.threads .stream).reads = none := by
  cases place with
  | enqueue =>
      rw [StreamAt] at h
      cases hp : r.threads .stream <;> rw [hp] at h <;> first | rfl | exact h.elim
  | _ =>
      obtain ⟨⟨last, hp⟩, -⟩ := h
      rw [hp]
      rfl

theorem StreamAt.length_le {place : StreamPlace} (h : StreamAt parsed r place) :
    parsed.length ≤ r.line.offered.length + if place = .read then 0 else 1 := by
  cases place with
  | enqueue =>
      rw [StreamAt] at h
      rw [if_neg (by decide)]
      cases hp : r.threads .stream <;> rw [hp] at h <;> try exact h.elim
      · rw [← h, List.length_append]
        exact le_rfl
      · exact Nat.le_succ_of_le (congrArg List.length h.1).ge
      · exact Nat.le_succ_of_le (congrArg List.length h.1).ge
      · exact Nat.le_succ_of_le (congrArg List.length h.1).ge
  | _ => exact Nat.le_add_right_of_le (congrArg List.length h.2).ge

theorem StreamAt.offered_prefix {place : StreamPlace} (h : StreamAt parsed r place) :
    r.line.offered <+: parsed := by
  cases place with
  | enqueue =>
      rw [StreamAt] at h
      cases hp : r.threads .stream <;> rw [hp] at h <;> try exact h.elim
      · exact h ▸ List.prefix_append _ _
      · exact h.1 ▸ List.prefix_rfl
      · exact h.1 ▸ List.prefix_rfl
      · exact h.1 ▸ List.prefix_rfl
  | _ => exact h.2 ▸ List.prefix_rfl

theorem ConsumerAt.writes {place : ConsumerPlace} (h : ConsumerAt got r place) :
    (r.threads .consumer).writes = none := by
  cases place with
  | dequeue =>
      rw [ConsumerAt] at h
      cases hp : r.threads .consumer <;> rw [hp] at h <;> first | rfl | exact h.elim
  | _ =>
      obtain ⟨⟨last, hp⟩, -⟩ := h
      rw [hp]
      rfl

/-- The consumer has asked for what it has got, and for one more while it holds a ticket. -/
theorem ConsumerAt.reads {place : ConsumerPlace} (h : ConsumerAt got r place) :
    (r.threads .consumer).reads = none ∧ r.line.asked.length = got.length ∨
      (r.threads .consumer).reads = some got.length ∧ r.line.asked.length = got.length + 1 := by
  cases place with
  | dequeue =>
      rw [ConsumerAt] at h
      cases hp : r.threads .consumer <;> rw [hp] at h <;> try exact h.elim
      · exact .inl ⟨rfl, h⟩
      · exact .inr ⟨congrArg some h.2, h.1⟩
      · exact .inr ⟨congrArg some h.2, h.1⟩
      · exact .inr ⟨congrArg some h.2, h.1⟩
  | _ =>
      obtain ⟨⟨last, hp⟩, hasked⟩ := h
      rw [hp]
      exact .inl ⟨rfl, hasked⟩

/-- A value that is counted, or on its way to being taken, is in its slot. -/
theorem Inv.published (h : s.Inv n func) {ticket : Nat}
    (hlt : ticket + s.uncounted < (s.parsed func).length) :
    AtomicRingBuffer.Published n s.bufferOut ticket := by
  have hle := h.stream.length_le
  rw [uncounted] at hlt
  apply h.ring.published ticket
  · rw [← h.ring.offered]
    omega
  · rintro (_ | _) hw
    · obtain ⟨hplace, heq⟩ := h.stream.writes hw
      rw [hplace, if_neg (by decide)] at hlt
      omega
    · rw [h.consumer.writes] at hw
      cases hw

/-- What was not got yet is still in its slot. -/
theorem Inv.unreleased (h : s.Inv n func) {ticket : Nat} (hle : s.got.length ≤ ticket) :
    ¬ AtomicRingBuffer.Released n s.bufferOut ticket := by
  rcases h.consumer.reads with ⟨-, hasked⟩ | ⟨hreads, hasked⟩
  · exact h.ring.unread ticket (by rw [← h.ring.asked]; omega)
  · by_cases heq : ticket = s.got.length
    · exact h.ring.not_released_of_reads (heq ▸ hreads)
    · exact h.ring.unread ticket (by rw [← h.ring.asked]; omega)

theorem Inv.released (h : s.Inv n func) {ticket : Nat} (hlt : ticket < s.got.length) :
    AtomicRingBuffer.Released n s.bufferOut ticket := by
  apply h.ring.released ticket
  · rw [← h.ring.asked]
    rcases h.consumer.reads with ⟨-, hasked⟩ | ⟨-, hasked⟩ <;> omega
  · rintro (_ | _) hr
    · rw [h.stream.reads] at hr
      cases hr
    · rcases h.consumer.reads with ⟨hreads, -⟩ | ⟨hreads, -⟩ <;> rw [hreads] at hr
      · cases hr
      · obtain rfl := Option.some.inj hr
        exact lt_irrefl _ hlt

/-- Values are put in at most one ring ahead. -/
theorem Inv.published_lt (h : s.Inv n func) {ticket : Nat}
    (hpub : AtomicRingBuffer.Published n s.bufferOut ticket) :
    ticket < s.got.length + n.SIZE := by
  by_contra hfull
  have hunread := h.unreleased (show s.got.length ≤ ticket - n.SIZE by omega)
  have hindex : n.index (ticket - n.SIZE) = n.index ticket := by
    rw [← n.index_add_size, Nat.sub_add_cancel (by omega)]
  rw [AtomicRingBuffer.Released, hindex] at hunread
  rw [AtomicRingBuffer.Published] at hpub
  omega

theorem Inv.controlVariable_le (h : s.Inv n func) :
    s.controlVariable + s.taken ≤ n.SIZE := by
  have hcount := h.count
  have hnonneg := h.nonneg
  by_contra hgt
  have hlt : s.got.length + n.SIZE + s.uncounted < (s.parsed func).length := by omega
  exact lt_irrefl _ (h.published_lt (h.published hlt))

/-- The stream's thread waits only while a whole ring is there to be taken. -/
theorem Inv.controlVariable_of_waits (h : s.Inv n func) (hplace : s.stream = .enqueue)
    (hwaits : s.streamStep n = none) : s.controlVariable + s.taken = n.SIZE := by
  have hmine : Enqueueing s.bufferOut.line.offered (s.parsed func)
      (s.bufferOut.threads .stream) := by
    have hstream := h.stream
    rwa [hplace] at hstream
  have hpromise := h.ring.promise .stream
  have hcount := h.count
  rw [uncounted, hplace, if_neg (by decide)] at hcount
  rw [Holder.streamStep, hplace, Option.map_eq_none_iff] at hwaits
  cases hp : s.bufferOut.threads .stream with
  | awaitFree data ticket =>
      rw [hp] at hmine hpromise
      rw [AtomicRingBuffer.go, hp] at hwaits
      have hne : s.bufferOut.seq (n.index ticket) ≠ ticket := fun hseq => by
        dsimp only at hwaits
        rw [if_pos hseq] at hwaits
        cases hwaits
      obtain ⟨before, hbefore, hrel⟩ :=
        h.ring.lap_before (Nat.lt_of_le_of_ne hpromise.2 hne)
      have hlate : s.got.length ≤ before := Nat.le_of_not_lt (fun hlt => hrel (h.released hlt))
      have hle := h.controlVariable_le
      have hticket := hmine.2
      omega
  | _ =>
      rw [hp] at hmine
      rw [AtomicRingBuffer.go, hp] at hwaits
      first | exact hmine.elim | cases hwaits

/-! ## The steps that are left -/

/-- The steps of `dequeue` that are left. -/
def dequeueLeft : RingPlace A → Nat
  | .takeRead => 4
  | .awaitItem _ => 3
  | .load _ => 2
  | .release _ _ => 1
  | _ => 0

/-- The steps that the consumer still has to take until its call returns. -/
def stepsLeft (s : Holder M A) : Nat :=
  match s.consumer with
  | .idle _ => 0
  | .check => 6
  | .take => 5
  | .dequeue => dequeueLeft (s.bufferOut.threads .consumer)

theorem dequeueLeft_le (p : RingPlace A) : dequeueLeft p ≤ 4 := by
  unfold dequeueLeft
  split <;> decide

theorem stepsLeft_le (s : Holder M A) : s.stepsLeft ≤ 6 := by
  unfold stepsLeft
  split
  · decide
  · decide
  · decide
  · exact (dequeueLeft_le _).trans (by decide)

theorem dequeueLeft_go (h : Dequeueing r.line.asked got (r.threads .consumer))
    (hgo : r.go n .consumer false = some r') :
    dequeueLeft (r'.threads .consumer) + 1 = dequeueLeft (r.threads .consumer) := by
  cases hp : r.threads .consumer with
  | awaitItem ticket =>
      rw [AtomicRingBuffer.go, hp] at hgo
      obtain ⟨-, hgo⟩ := Option.ite_none_right_eq_some.mp hgo
      obtain rfl := Option.some.inj hgo
      rw [AtomicRingBuffer.threads_moveTo_self]
      rfl
  | takeRead | load | release =>
      rw [AtomicRingBuffer.go, hp] at hgo
      obtain rfl := Option.some.inj hgo
      rw [AtomicRingBuffer.threads_moveTo_self]
      rfl
  | _ =>
      rw [hp] at h
      exact h.elim

theorem stepsLeft_congr (hconsumer : s'.consumer = s.consumer)
    (hthreads : s'.bufferOut.threads .consumer = s.bufferOut.threads .consumer) :
    s'.stepsLeft = s.stepsLeft := by
  rw [stepsLeft, stepsLeft, hconsumer, hthreads]

/-- The value that a call has asked for is there. -/
theorem Inv.item (h : s.Inv n func) (hplace : s.consumer = .dequeue) {ticket : Nat}
    (hp : s.bufferOut.threads .consumer = .awaitItem ticket) :
    s.bufferOut.seq (n.index ticket) = ticket + 1 := by
  have hmine := h.consumer
  have hpromise := h.ring.promise .consumer
  have hcount := h.count
  have hnonneg := h.nonneg
  rw [hplace, ConsumerAt, hp] at hmine
  rw [hp] at hpromise
  rw [taken, if_pos hplace] at hcount
  have hticket := hmine.2
  have hpub : AtomicRingBuffer.Published n s.bufferOut ticket := h.published (by omega)
  by_contra hne
  exact h.ring.not_published hne hpromise.2 hpub

/-- **A call can always go on.** -/
theorem Inv.consumer_goes (h : s.Inv n func) (hcall : ∀ last, s.consumer ≠ .idle last) :
    ∃ s', s.consumerStep n = some s' := by
  have hmine := h.consumer
  cases hplace : s.consumer with
  | idle last => exact absurd hplace (hcall last)
  | check =>
      rw [Holder.consumerStep, hplace]
      exact ⟨_, rfl⟩
  | take =>
      rw [hplace] at hmine
      obtain ⟨⟨last, hp⟩, -⟩ := hmine
      rw [Holder.consumerStep, hplace, ringStep, hp]
      exact ⟨_, rfl⟩
  | dequeue =>
      rw [hplace, ConsumerAt] at hmine
      rw [Holder.consumerStep, hplace]
      cases hp : s.bufferOut.threads .consumer with
      | awaitItem ticket =>
          rw [AtomicRingBuffer.go, hp]
          dsimp only
          rw [if_pos (h.item hplace hp)]
          exact ⟨_, rfl⟩
      | _ =>
          rw [hp] at hmine
          rw [AtomicRingBuffer.go, hp]
          first | exact ⟨_, rfl⟩ | exact hmine.elim

/-- A step of the call is one less to take. -/
theorem Inv.stepsLeft_consumerStep (h : s.Inv n func) (hs : s.consumerStep n = some s') :
    s'.stepsLeft + 1 ≤ s.stepsLeft := by
  have hmine := h.consumer
  cases hplace : s.consumer with
  | idle last =>
      rw [Holder.consumerStep, hplace] at hs
      cases hs
  | check =>
      rw [Holder.consumerStep, hplace] at hs
      obtain rfl := Option.some.inj hs
      rw [stepsLeft, stepsLeft, hplace]
      by_cases hzero : s.controlVariable = 0
      · rw [if_neg (not_not.mpr hzero)]
        show 0 + 1 ≤ 6
        decide
      · rw [if_pos hzero]
  | take =>
      rw [Holder.consumerStep, hplace] at hs
      obtain ⟨r, hr, rfl⟩ := Option.map_eq_some_iff.mp hs
      obtain ⟨-, rfl⟩ := AtomicRingBuffer.call_cases hr
      rw [stepsLeft, stepsLeft, hplace]
      dsimp only
      rw [AtomicRingBuffer.threads_moveTo_self]
      exact le_rfl
  | dequeue =>
      rw [hplace, ConsumerAt] at hmine
      rw [Holder.consumerStep, hplace] at hs
      obtain ⟨r, hgo, rfl⟩ := Option.map_eq_some_iff.mp hs
      have hleft := dequeueLeft_go hmine hgo
      have hbefore : s.stepsLeft = dequeueLeft (s.bufferOut.threads .consumer) := by
        rw [stepsLeft, hplace]
      rw [hbefore, ← hleft]
      split
      · exact Nat.le_add_left 1 _
      · exact le_rfl

/-- The stream's steps leave the call where it is. -/
theorem stepsLeft_step {a : Act M} (hs : s.step n func a = some s')
    (hconsumer : a.isConsumer = false) (hcall : a.isCall = false) :
    s'.stepsLeft = s.stepsLeft := by
  cases a with
  | consumer => cases hconsumer
  | getLastMessage => cases hcall
  | message json =>
      unfold Holder.step at hs
      obtain ⟨-, hs⟩ := Option.ite_none_right_eq_some.mp hs
      cases hfunc : func json with
      | none =>
          rw [hfunc] at hs
          obtain rfl := Option.some.inj hs
          rfl
      | some data =>
          rw [hfunc] at hs
          obtain ⟨r, hr, rfl⟩ := Option.map_eq_some_iff.mp hs
          obtain ⟨-, rfl⟩ := AtomicRingBuffer.call_cases hr
          exact stepsLeft_congr rfl (AtomicRingBuffer.threads_moveTo_of_ne _ (by decide) _)
  | stream =>
      change s.streamStep n = some s' at hs
      unfold Holder.streamStep at hs
      split at hs
      · cases hs
      · obtain ⟨r, hgo, rfl⟩ := Option.map_eq_some_iff.mp hs
        have hother : r.threads .consumer = s.bufferOut.threads .consumer :=
          (AtomicRingBuffer.go_cases hgo).threads_of_ne (by decide)
        split
        · exact stepsLeft_congr rfl hother
        · exact stepsLeft_congr rfl hother
      · obtain rfl := Option.some.inj hs
        rfl

/-- A step of the call brings its end nearer, and a new call is six steps from it. -/
theorem Inv.stepsLeft_le (h : s.Inv n func) {a : Act M} (hs : s.step n func a = some s') :
    s'.stepsLeft + (if a.isConsumer then 1 else 0) ≤ s.stepsLeft + if a.isCall then 6 else 0 := by
  cases a with
  | consumer => exact h.stepsLeft_consumerStep hs
  | getLastMessage => exact s'.stepsLeft_le.trans (Nat.le_add_left 6 _)
  | message json => exact (stepsLeft_step hs rfl rfl).le
  | stream => exact (stepsLeft_step hs rfl rfl).le

/-- The steps that the consumer takes are those that its call had left, and six for each call. -/
theorem Inv.consumer_steps_le (h : s.Inv n func) {as : List (Act M)}
    (hrun : runFrom (Holder.step n func) s as = some s') :
    as.countP Act.isConsumer + s'.stepsLeft ≤ s.stepsLeft + 6 * as.countP Act.isCall :=
  countP_le_measure (fun _ _ _ hi hs => hi.step hs) (fun _ _ _ hi hs => hi.stepsLeft_le hs) h hrun

end Holder

section Main

variable {M A : Type} {n : RingSize} {func : M → Option A} {s : Holder M A} {data : Nat → A}

open Holder

/-- **`getLastMessage` does not block.** Wherever the stream's thread is, a call can go on, and
however the steps of the two threads are ordered, it takes at most six of its own. -/
theorem getLastMessage_wait_free
    (h : Reach (step n func) (fun _ _ => True) (construct n data) s) :
    ((∀ last, s.consumer ≠ .idle last) → ∃ s', s.step n func .consumer = some s') ∧
    ∀ as s', runFrom (step n func) s as = some s' →
      as.countP Act.isConsumer ≤ 6 * (as.countP Act.isCall + 1) := by
  have hi := inv_of_reach h
  refine ⟨hi.consumer_goes, fun as s' hrun => ?_⟩
  have hsteps := hi.consumer_steps_le hrun
  have hleft := s.stepsLeft_le
  omega

/-- `bufferOut` -/
def bufferOutSize : RingSize := ⟨1024, by decide, by decide⟩

/-- Text is parsed to its length, and an empty one is thrown at. -/
def lengthOf (json : List Char) : Option Nat := if json = [] then none else some json.length

/-- A message, one that is dropped, a call that gets the first, another message, and a call. -/
def twoMessages : List (Act (List Char)) :=
  .message ['a'] :: List.replicate 5 .stream ++ [.message [], .getLastMessage] ++
    List.replicate 6 .consumer ++ .message ['b', 'c'] :: List.replicate 5 .stream ++
    [.getLastMessage, .consumer]

def afterTwoMessages : Option (Holder (List Char) Nat) :=
  runFrom (step bufferOutSize lengthOf) (construct bufferOutSize (fun _ => 0)) twoMessages

theorem reach_afterTwoMessages (h : afterTwoMessages.isSome) :
    Reach (step bufferOutSize lengthOf) (fun _ _ => True) (construct bufferOutSize (fun _ => 0))
      (afterTwoMessages.get h) :=
  Reach.refl.of_run (Option.some_get h).symm

theorem getLastMessage_wait_free_twoMessages :
    ∃ s', (afterTwoMessages.get rfl).step bufferOutSize lengthOf .consumer = some s' := by
  have hsome : afterTwoMessages.isSome := rfl
  have hcall : ∀ last, (afterTwoMessages.get hsome).consumer ≠ .idle last :=
    fun last h => by cases h
  exact (getLastMessage_wait_free (reach_afterTwoMessages hsome)).1 hcall

/-- **Every message once, in order.** The calls that succeed get what `func` has returned, from the
first on and each value once. `controlVariable` counts what is left, up to the value that the one
thread has not counted yet and the one that the other is taking; it is never negative and at most
the size of the ring, and the stream's thread waits only when a whole ring is left. -/
theorem getLastMessage_every_message
    (h : Reach (step n func) (fun _ _ => True) (construct n data) s) :
    s.got <+: s.parsed func ∧
    s.controlVariable + s.got.length + s.taken + s.uncounted = (s.parsed func).length ∧
    0 ≤ s.controlVariable ∧ s.controlVariable + s.taken ≤ n.SIZE ∧
    (s.stream = .enqueue → s.step n func .stream = none →
      s.controlVariable + s.taken = n.SIZE) := by
  have hi := inv_of_reach h
  exact ⟨hi.got.trans hi.stream.offered_prefix, hi.count, hi.nonneg, hi.controlVariable_le,
    hi.controlVariable_of_waits⟩

theorem getLastMessage_every_message_twoMessages :
    (afterTwoMessages.get rfl).got = [1] ∧ [1] <+: [1, 2] := by
  have hsome : afterTwoMessages.isSome := rfl
  exact ⟨rfl, (getLastMessage_every_message (reach_afterTwoMessages hsome)).1⟩

end Main

end AstraConnect.Core.Latest
