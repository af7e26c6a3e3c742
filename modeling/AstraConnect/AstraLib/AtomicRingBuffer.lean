import AstraConnect.Lib.Transition
import AstraConnect.Lib.HandOver

set_option autoImplicit false

/-! # The ring buffer that threads share without a lock (`atomicRingBuffer.hpp`)

A producer takes a write ticket and a consumer a read ticket. The slot of a ticket is its remainder,
and the slot's `seq` says whose turn it is there: `seq = ticket` lets the producer with the ticket
write, `seq = ticket + 1` the consumer with the ticket read, and the consumer hands the slot on to
the producer one lap later. `tryEnqueue` and `tryDequeue` look at `seq` first and take the ticket
with a compare-and-exchange, which may fail for no reason.

Any number of threads call any of the operations here; a step is one access to shared memory.
Tickets and `seq` are `int64_t` in the source and unbounded here, so what is proved speaks of
rings on which fewer than `2^63` tickets are taken between two `clearBuffer`s. `line` and `log` are
history variables: what was accepted and who asked, in the order of the tickets, and what the calls
have returned.
-/

namespace AstraConnect.AstraLib

open Transition

/-! ## Slots

`SIZE` is a power of two, so the mask of `index` is the remainder. Two tickets share a slot exactly
when they are whole laps apart, which is what keeps the turns of a slot apart below. -/

/-- `SIZE` with what the class asserts about it. -/
structure RingSize where
  SIZE : Nat
  powerOfTwo : SIZE ≠ 0 ∧ SIZE &&& (SIZE - 1) = 0
  two_le : 2 ≤ SIZE

namespace RingSize

variable (n : RingSize) {t u : Nat}

/-- `ticket & (SIZE - 1)` -/
def index (ticket : Nat) : Nat := ticket &&& (n.SIZE - 1)

theorem index_eq_mod (t : Nat) : n.index t = t % n.SIZE := by
  obtain ⟨k, hk⟩ := (Nat.and_sub_one_eq_zero_iff_isPowerOfTwo n.powerOfTwo.1).mp n.powerOfTwo.2
  rw [index, hk, Nat.and_two_pow_sub_one_eq_mod]

theorem index_add_size (t : Nat) : n.index (t + n.SIZE) = n.index t := by
  rw [index_eq_mod, index_eq_mod, Nat.add_mod_right]

theorem index_of_lt (h : t < n.SIZE) : n.index t = t := by
  rw [index_eq_mod, Nat.mod_eq_of_lt h]

theorem index_lt (t : Nat) : n.index t < n.SIZE := by
  rw [index_eq_mod]
  exact Nat.mod_lt t (Nat.lt_of_lt_of_le Nat.two_pos n.two_le)

variable {n}

/-- The tickets of one slot are whole laps apart. -/
theorem add_size_le (h : n.index t = n.index u) (hlt : t < u) : t + n.SIZE ≤ u := by
  rw [index_eq_mod, index_eq_mod] at h
  have hdvd : n.SIZE ∣ u - t := Nat.dvd_of_mod_eq_zero (Nat.sub_mod_eq_zero_of_mod_eq h.symm)
  have hle : n.SIZE ≤ u - t := Nat.le_of_dvd (by omega) hdvd
  omega

theorem eq_or_lap (h : n.index u = n.index t) :
    u = t ∨ u + n.SIZE ≤ t ∨ t + n.SIZE ≤ u := by
  rcases Nat.lt_trichotomy u t with hlt | heq | hgt
  · exact .inr (.inl (add_size_le h hlt))
  · exact .inl heq
  · exact .inr (.inr (add_size_le h.symm hgt))

end RingSize

/-! ## Calls and threads

A thread is at a place of one of the six calls, with the ticket and the value that it has there.
The ring's own state is `seq`, `data` and the two counters; a step changes at most one of these. -/

inductive RingOp (A : Type) where
  /-- `enqueue`, both of them, and `emplaceEnqueue` -/
  | enqueue (data : A)
  | dequeue
  | tryEnqueue (data : A)
  | tryDequeue
  /-- the order of its two loads is left open -/
  | isEmpty (writeFirst : Bool)
  | approxSize

/-- What a call returns. -/
inductive Outcome (A : Type) where
  | done
  | item (data : A)
  /-- `tryEnqueue` and `tryDequeue` return false -/
  | refused
  | empty (b : Bool)
  | size (n : Nat)

/-- Where a thread is. -/
inductive RingPlace (A : Type) where
  /-- in no call; what its last call has returned -/
  | idle (last : Option (Outcome A))
  /-- `writeTicket.fetch_add(1)` -/
  | takeWrite (data : A)
  /-- `while(seq != ticket)` -/
  | awaitFree (data : A) (ticket : Nat)
  /-- `buffer[index].data = data` -/
  | store (data : A) (ticket : Nat)
  /-- `seq.store(ticket + 1)` -/
  | publish (ticket : Nat)
  /-- `readTicket.fetch_add(1)` -/
  | takeRead
  /-- `while(seq != ticket + 1)` -/
  | awaitItem (ticket : Nat)
  /-- `data = std::move(buffer[index].data)` -/
  | load (ticket : Nat)
  /-- `seq.store(ticket + SIZE)` -/
  | release (ticket : Nat) (data : A)
  /-- `tryEnqueueImpl`: the load of `writeTicket`, of `seq`, and the compare-and-exchange -/
  | peekWrite (data : A)
  | tryFree (data : A) (ticket : Nat)
  | casWrite (data : A) (ticket : Nat)
  /-- `tryDequeue`: the same -/
  | peekRead
  | tryItem (ticket : Nat)
  | casRead (ticket : Nat)
  /-- `isEmpty` and `approxSize`: the two loads -/
  | loadFirst (sized writeFirst : Bool)
  | loadSecond (sized writeFirst : Bool) (first : Nat)

namespace RingPlace

variable {A : Type}

/-- The write ticket the thread holds. -/
def writes : RingPlace A → Option Nat
  | awaitFree _ ticket => some ticket
  | store _ ticket => some ticket
  | publish ticket => some ticket
  | _ => none

/-- The read ticket the thread holds. -/
def reads : RingPlace A → Option Nat
  | awaitItem ticket => some ticket
  | load ticket => some ticket
  | release ticket _ => some ticket
  | _ => none

/-- The ticket whose slot is the thread's own, to access `data` and to hand on by `seq`. -/
def owns : RingPlace A → Option Nat
  | store _ ticket => some ticket
  | publish ticket => some ticket
  | load ticket => some ticket
  | release ticket _ => some ticket
  | _ => none

/-- Where a call begins. -/
def start : RingOp A → RingPlace A
  | .enqueue data => takeWrite data
  | .dequeue => takeRead
  | .tryEnqueue data => peekWrite data
  | .tryDequeue => peekRead
  | .isEmpty writeFirst => loadFirst false writeFirst
  | .approxSize => loadFirst true false

end RingPlace

structure AtomicRingBuffer (τ A : Type) where
  seq : Nat → Nat
  data : Nat → A
  writeTicket : Nat
  readTicket : Nat
  threads : τ → RingPlace A
  line : HandOver τ A
  log : List (HandOver.Delivery τ A)

namespace AtomicRingBuffer

section

variable {τ A : Type} [DecidableEq τ]

def moveTo (s : AtomicRingBuffer τ A) (t : τ) (p : RingPlace A) : AtomicRingBuffer τ A :=
  { s with threads := Function.update s.threads t p }

/-- A write ticket is taken. -/
def claimWrite (s : AtomicRingBuffer τ A) (data : A) : AtomicRingBuffer τ A :=
  { s with writeTicket := s.writeTicket + 1, line := s.line.offer data }

/-- A read ticket is taken. -/
def claimRead (s : AtomicRingBuffer τ A) (t : τ) : AtomicRingBuffer τ A :=
  { s with readTicket := s.readTicket + 1, line := s.line.ask t }

def storeSeq (s : AtomicRingBuffer τ A) (slot seq : Nat) : AtomicRingBuffer τ A :=
  { s with seq := Function.update s.seq slot seq }

def storeData (s : AtomicRingBuffer τ A) (slot : Nat) (data : A) : AtomicRingBuffer τ A :=
  { s with data := Function.update s.data slot data }

def deliver (s : AtomicRingBuffer τ A) (t : τ) (ticket : Nat) (data : A) : AtomicRingBuffer τ A :=
  { s with log := s.log ++ [⟨ticket, t, data⟩] }

/-- `writeTicket - readTicket`, clamped, or whether they are equal. -/
def count (n : RingSize) (sized : Bool) (write read : Nat) : Outcome A :=
  if sized then .size (if write ≤ read then 0 else min (write - read) n.SIZE)
  else .empty (write = read)

/-- A step of a thread inside a call; `none` while it waits. `weak` is the answer of a
compare-and-exchange that fails although the value is the expected one. -/
def go (n : RingSize) (s : AtomicRingBuffer τ A) (t : τ) (weak : Bool) :
    Option (AtomicRingBuffer τ A) :=
  match s.threads t with
  | .idle _ => none
  | .takeWrite data => some ((s.claimWrite data).moveTo t (.awaitFree data s.writeTicket))
  | .awaitFree data ticket =>
      if s.seq (n.index ticket) = ticket then some (s.moveTo t (.store data ticket)) else none
  | .store data ticket =>
      some ((s.storeData (n.index ticket) data).moveTo t (.publish ticket))
  | .publish ticket =>
      some ((s.storeSeq (n.index ticket) (ticket + 1)).moveTo t (.idle (some .done)))
  | .takeRead => some ((s.claimRead t).moveTo t (.awaitItem s.readTicket))
  | .awaitItem ticket =>
      if s.seq (n.index ticket) = ticket + 1 then some (s.moveTo t (.load ticket)) else none
  | .load ticket => some (s.moveTo t (.release ticket (s.data (n.index ticket))))
  | .release ticket data =>
      some (((s.storeSeq (n.index ticket) (ticket + n.SIZE)).deliver t ticket data).moveTo t
        (.idle (some (.item data))))
  | .peekWrite data => some (s.moveTo t (.tryFree data s.writeTicket))
  | .tryFree data ticket =>
      let diff : Int := (s.seq (n.index ticket) : Int) - ticket
      if diff = 0 then some (s.moveTo t (.casWrite data ticket))
      else if diff < 0 then some (s.moveTo t (.idle (some .refused)))
      else some (s.moveTo t (.peekWrite data))
  | .casWrite data ticket =>
      if s.writeTicket = ticket ∧ weak = false then
        some ((s.claimWrite data).moveTo t (.store data ticket))
      else some (s.moveTo t (.tryFree data s.writeTicket))
  | .peekRead => some (s.moveTo t (.tryItem s.readTicket))
  | .tryItem ticket =>
      let diff : Int := (s.seq (n.index ticket) : Int) - (ticket + 1)
      if diff = 0 then some (s.moveTo t (.casRead ticket))
      else if diff < 0 then some (s.moveTo t (.idle (some .refused)))
      else some (s.moveTo t .peekRead)
  | .casRead ticket =>
      if s.readTicket = ticket ∧ weak = false then
        some ((s.claimRead t).moveTo t (.load ticket))
      else some (s.moveTo t (.tryItem s.readTicket))
  | .loadFirst sized writeFirst =>
      some (s.moveTo t
        (.loadSecond sized writeFirst (if writeFirst then s.writeTicket else s.readTicket)))
  | .loadSecond sized writeFirst first =>
      some (s.moveTo t (.idle (some
        (if writeFirst then count n sized first s.readTicket
        else count n sized s.writeTicket first))))

/-- The loop of `prepareBuffer`. -/
def prepareBuffer (n : RingSize) (seq : Nat → Nat) : Nat → Nat :=
  fun i => if i < n.SIZE then i else seq i

def clearBuffer (n : RingSize) (s : AtomicRingBuffer τ A) : AtomicRingBuffer τ A :=
  { s with
    writeTicket := 0
    readTicket := 0
    seq := prepareBuffer n s.seq
    line := ⟨[], []⟩
    log := [] }

/-- A new ring; `data` is what its slots hold. -/
def construct (n : RingSize) (data : Nat → A) : AtomicRingBuffer τ A where
  seq := prepareBuffer n (fun _ => 0)
  data := data
  writeTicket := 0
  readTicket := 0
  threads _ := .idle none
  line := ⟨[], []⟩
  log := []

/-- No call is in progress. -/
def Quiet (s : AtomicRingBuffer τ A) : Prop := ∀ t, ∃ last, s.threads t = .idle last

end

end AtomicRingBuffer

inductive RingAct (τ A : Type) where
  | call (t : τ) (op : RingOp A)
  | go (t : τ) (weak : Bool)
  | clearBuffer

section

variable {τ A : Type} [DecidableEq τ]

def ringStep (n : RingSize) (s : AtomicRingBuffer τ A) :
    RingAct τ A → Option (AtomicRingBuffer τ A)
  | .call t op =>
      match s.threads t with
      | .idle _ => some (s.moveTo t (.start op))
      | _ => none
  | .go t weak => s.go n t weak
  | .clearBuffer => some (s.clearBuffer n)

/-- The ring is only cleared while no call is in progress. -/
def ringOk (s : AtomicRingBuffer τ A) (a : RingAct τ A) : Prop := a = .clearBuffer → s.Quiet

omit [DecidableEq τ] in
theorem ringOk_call {s : AtomicRingBuffer τ A} {t : τ} {op : RingOp A} : ringOk s (.call t op) :=
  fun h => by cases h

omit [DecidableEq τ] in
theorem ringOk_go {s : AtomicRingBuffer τ A} {t : τ} {weak : Bool} : ringOk s (.go t weak) :=
  fun h => by cases h

end

/-! ## The ways a step can go

`Go` is what later proofs split into cases. It has one constructor for each way out of a place,
with what the step has found and the state it leaves. -/

namespace AtomicRingBuffer

variable {τ A : Type} [DecidableEq τ]

/-- One constructor for each way. -/
inductive Go (n : RingSize) (s : AtomicRingBuffer τ A) (t : τ) : AtomicRingBuffer τ A → Prop
  | takeWrite {data : A} (hp : s.threads t = .takeWrite data) :
      Go n s t ((s.claimWrite data).moveTo t (.awaitFree data s.writeTicket))
  | free {data : A} {ticket : Nat} (hp : s.threads t = .awaitFree data ticket)
      (hseq : s.seq (n.index ticket) = ticket) : Go n s t (s.moveTo t (.store data ticket))
  | store {data : A} {ticket : Nat} (hp : s.threads t = .store data ticket) :
      Go n s t ((s.storeData (n.index ticket) data).moveTo t (.publish ticket))
  | publish {ticket : Nat} (hp : s.threads t = .publish ticket) :
      Go n s t ((s.storeSeq (n.index ticket) (ticket + 1)).moveTo t (.idle (some .done)))
  | takeRead (hp : s.threads t = .takeRead) :
      Go n s t ((s.claimRead t).moveTo t (.awaitItem s.readTicket))
  | item {ticket : Nat} (hp : s.threads t = .awaitItem ticket)
      (hseq : s.seq (n.index ticket) = ticket + 1) : Go n s t (s.moveTo t (.load ticket))
  | load {ticket : Nat} (hp : s.threads t = .load ticket) :
      Go n s t (s.moveTo t (.release ticket (s.data (n.index ticket))))
  | release {ticket : Nat} {data : A} (hp : s.threads t = .release ticket data) :
      Go n s t (((s.storeSeq (n.index ticket) (ticket + n.SIZE)).deliver t ticket data).moveTo t
        (.idle (some (.item data))))
  | peekWrite {data : A} (hp : s.threads t = .peekWrite data) :
      Go n s t (s.moveTo t (.tryFree data s.writeTicket))
  | tryFree {data : A} {ticket : Nat} (hp : s.threads t = .tryFree data ticket)
      (hseq : s.seq (n.index ticket) = ticket) : Go n s t (s.moveTo t (.casWrite data ticket))
  | full {data : A} {ticket : Nat} (hp : s.threads t = .tryFree data ticket)
      (hseq : s.seq (n.index ticket) < ticket) : Go n s t (s.moveTo t (.idle (some .refused)))
  | passedWrite {data : A} {ticket : Nat} (hp : s.threads t = .tryFree data ticket)
      (hseq : ticket < s.seq (n.index ticket)) : Go n s t (s.moveTo t (.peekWrite data))
  | casWrite {data : A} {ticket : Nat} (hp : s.threads t = .casWrite data ticket)
      (hticket : s.writeTicket = ticket) :
      Go n s t ((s.claimWrite data).moveTo t (.store data ticket))
  | lostWrite {data : A} {ticket : Nat} (hp : s.threads t = .casWrite data ticket) :
      Go n s t (s.moveTo t (.tryFree data s.writeTicket))
  | peekRead (hp : s.threads t = .peekRead) : Go n s t (s.moveTo t (.tryItem s.readTicket))
  | tryItem {ticket : Nat} (hp : s.threads t = .tryItem ticket)
      (hseq : s.seq (n.index ticket) = ticket + 1) : Go n s t (s.moveTo t (.casRead ticket))
  | noItem {ticket : Nat} (hp : s.threads t = .tryItem ticket)
      (hseq : s.seq (n.index ticket) < ticket + 1) :
      Go n s t (s.moveTo t (.idle (some .refused)))
  | passedRead {ticket : Nat} (hp : s.threads t = .tryItem ticket)
      (hseq : ticket + 1 < s.seq (n.index ticket)) : Go n s t (s.moveTo t .peekRead)
  | casRead {ticket : Nat} (hp : s.threads t = .casRead ticket)
      (hticket : s.readTicket = ticket) : Go n s t ((s.claimRead t).moveTo t (.load ticket))
  | lostRead {ticket : Nat} (hp : s.threads t = .casRead ticket) :
      Go n s t (s.moveTo t (.tryItem s.readTicket))
  | loadFirst {sized writeFirst : Bool} (hp : s.threads t = .loadFirst sized writeFirst) :
      Go n s t (s.moveTo t
        (.loadSecond sized writeFirst (if writeFirst then s.writeTicket else s.readTicket)))
  | loadSecond {sized writeFirst : Bool} {first : Nat}
      (hp : s.threads t = .loadSecond sized writeFirst first) :
      Go n s t (s.moveTo t (.idle (some
        (if writeFirst then count n sized first s.readTicket
        else count n sized s.writeTicket first))))

variable {n : RingSize} {s s' : AtomicRingBuffer τ A} {t : τ}

theorem go_cases {weak : Bool} (hs : s.go n t weak = some s') : Go n s t s' := by
  unfold go at hs
  split at hs
  · cases hs
  · obtain rfl := Option.some.inj hs
    exact .takeWrite ‹_›
  · obtain ⟨hseq, hs⟩ := Option.ite_none_right_eq_some.mp hs
    obtain rfl := Option.some.inj hs
    exact .free ‹_› hseq
  · obtain rfl := Option.some.inj hs
    exact .store ‹_›
  · obtain rfl := Option.some.inj hs
    exact .publish ‹_›
  · obtain rfl := Option.some.inj hs
    exact .takeRead ‹_›
  · obtain ⟨hseq, hs⟩ := Option.ite_none_right_eq_some.mp hs
    obtain rfl := Option.some.inj hs
    exact .item ‹_› hseq
  · obtain rfl := Option.some.inj hs
    exact .load ‹_›
  · obtain rfl := Option.some.inj hs
    exact .release ‹_›
  · obtain rfl := Option.some.inj hs
    exact .peekWrite ‹_›
  · dsimp only at hs
    split at hs
    · obtain rfl := Option.some.inj hs
      exact .tryFree ‹_› (by omega)
    · split at hs
      · obtain rfl := Option.some.inj hs
        exact .full ‹_› (by omega)
      · obtain rfl := Option.some.inj hs
        exact .passedWrite ‹_› (by omega)
  · split at hs
    · rename_i htest
      obtain rfl := Option.some.inj hs
      exact .casWrite ‹_› htest.1
    · obtain rfl := Option.some.inj hs
      exact .lostWrite ‹_›
  · obtain rfl := Option.some.inj hs
    exact .peekRead ‹_›
  · dsimp only at hs
    split at hs
    · obtain rfl := Option.some.inj hs
      exact .tryItem ‹_› (by omega)
    · split at hs
      · obtain rfl := Option.some.inj hs
        exact .noItem ‹_› (by omega)
      · obtain rfl := Option.some.inj hs
        exact .passedRead ‹_› (by omega)
  · split at hs
    · rename_i htest
      obtain rfl := Option.some.inj hs
      exact .casRead ‹_› htest.1
    · obtain rfl := Option.some.inj hs
      exact .lostRead ‹_›
  · obtain rfl := Option.some.inj hs
    exact .loadFirst ‹_›
  · obtain rfl := Option.some.inj hs
    exact .loadSecond ‹_›

@[simp] theorem threads_moveTo_self (s : AtomicRingBuffer τ A) (t : τ) (p : RingPlace A) :
    (s.moveTo t p).threads t = p := Function.update_self ..

@[simp] theorem threads_moveTo_of_ne (s : AtomicRingBuffer τ A) {t t' : τ} (h : t' ≠ t)
    (p : RingPlace A) : (s.moveTo t p).threads t' = s.threads t' := Function.update_of_ne h ..

/-- A call begins in a thread that is in none. -/
theorem call_cases {op : RingOp A} (hs : ringStep n s (.call t op) = some s') :
    (∃ last, s.threads t = .idle last) ∧ s' = s.moveTo t (.start op) := by
  unfold ringStep at hs
  dsimp only at hs
  split at hs
  · obtain rfl := Option.some.inj hs
    exact ⟨⟨_, ‹_›⟩, rfl⟩
  · cases hs

/-- The other threads stay where they are. -/
theorem Go.threads_of_ne (hs : Go n s t s') {t' : τ} (h : t' ≠ t) :
    s'.threads t' = s.threads t' := by
  cases hs <;> exact threads_moveTo_of_ne _ h _

end AtomicRingBuffer

/-! ## Runs on the smallest ring -/

namespace RingSize

def two : RingSize := ⟨2, by decide, le_rfl⟩

end RingSize

/-- Two threads, and a ring that nobody clears. -/
def runOnTwo (as : List (RingAct Bool Nat)) : Option (AtomicRingBuffer Bool Nat) :=
  runFrom (fun s a => if a matches .clearBuffer then none else ringStep .two s a)
    (.construct .two (fun _ => 0)) as

theorem reach_runOnTwo {as : List (RingAct Bool Nat)} (h : (runOnTwo as).isSome) :
    Reach (ringStep .two) ringOk (.construct .two (fun _ => 0)) ((runOnTwo as).get h) := by
  let uses (_ : AtomicRingBuffer Bool Nat) (a : RingAct Bool Nat) : Bool :=
    !(a matches .clearBuffer)
  have htest : ∀ s a, uses s a = true → ringOk s a := by
    rintro s a htest rfl
    cases htest
  apply Reach.of_runFrom htest .refl
  rw [Option.some_get, runOnTwo]
  congr 1
  funext s a
  cases a <;> rfl

end AstraConnect.AstraLib
