import AstraConnect.AstraLib.RingProgress

set_option autoImplicit false

/-! # The ring as a queue that holds at most `SIZE` values

What one call does while no other call is in progress is what it does to a bounded queue
(`queueCall`), whether or not the compare-and-exchanges fail on the way: it returns what the queue
returns, leaves the values that the queue leaves, and waits only where a queue would
(`ring_call_is_queue_call`). Between calls nothing is lost or left over (`ring_quiet`).
-/

namespace AstraConnect.AstraLib

open Transition HandOver

/-- A call on a queue that holds at most `size` values; `none` where it would wait. -/
def queueCall {A : Type} (size : Nat) (q : List A) : RingOp A → Option (List A × Outcome A)
  | .enqueue v => if q.length < size then some (q ++ [v], .done) else none
  | .dequeue => q.head?.map (fun v => (q.tail, .item v))
  | .tryEnqueue v => some (if q.length < size then (q ++ [v], .done) else (q, .refused))
  | .tryDequeue => some (q.head?.elim (q, .refused) (fun v => (q.tail, .item v)))
  | .isEmpty _ => some (q, .empty q.isEmpty)
  | .approxSize => some (q, .size q.length)

namespace AtomicRingBuffer

variable {τ A : Type} {n : RingSize} {s s' : AtomicRingBuffer τ A} {t : τ} {ticket : Nat}

/-! ## Slots while one thread is in a call

With nobody else in a call, and no ticket in the hands of this one, nobody holds a ticket. Then the
counters alone say which tickets are published and released, and so whether a slot is free or has a
value. -/

/-- Nobody but the thread is in a call. -/
def Alone (s : AtomicRingBuffer τ A) (t : τ) : Prop :=
  ∀ t', t' ≠ t → ∃ last, s.threads t' = .idle last

theorem Alone.writes (h : s.Alone t) (hw : (s.threads t).writes = none) (t' : τ) :
    (s.threads t').writes = none := by
  by_cases ht : t' = t
  · rw [ht, hw]
  · obtain ⟨last, hp⟩ := h t' ht
    rw [hp]
    rfl

theorem Alone.reads (h : s.Alone t) (hr : (s.threads t).reads = none) (t' : τ) :
    (s.threads t').reads = none := by
  by_cases ht : t' = t
  · rw [ht, hr]
  · obtain ⟨last, hp⟩ := h t' ht
    rw [hp]
    rfl

theorem Inv.published_iff (h : s.Inv n) (hw : ∀ t, (s.threads t).writes = none) :
    Published n s ticket ↔ ticket < s.writeTicket := by
  constructor
  · intro hpub
    exact Nat.lt_of_not_le (fun hle => h.unwritten ticket hle hpub)
  · intro hlt
    exact h.published ticket hlt (fun t => hw t ▸ nofun)

theorem Inv.released_iff (h : s.Inv n) (hr : ∀ t, (s.threads t).reads = none) :
    Released n s ticket ↔ ticket < s.readTicket := by
  constructor
  · intro hrel
    exact Nat.lt_of_not_le (fun hle => h.unread ticket hle hrel)
  · intro hlt
    exact h.released ticket hlt (fun t => hr t ▸ nofun)

theorem Inv.read_le_write (h : s.Inv n) (hr : ∀ t, (s.threads t).reads = none) :
    s.readTicket ≤ s.writeTicket := by
  by_contra hlt
  have hrel : Released n s s.writeTicket := (h.released_iff hr).mpr (Nat.lt_of_not_le hlt)
  have hsize := n.two_le
  apply h.unwritten s.writeTicket le_rfl
  rw [Released] at hrel
  rw [Published]
  omega

theorem Inv.write_le_read (h : s.Inv n) (hw : ∀ t, (s.threads t).writes = none) :
    s.writeTicket ≤ s.readTicket + n.SIZE := by
  by_contra hlt
  have hpub : Published n s (s.readTicket + n.SIZE) := by
    rw [h.published_iff hw]
    omega
  apply h.unread s.readTicket le_rfl
  rw [Published, n.index_add_size] at hpub
  exact Nat.le_of_lt hpub

/-- A slot is free for the next ticket when there is room. -/
theorem Inv.free_iff (h : s.Inv n) (hr : ∀ t, (s.threads t).reads = none)
    (hle : s.seq (n.index ticket) ≤ ticket) :
    s.seq (n.index ticket) = ticket ↔ ticket < s.readTicket + n.SIZE := by
  constructor
  · intro hseq
    by_contra hfull
    have hunread : ¬ Released n s (ticket - n.SIZE) := h.unread _ (by omega)
    have hindex : n.index (ticket - n.SIZE) = n.index ticket := by
      rw [← n.index_add_size, Nat.sub_add_cancel (by omega)]
    rw [Released, hindex] at hunread
    omega
  · intro hroom
    by_contra hne
    obtain ⟨before, hbefore, hrel⟩ := h.lap_before (show s.seq (n.index ticket) < ticket by omega)
    exact hrel ((h.released_iff hr).mpr (by omega))

/-- A slot has the ticket's value when it was put in. -/
theorem Inv.item_iff (h : s.Inv n) (hw : ∀ t, (s.threads t).writes = none)
    (hlt : s.seq (n.index ticket) < ticket + n.SIZE) :
    s.seq (n.index ticket) = ticket + 1 ↔ ticket < s.writeTicket := by
  rw [← h.published_iff hw]
  constructor
  · intro hseq
    rw [Published]
    omega
  · intro hpub
    by_contra hne
    exact h.not_published hne hlt hpub

/-! ## What becomes of a call

`Due` goes with the call from place to place: before its ticket is taken the queue is as it was
found, after that it is as the queue's own call leaves it. Each place that does more than pass this
on has its own lemma. -/

/-- Where a call that found the values `q` is, the values that are left now, and what it returns. -/
def Due (n : RingSize) (q : List A) (op : RingOp A) (s : AtomicRingBuffer τ A) :
    RingPlace A → Prop
  | .idle last => ∃ out, last = some out ∧ queueCall n.SIZE q op = some (s.line.items, out)
  | .takeWrite v => op = .enqueue v ∧ s.line.items = q
  | .awaitFree v ticket =>
      op = .enqueue v ∧ s.line.items = q ++ [v] ∧ s.writeTicket = ticket + 1 ∧
        s.readTicket ≤ ticket
  | .store _ _ => queueCall n.SIZE q op = some (s.line.items, .done)
  | .publish _ => queueCall n.SIZE q op = some (s.line.items, .done)
  | .takeRead => op = .dequeue ∧ s.line.items = q
  | .awaitItem ticket =>
      op = .dequeue ∧ s.line.items = q.tail ∧ s.line.offered[ticket]? = q.head?
  | .load ticket =>
      ∃ v, s.line.offered[ticket]? = some v ∧ queueCall n.SIZE q op = some (s.line.items, .item v)
  | .release _ v => queueCall n.SIZE q op = some (s.line.items, .item v)
  | .peekWrite v => op = .tryEnqueue v ∧ s.line.items = q
  | .tryFree v ticket => op = .tryEnqueue v ∧ s.line.items = q ∧ ticket = s.writeTicket
  | .casWrite v ticket =>
      op = .tryEnqueue v ∧ s.line.items = q ∧ ticket = s.writeTicket ∧ q.length < n.SIZE
  | .peekRead => op = .tryDequeue ∧ s.line.items = q
  | .tryItem ticket => op = .tryDequeue ∧ s.line.items = q ∧ ticket = s.readTicket
  | .casRead ticket =>
      op = .tryDequeue ∧ s.line.items = q ∧ ticket = s.readTicket ∧ s.line.offered[ticket]? ≠ none
  | .loadFirst sized writeFirst =>
      op = (if sized then .approxSize else .isEmpty writeFirst) ∧ s.line.items = q
  | .loadSecond sized writeFirst first =>
      op = (if sized then .approxSize else .isEmpty writeFirst) ∧ s.line.items = q ∧
        first = if writeFirst then s.writeTicket else s.readTicket

theorem Inv.length_items (h : s.Inv n) : s.line.items.length = s.writeTicket - s.readTicket := by
  rw [HandOver.length_items, h.offered, h.asked]

theorem Inv.head?_items (h : s.Inv n) : s.line.items.head? = s.line.offered[s.readTicket]? := by
  rw [HandOver.head?_items, h.asked]

/-- `isEmpty` and `approxSize` count the values of a ring that is not too full. -/
theorem Inv.count_eq (h : s.Inv n) (hle : s.readTicket ≤ s.writeTicket)
    (hroom : s.writeTicket ≤ s.readTicket + n.SIZE) (sized writeFirst : Bool) :
    queueCall n.SIZE s.line.items (if sized then .approxSize else .isEmpty writeFirst) =
      some (s.line.items, count n sized s.writeTicket s.readTicket) := by
  have hlen := h.length_items
  cases sized with
  | true =>
      show some (_, Outcome.size _) = some (_, Outcome.size _)
      rw [hlen]
      congr 3
      split <;> omega
  | false =>
      show some (_, Outcome.empty _) = some (_, Outcome.empty _)
      congr 3
      rw [Bool.eq_iff_iff, List.isEmpty_iff_length_eq_zero, hlen, decide_eq_true_iff]
      omega

theorem queueCall_enqueue {size : Nat} {q : List A} {v : A} (h : q.length < size) :
    queueCall size q (.enqueue v) = some (q ++ [v], .done) := if_pos h

theorem queueCall_tryEnqueue {size : Nat} {q : List A} {v : A} (h : q.length < size) :
    queueCall size q (.tryEnqueue v) = some (q ++ [v], .done) := congrArg some (if_pos h)

theorem queueCall_dequeue {size : Nat} {q : List A} {v : A} (h : q.head? = some v) :
    queueCall size q .dequeue = some (q.tail, .item v) := by
  rw [queueCall, h]
  rfl

theorem queueCall_tryDequeue {size : Nat} {q : List A} {v : A} (h : q.head? = some v) :
    queueCall size q .tryDequeue = some (q.tail, .item v) := by
  rw [queueCall, h]
  rfl

variable {q : List A} {op : RingOp A}

/-- A write ticket puts the value behind the others. -/
theorem Inv.items_claimWrite (h : s.Inv n) (hle : s.readTicket ≤ s.writeTicket) (v : A) :
    (s.claimWrite v).line.items = s.line.items ++ [v] := by
  apply HandOver.items_offer
  rw [waiting_eq_nil_iff, h.offered, h.asked]
  exact hle

theorem Due.takeWrite {v : A} (hd : Due n q op s (.takeWrite v)) (h : s.Inv n)
    (hr : ∀ t, (s.threads t).reads = none) :
    Due n q op (s.claimWrite v) (.awaitFree v s.writeTicket) := by
  obtain ⟨rfl, rfl⟩ := hd
  have hle := h.read_le_write hr
  exact ⟨rfl, h.items_claimWrite hle v, rfl, hle⟩

/-- A blocking `enqueue` goes on where the queue has room. -/
theorem Due.free {v : A} (hd : Due n q op s (.awaitFree v ticket)) (h : s.Inv n)
    (hr : ∀ t, (s.threads t).reads = none) (hseq : s.seq (n.index ticket) = ticket) :
    Due n q op s (.store v ticket) := by
  obtain ⟨rfl, hitems, hnext, hle⟩ := hd
  have hroom := (h.free_iff hr hseq.le).mp hseq
  have hlen := h.length_items
  rw [hitems, List.length_append, List.length_singleton] at hlen
  show queueCall n.SIZE q _ = some (s.line.items, _)
  rw [hitems]
  exact queueCall_enqueue (by omega)

theorem Due.takeRead (hd : Due n q op s .takeRead) (h : s.Inv n) :
    Due n q op (s.claimRead t) (.awaitItem s.readTicket) := by
  obtain ⟨rfl, rfl⟩ := hd
  exact ⟨rfl, HandOver.items_ask t, h.head?_items.symm⟩

/-- A blocking `dequeue` goes on where the queue has a value. -/
theorem Due.item (hd : Due n q op s (.awaitItem ticket)) (h : s.Inv n)
    (hw : ∀ t, (s.threads t).writes = none) (hseq : s.seq (n.index ticket) = ticket + 1) :
    Due n q op s (.load ticket) := by
  obtain ⟨rfl, hitems, hhead⟩ := hd
  have hsize := n.two_le
  have hlt := (h.item_iff hw (by omega)).mp hseq
  rw [← h.offered] at hlt
  refine ⟨s.line.offered[ticket], List.getElem?_eq_getElem hlt, ?_⟩
  rw [hitems]
  apply queueCall_dequeue
  rw [← hhead, List.getElem?_eq_getElem hlt]

theorem Due.load (hd : Due n q op s (.load ticket))
    (hdata : s.line.offered[ticket]? = some (s.data (n.index ticket))) :
    Due n q op s (.release ticket (s.data (n.index ticket))) := by
  obtain ⟨v, hv, hcall⟩ := hd
  obtain rfl := Option.some.inj (hv.symm.trans hdata)
  exact hcall

theorem Due.tryFree {v : A} (hd : Due n q op s (.tryFree v ticket)) (h : s.Inv n)
    (hr : ∀ t, (s.threads t).reads = none) (hseq : s.seq (n.index ticket) = ticket) :
    Due n q op s (.casWrite v ticket) := by
  obtain ⟨rfl, rfl, hticket⟩ := hd
  have hroom := (h.free_iff hr hseq.le).mp hseq
  have hle := h.read_le_write hr
  have hlen := h.length_items
  have hsize := n.two_le
  exact ⟨rfl, rfl, hticket, by omega⟩

/-- `tryEnqueue` is refused by a full queue only. -/
theorem Due.full {v : A} (hd : Due n q op s (.tryFree v ticket)) (h : s.Inv n)
    (hr : ∀ t, (s.threads t).reads = none) (hseq : s.seq (n.index ticket) < ticket) :
    Due n q op s (.idle (some .refused)) := by
  obtain ⟨rfl, rfl, hticket⟩ := hd
  have hfull := mt (h.free_iff hr hseq.le).mpr (by omega)
  have hlen := h.length_items
  refine ⟨_, rfl, congrArg some (if_neg ?_)⟩
  omega

theorem Due.casWrite {v : A} (hd : Due n q op s (.casWrite v ticket)) (h : s.Inv n)
    (hr : ∀ t, (s.threads t).reads = none) : Due n q op (s.claimWrite v) (.store v ticket) := by
  obtain ⟨rfl, rfl, -, hroom⟩ := hd
  show _ = some ((s.claimWrite v).line.items, _)
  rw [h.items_claimWrite (h.read_le_write hr)]
  exact queueCall_tryEnqueue hroom

theorem Due.tryItem (hd : Due n q op s (.tryItem ticket)) (h : s.Inv n)
    (hw : ∀ t, (s.threads t).writes = none) (hseq : s.seq (n.index ticket) = ticket + 1) :
    Due n q op s (.casRead ticket) := by
  obtain ⟨rfl, rfl, hticket⟩ := hd
  have hsize := n.two_le
  have hlt := (h.item_iff hw (by omega)).mp hseq
  rw [← h.offered] at hlt
  refine ⟨rfl, rfl, hticket, ?_⟩
  rw [List.getElem?_eq_getElem hlt]
  nofun

/-- `tryDequeue` is refused by an empty queue only. -/
theorem Due.noItem (hd : Due n q op s (.tryItem ticket)) (h : s.Inv n)
    (hw : ∀ t, (s.threads t).writes = none) (hseq : s.seq (n.index ticket) < ticket + 1) :
    Due n q op s (.idle (some .refused)) := by
  obtain ⟨rfl, rfl, hticket⟩ := hd
  have hsize := n.two_le
  have hlen := h.length_items
  have hlap : s.seq (n.index ticket) < ticket + n.SIZE := by omega
  have hempty := mt (h.item_iff hw hlap).mpr (by omega)
  have hnil : s.line.items = [] := List.eq_nil_of_length_eq_zero (by omega)
  refine ⟨.refused, rfl, ?_⟩
  rw [hnil]
  rfl

theorem Due.casRead (hd : Due n q op s (.casRead ticket)) (h : s.Inv n) :
    Due n q op (s.claimRead t) (.load ticket) := by
  obtain ⟨rfl, rfl, hticket, hsome⟩ := hd
  obtain ⟨v, hv⟩ := Option.ne_none_iff_exists'.mp hsome
  refine ⟨v, hv, ?_⟩
  rw [show (s.claimRead t).line.items = s.line.items.tail from HandOver.items_ask t]
  apply queueCall_tryDequeue
  rw [h.head?_items, ← hticket, hv]

/-- The second counter is that of the same moment as the first: nobody else is in a call. -/
theorem Due.loadSecond {sized writeFirst : Bool} {first : Nat}
    (hd : Due n q op s (.loadSecond sized writeFirst first)) (h : s.Inv n)
    (hw : ∀ t, (s.threads t).writes = none) (hr : ∀ t, (s.threads t).reads = none) :
    Due n q op s (.idle (some (if writeFirst then count n sized first s.readTicket
      else count n sized s.writeTicket first))) := by
  obtain ⟨rfl, rfl, rfl⟩ := hd
  refine ⟨_, rfl, ?_⟩
  rw [h.count_eq (h.read_le_write hr) (h.write_le_read hw)]
  cases writeFirst <;> rfl

section

variable [DecidableEq τ]

theorem Alone.go (h : s.Alone t) (hs : Go n s t s') : s'.Alone t := by
  intro t' ht
  obtain ⟨last, hp⟩ := h t' ht
  exact ⟨last, (hs.threads_of_ne ht).trans hp⟩

/-- **One step of the call.** -/
theorem Due.go (hd : Due n q op s (s.threads t)) (h : s.Inv n) (ha : s.Alone t)
    (hs : Go n s t s') : Due n q op s' (s'.threads t) := by
  have hdue {p : RingPlace A} (hp : s.threads t = p) : Due n q op s p := hp ▸ hd
  have hw {p : RingPlace A} (hp : s.threads t = p) (hnone : p.writes = none) :
      ∀ t', (s.threads t').writes = none := ha.writes (hp ▸ hnone)
  have hr {p : RingPlace A} (hp : s.threads t = p) (hnone : p.reads = none) :
      ∀ t', (s.threads t').reads = none := ha.reads (hp ▸ hnone)
  cases hs <;> rw [threads_moveTo_self]
  case takeWrite hp => exact (hdue hp).takeWrite h (hr hp rfl)
  case free hp hseq => exact (hdue hp).free h (hr hp rfl) hseq
  case store hp => exact hdue hp
  case publish hp => exact ⟨_, rfl, hdue hp⟩
  case takeRead hp => exact (hdue hp).takeRead h
  case item hp hseq => exact (hdue hp).item h (hw hp rfl) hseq
  case load hp =>
    have hafter := (h.go (.load hp)).promise t
    rw [threads_moveTo_self] at hafter
    exact (hdue hp).load hafter.2.1
  case release hp => exact ⟨_, rfl, hdue hp⟩
  case peekWrite hp => exact ⟨(hdue hp).1, (hdue hp).2, rfl⟩
  case tryFree hp hseq => exact (hdue hp).tryFree h (hr hp rfl) hseq
  case full hp hseq => exact (hdue hp).full h (hr hp rfl) hseq
  case passedWrite hp _ => exact ⟨(hdue hp).1, (hdue hp).2.1⟩
  case casWrite hp _ => exact (hdue hp).casWrite h (hr hp rfl)
  case lostWrite hp => exact ⟨(hdue hp).1, (hdue hp).2.1, rfl⟩
  case peekRead hp => exact ⟨(hdue hp).1, (hdue hp).2, rfl⟩
  case tryItem hp hseq => exact (hdue hp).tryItem h (hw hp rfl) hseq
  case noItem hp hseq => exact (hdue hp).noItem h (hw hp rfl) hseq
  case passedRead hp _ => exact ⟨(hdue hp).1, (hdue hp).2.1⟩
  case casRead hp _ => exact (hdue hp).casRead h
  case lostRead hp => exact ⟨(hdue hp).1, (hdue hp).2.1, rfl⟩
  case loadFirst hp => exact ⟨(hdue hp).1, (hdue hp).2, rfl⟩
  case loadSecond hp => exact (hdue hp).loadSecond h (hw hp rfl) (hr hp rfl)

/-! ## How long a call takes -/

/-- The steps that a call has left when nobody is in its way. -/
def stepsLeft : RingPlace A → Nat
  | .idle _ => 0
  | .publish _ => 1
  | .release _ _ => 1
  | .loadSecond _ _ _ => 1
  | .store _ _ => 2
  | .load _ => 2
  | .loadFirst _ _ => 2
  | .awaitFree _ _ => 3
  | .awaitItem _ => 3
  | .casWrite _ _ => 3
  | .casRead _ => 3
  | .takeWrite _ => 4
  | .takeRead => 4
  | .tryFree _ _ => 4
  | .tryItem _ => 4
  | .peekWrite _ => 5
  | .peekRead => 5

/-- A call that the queue answers is not held up. -/
theorem Due.moves (hd : Due n q op s (s.threads t)) (h : s.Inv n) (ha : s.Alone t)
    (hanswer : queueCall n.SIZE q op ≠ none) (hbusy : 0 < stepsLeft (s.threads t)) :
    ∃ s', s.go n t false = some s' ∧ stepsLeft (s'.threads t) < stepsLeft (s.threads t) := by
  have hmine := h.promise t
  have hlen := h.length_items
  have hsize := n.two_le
  unfold AtomicRingBuffer.go
  cases hp : s.threads t <;> rw [hp] at hd hmine hbusy
  case idle last => exact absurd hbusy (Nat.lt_irrefl 0)
  case awaitFree v ticket =>
    obtain ⟨rfl, hitems, hnext, hle⟩ := hd
    rw [hitems, List.length_append, List.length_singleton] at hlen
    have hroom : q.length < n.SIZE := by
      by_contra hfull
      exact hanswer (if_neg hfull)
    have hseq := (h.free_iff (ha.reads (by rw [hp]; rfl)) hmine.2).mpr (by omega)
    dsimp only
    rw [if_pos hseq]
    exact ⟨_, rfl, by simp [stepsLeft]⟩
  case awaitItem ticket =>
    obtain ⟨rfl, hitems, hhead⟩ := hd
    have hlt : ticket < s.line.offered.length := by
      by_contra hge
      rw [List.getElem?_eq_none (Nat.le_of_not_lt hge)] at hhead
      apply hanswer
      rw [queueCall, ← hhead]
      rfl
    rw [h.offered] at hlt
    have hseq := (h.item_iff (ha.writes (by rw [hp]; rfl)) hmine.2).mpr hlt
    dsimp only
    rw [if_pos hseq]
    exact ⟨_, rfl, by simp [stepsLeft]⟩
  case tryFree v ticket =>
    obtain ⟨-, -, rfl⟩ := hd
    have hunwritten := h.unwritten s.writeTicket le_rfl
    rw [Published] at hunwritten
    dsimp only
    split
    · exact ⟨_, rfl, by simp [stepsLeft]⟩
    · rw [if_pos (by omega)]
      exact ⟨_, rfl, by simp [stepsLeft]⟩
  case tryItem ticket =>
    obtain ⟨-, -, rfl⟩ := hd
    have hunread := h.unread s.readTicket le_rfl
    rw [Released] at hunread
    obtain ⟨u, hslot, hu⟩ := h.turn s.readTicket
    have hlap := RingSize.eq_or_lap hslot
    dsimp only
    split
    · exact ⟨_, rfl, by simp [stepsLeft]⟩
    · rw [if_pos (by omega)]
      exact ⟨_, rfl, by simp [stepsLeft]⟩
  case casWrite v ticket =>
    obtain ⟨-, -, hticket, -⟩ := hd
    dsimp only
    rw [if_pos ⟨hticket.symm, rfl⟩]
    exact ⟨_, rfl, by simp [stepsLeft]⟩
  case casRead ticket =>
    obtain ⟨-, -, hticket, -⟩ := hd
    dsimp only
    rw [if_pos ⟨hticket.symm, rfl⟩]
    exact ⟨_, rfl, by simp [stepsLeft]⟩
  all_goals exact ⟨_, rfl, by simp [stepsLeft]⟩

/-! ## The whole call -/

/-- What holds while the thread is in its call. -/
structure Calling (n : RingSize) (q : List A) (op : RingOp A) (t : τ) (s : AtomicRingBuffer τ A) :
    Prop where
  inv : s.Inv n
  alone : s.Alone t
  due : Due n q op s (s.threads t)

theorem Calling.go (h : Calling n q op t s) (hs : Go n s t s') : Calling n q op t s' :=
  ⟨h.inv.go hs, h.alone.go hs, h.due.go h.inv h.alone hs⟩

theorem Calling.run (h : Calling n q op t s) {weaks : List Bool}
    (hrun : runFrom (ringStep n) s (weaks.map (.go t)) = some s') : Calling n q op t s' := by
  induction weaks generalizing s with
  | nil =>
      obtain rfl := Option.some.inj hrun
      exact h
  | cons weak weaks ih =>
      rw [List.map_cons, runFrom, Option.bind_eq_some_iff] at hrun
      obtain ⟨s₁, hs, hrest⟩ := hrun
      exact ih (h.go (go_cases hs)) hrest

theorem Calling.begin (h : s.Inv n) (hquiet : s.Quiet) (t : τ) (op : RingOp A) :
    ringStep n s (.call t op) = some (s.moveTo t (.start op)) ∧
      Calling n s.line.items op t (s.moveTo t (.start op)) := by
  obtain ⟨last, hp⟩ := hquiet t
  refine ⟨?_, h.call hp op, fun t' ht => ?_, ?_⟩
  · rw [ringStep, hp]
  · rw [threads_moveTo_of_ne s ht]
    exact hquiet t'
  · rw [threads_moveTo_self]
    cases op with
    | isEmpty writeFirst => exact ⟨rfl, rfl⟩
    | approxSize => exact ⟨rfl, rfl⟩
    | _ => exact ⟨rfl, rfl⟩

/-- A call that the queue answers returns after its own steps. -/
theorem Calling.returns (h : Calling n q op t s) (hanswer : queueCall n.SIZE q op ≠ none) :
    ∃ k ≤ stepsLeft (s.threads t), ∃ s' last,
      runFrom (ringStep n) s (List.replicate k (.go t false)) = some s' ∧
      s'.threads t = .idle last := by
  induction hleft : stepsLeft (s.threads t) using Nat.strong_induction_on generalizing s with
  | _ left ih =>
      subst hleft
      rcases Nat.eq_zero_or_pos (stepsLeft (s.threads t)) with hzero | hbusy
      · refine ⟨0, Nat.zero_le _, s, ?_⟩
        cases hp : s.threads t with
        | idle last => exact ⟨last, rfl, rfl⟩
        | _ =>
            rw [hp] at hzero
            cases hzero
      · obtain ⟨s₁, hs, hless⟩ := h.due.moves h.inv h.alone hanswer hbusy
        obtain ⟨k, hk, s', last, hrun, hlast⟩ := ih _ hless (h.go (go_cases hs)) rfl
        refine ⟨k + 1, by omega, s', last, ?_, hlast⟩
        rw [List.replicate_succ, runFrom, ringStep, hs]
        exact hrun

omit [DecidableEq τ] in
theorem stepsLeft_le (p : RingPlace A) : stepsLeft p ≤ 5 := by cases p <;> simp [stepsLeft]

end

end AtomicRingBuffer

section Main

variable {τ A : Type} [DecidableEq τ] {n : RingSize} {s : AtomicRingBuffer τ A} {data : Nat → A}

open AtomicRingBuffer

/-- **A call on its own is a call on a queue.** Once nobody else is in a call, whatever the
compare-and-exchanges do, a call that returns has returned the queue's answer and has left the
queue's values; and one that the queue answers can always return within five more steps. -/
theorem ring_call_is_queue_call (h : Reach (ringStep n) ringOk (construct n data) s)
    (hquiet : s.Quiet) (t : τ) (op : RingOp A) (weaks : List Bool) {s' : AtomicRingBuffer τ A}
    (hrun : runFrom (ringStep n) s (.call t op :: weaks.map (.go t)) = some s') :
    (∀ last, s'.threads t = .idle last → s'.Quiet ∧
      ∃ out, last = some out ∧ queueCall n.SIZE s.line.items op = some (s'.line.items, out)) ∧
    (queueCall n.SIZE s.line.items op ≠ none → ∃ k ≤ 5, ∃ s'' last,
      runFrom (ringStep n) s' (List.replicate k (.go t false)) = some s'' ∧
      s''.threads t = .idle last) := by
  have hi := inv_of_reach h
  obtain ⟨hcall, hbegin⟩ := Calling.begin hi hquiet t op
  rw [runFrom, hcall] at hrun
  have hcalling := hbegin.run hrun
  constructor
  · intro last hlast
    have hdue := hcalling.due
    rw [hlast] at hdue
    refine ⟨fun t' => ?_, hdue⟩
    by_cases ht : t' = t
    · exact ⟨last, ht ▸ hlast⟩
    · exact hcalling.alone t' ht
  · intro hanswer
    obtain ⟨k, hk, hreturn⟩ := hcalling.returns hanswer
    exact ⟨k, hk.trans (stepsLeft_le _), hreturn⟩

/-- A value stays in the ring. -/
def leaveOne : List (RingAct Bool Nat) :=
  [.call true (.enqueue 7), .go true false, .go true false, .go true false, .go true false]

theorem quiet_leaveOne : ((runOnTwo leaveOne).get rfl).Quiet
  | true => ⟨_, rfl⟩
  | false => ⟨_, rfl⟩

/-- The first compare-and-exchange of a `tryEnqueue` fails without a reason. -/
def failsOnce : List Bool := [false, false, true, false, false, false, false]

theorem ring_call_is_queue_call_leaveOne :
    ∃ s', runFrom (ringStep .two) ((runOnTwo leaveOne).get rfl)
        (.call true (.tryEnqueue 9) :: failsOnce.map (.go true)) = some s' ∧
      s'.line.items = [7, 9] ∧
      (s'.Quiet ∧ ∃ out, some Outcome.done = some out ∧
        queueCall 2 [7] (.tryEnqueue 9) = some (s'.line.items, out)) ∧
      ∃ k ≤ 5, ∃ s'' last,
        runFrom (ringStep .two) s' (List.replicate k (.go true false)) = some s'' ∧
        s''.threads true = .idle last := by
  have hrun := (Option.some_get (show (runFrom (ringStep .two) ((runOnTwo leaveOne).get rfl)
    (.call true (.tryEnqueue 9) :: failsOnce.map (.go true))).isSome from rfl)).symm
  have hcall := ring_call_is_queue_call (reach_runOnTwo rfl) quiet_leaveOne true (.tryEnqueue 9)
    failsOnce hrun
  exact ⟨_, hrun, rfl, hcall.1 _ rfl, hcall.2 nofun⟩

/-- **Nothing is lost or left over between calls.** The values that were returned are those of the
first tickets, each once. The others are in the slots that follow, in order, and are at most
`SIZE`. -/
theorem ring_quiet (h : Reach (ringStep n) ringOk (construct n data) s) (hquiet : s.Quiet) :
    s.readTicket ≤ s.writeTicket ∧ s.writeTicket ≤ s.readTicket + n.SIZE ∧
    (s.log.map Delivery.value ++ s.line.items).Perm s.line.offered ∧
    s.line.items.length = s.writeTicket - s.readTicket ∧
    ∀ i < s.writeTicket - s.readTicket,
      s.line.items[i]? = some (s.data (n.index (s.readTicket + i))) := by
  have hi := inv_of_reach h
  have hw : ∀ t, (s.threads t).writes = none := by
    intro t
    obtain ⟨last, hp⟩ := hquiet t
    rw [hp]
    rfl
  have hr : ∀ t, (s.threads t).reads = none := by
    intro t
    obtain ⟨last, hp⟩ := hquiet t
    rw [hp]
    rfl
  refine ⟨hi.read_le_write hr, hi.write_le_read hw, ?_, hi.length_items, fun i hlt => ?_⟩
  · have hreturned : (s.log.map Delivery.value).Perm (s.line.offered.take s.line.asked.length) := by
      apply hi.faithful.perm_take
      intro ticket hlt
      rw [hi.asked] at hlt
      rwa [hi.logged, hi.released_iff hr]
    have hall := hreturned.append_right s.line.items
    rwa [HandOver.items, List.take_append_drop] at hall
  · rw [HandOver.items, List.getElem?_drop, hi.asked]
    apply hi.data
    · rw [hi.published_iff hw]
      omega
    · rw [hi.released_iff hr]
      omega

theorem ring_quiet_leaveOne :
    let s := (runOnTwo leaveOne).get rfl
    s.line.items = [7] ∧
      s.line.items[0]? = some (s.data (RingSize.two.index (s.readTicket + 0))) := by
  have hquiet := ring_quiet (reach_runOnTwo rfl) quiet_leaveOne
  exact ⟨rfl, hquiet.2.2.2.2 0 (Nat.lt_succ_self 0)⟩

end Main

end AstraConnect.AstraLib
