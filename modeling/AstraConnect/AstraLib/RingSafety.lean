import AstraConnect.AstraLib.RingInvariant

set_option autoImplicit false

/-! # Every value once, to whoever asked first

The values that a ring accepts go to the calls that ask for one in the order of the tickets, each
value once, and to every thread in the order in which it asked (`ring_first_come_first_served`). No
two threads ever own one slot (`ring_exclusive_slots`).
-/

namespace AstraConnect.AstraLib

open Transition HandOver

namespace AtomicRingBuffer

variable {τ A : Type} [DecidableEq τ] {n : RingSize} {s s' : AtomicRingBuffer τ A} {t : τ}

/-! ## The order of what a thread gets

A thread has one ticket at a time and takes the next one from the counter, so its tickets go up.
The log of the values returned keeps that order. -/

/-- What a thread has got came with lower tickets than what it waits for, and in order. -/
structure InOrder (s : AtomicRingBuffer τ A) : Prop where
  held : ∀ t ticket, (s.threads t).reads = some ticket →
    ∀ d ∈ s.log, d.customer = t → d.ticket < ticket
  log : s.log.Pairwise (fun d e => d.customer = e.customer → d.ticket < e.ticket)

omit [DecidableEq τ] in
/-- The tickets of what was returned were taken. -/
theorem Inv.ticket_lt (h : s.Inv n) {d : Delivery τ A} (hd : d ∈ s.log) :
    d.ticket < s.readTicket := by
  obtain ⟨hasked, -⟩ := getElem?_served.mp (h.faithful.served d hd)
  rw [← h.asked]
  exact (List.getElem?_eq_some_iff.mp hasked).1

theorem InOrder.moveTo (h : s.InOrder) {p : RingPlace A}
    (hr : ∀ ticket, p.reads = some ticket → ∀ d ∈ s.log, d.customer = t → d.ticket < ticket) :
    (s.moveTo t p).InOrder := by
  refine ⟨fun t' ticket hheld d hd hcustomer => ?_, h.log⟩
  by_cases ht : t' = t
  · rw [ht, threads_moveTo_self] at hheld
    exact hr ticket hheld d hd (hcustomer.trans ht)
  · rw [threads_moveTo_of_ne s ht] at hheld
    exact h.held t' ticket hheld d hd hcustomer

theorem InOrder.keep (h : s.InOrder) {p : RingPlace A}
    (hr : ∀ ticket, p.reads = some ticket → (s.threads t).reads = some ticket) :
    (s.moveTo t p).InOrder :=
  h.moveTo (fun ticket hheld d hd hcustomer => h.held t ticket (hr ticket hheld) d hd hcustomer)

/-- A new ticket is above all that were used. -/
theorem InOrder.claimRead (h : s.InOrder) (hi : s.Inv n) {p : RingPlace A}
    (hp : p.reads = some s.readTicket) : ((s.claimRead t).moveTo t p).InOrder := by
  have hclaimed : (s.claimRead t).InOrder := ⟨h.held, h.log⟩
  apply hclaimed.moveTo
  intro ticket hheld d hd _
  obtain rfl := Option.some.inj (hp.symm.trans hheld)
  exact hi.ticket_lt hd

theorem InOrder.release (h : s.InOrder) {ticket : Nat} {data : A}
    (hp : s.threads t = .release ticket data) (seq : Nat) (last : Option (Outcome A)) :
    (((s.storeSeq (n.index ticket) seq).deliver t ticket data).moveTo t (.idle last)).InOrder := by
  have hheld : (s.threads t).reads = some ticket := by rw [hp]; rfl
  constructor
  · intro t' k hk d hd hcustomer
    by_cases ht : t' = t
    · rw [ht, threads_moveTo_self] at hk
      cases hk
    · rw [threads_moveTo_of_ne _ ht] at hk
      rcases List.mem_append.mp hd with hd | hd
      · exact h.held t' k hk d hd hcustomer
      · obtain rfl := List.mem_singleton.mp hd
        exact absurd hcustomer.symm ht
  · show (s.log ++ [_]).Pairwise _
    rw [List.pairwise_append]
    refine ⟨h.log, List.pairwise_singleton _ _, ?_⟩
    intro d hd e he hcustomer
    obtain rfl := List.mem_singleton.mp he
    exact h.held t ticket hheld d hd hcustomer

theorem InOrder.step (h : s.InOrder) (hi : s.Inv n) {a : RingAct τ A}
    (hs : ringStep n s a = some s') : s'.InOrder := by
  cases a with
  | call t op =>
      obtain ⟨-, rfl⟩ := call_cases hs
      exact h.keep (by cases op <;> nofun)
  | clearBuffer =>
      obtain rfl := Option.some.inj hs
      exact ⟨fun _ _ _ d hd => absurd hd List.not_mem_nil, .nil⟩
  | go t weak =>
      cases go_cases hs with
      | takeRead _ => exact h.claimRead hi rfl
      | casRead _ hticket => exact h.claimRead hi (hticket ▸ rfl)
      | release hp => exact h.release hp _ _
      | item hp _ => exact h.keep (by rw [hp]; exact fun _ => id)
      | load hp => exact h.keep (by rw [hp]; exact fun _ => id)
      | takeWrite _ =>
          exact InOrder.keep (s := s.claimWrite _) ⟨h.held, h.log⟩ nofun
      | casWrite _ _ =>
          exact InOrder.keep (s := s.claimWrite _) ⟨h.held, h.log⟩ nofun
      | store _ => exact InOrder.keep (s := s.storeData _ _) ⟨h.held, h.log⟩ nofun
      | publish _ => exact InOrder.keep (s := s.storeSeq _ _) ⟨h.held, h.log⟩ nofun
      | _ => exact h.keep nofun

theorem inOrder_of_reach {data : Nat → A}
    (h : Reach (ringStep n) ringOk (construct n data : AtomicRingBuffer τ A) s) :
    s.Inv n ∧ s.InOrder := by
  apply h.invariant (I := fun s => s.Inv n ∧ s.InOrder)
  · exact ⟨inv_construct data, fun _ _ _ d hd => absurd hd List.not_mem_nil, .nil⟩
  · rintro s a s' ⟨hi, ho⟩ hok hs
    exact ⟨hi.step hok hs, ho.step hi hs⟩

/-! ## Who is at a slot -/

omit [DecidableEq τ] in
/-- The owner of a slot is the writer or the reader whose turn it is there. -/
theorem Inv.owns_turn (h : s.Inv n) {ticket : Nat} (ho : (s.threads t).owns = some ticket) :
    ((s.threads t).writes = some ticket ∧ s.seq (n.index ticket) = ticket) ∨
      ((s.threads t).reads = some ticket ∧ s.seq (n.index ticket) = ticket + 1) := by
  have hp := h.promise t
  cases hq : s.threads t <;> rw [hq] at ho hp <;> cases ho
  · exact .inl ⟨rfl, hp.2⟩
  · exact .inl ⟨rfl, hp.2⟩
  · exact .inr ⟨rfl, hp.2⟩
  · exact .inr ⟨rfl, hp.2.2⟩

omit [DecidableEq τ] in
theorem Inv.owns_ne (h : s.Inv n) {t' : τ} {ticket ticket' : Nat} (hne : t ≠ t')
    (ht : (s.threads t).owns = some ticket) (ht' : (s.threads t').owns = some ticket') :
    n.index ticket ≠ n.index ticket' := by
  intro hslot
  have hsize := n.two_le
  have hlap := RingSize.eq_or_lap hslot
  rcases h.owns_turn ht with ⟨hw, hseq⟩ | ⟨hr, hseq⟩ <;>
    rcases h.owns_turn ht' with ⟨hw', hseq'⟩ | ⟨hr', hseq'⟩ <;> rw [hslot] at hseq
  · have heq : ticket = ticket' := hseq.symm.trans hseq'
    exact hne (h.oneWriter t t' ticket hw (heq ▸ hw'))
  · -- `seq` would be a ticket and the ticket after it in one slot
    omega
  · omega
  · have heq : ticket = ticket' := by omega
    exact hne (h.oneReader t t' ticket hr (heq ▸ hr'))

end AtomicRingBuffer

section Main

variable {τ A : Type} [DecidableEq τ] {n : RingSize} {s : AtomicRingBuffer τ A} {data : Nat → A}

/-- **First come, first served, each value once.** In every run of any threads the values are
handed out by ticket. A ticket that was taken is served or in the hands of one caller, a value that
nobody asked for yet is in its slot or in the hands of its producer, and what one thread has got is
in the order in which it was accepted. -/
theorem ring_first_come_first_served
    (h : Reach (ringStep n) ringOk (AtomicRingBuffer.construct n data) s) :
    s.line.Faithful s.log ∧
    s.line.offered.length = s.writeTicket ∧ s.line.asked.length = s.readTicket ∧
    (∀ ticket < s.readTicket,
      ticket ∈ s.log.map Delivery.ticket ∨ ∃ t, (s.threads t).reads = some ticket) ∧
    (∀ ticket, s.readTicket ≤ ticket → ticket < s.writeTicket →
      s.line.offered[ticket]? = some (s.data (n.index ticket)) ∨
        ∃ t, (s.threads t).writes = some ticket) ∧
    ∀ t, ((s.log.filter (fun d => d.customer = t)).map Delivery.value).Sublist s.line.offered := by
  obtain ⟨hi, ho⟩ := AtomicRingBuffer.inOrder_of_reach h
  refine ⟨hi.faithful, hi.offered, hi.asked, fun ticket hlt => ?_, fun ticket hle hlt => ?_,
    fun t => ?_⟩
  · by_cases hheld : ∃ t, (s.threads t).reads = some ticket
    · exact .inr hheld
    · refine .inl ((hi.logged ticket).mpr (hi.released ticket hlt ?_))
      exact fun t ht => hheld ⟨t, ht⟩
  · by_cases hheld : ∃ t, (s.threads t).writes = some ticket
    · exact .inr hheld
    · refine .inl (hi.data ticket (hi.published ticket hlt ?_) (hi.unread ticket hle))
      exact fun t ht => hheld ⟨t, ht⟩
  · apply (hi.faithful.sublist_log List.filter_sublist).sublist
    rw [List.pairwise_filter]
    refine ho.log.imp ?_
    intro d e hinc hd he
    exact hinc ((of_decide_eq_true hd).trans (of_decide_eq_true he).symm)

/-- A consumer asks first, another thread hands it 7, then 8. -/
def handTwo : List (RingAct Bool Nat) :=
  [.call true .dequeue, .call false (.enqueue 7), .go true false, .go false false, .go false false,
    .go false false, .go false false, .call false (.enqueue 8), .go false false, .go false false,
    .go true false, .go false false, .go false false, .go true false, .go true false,
    .call true .dequeue, .go true false, .go true false, .go true false, .go true false]

theorem ring_first_come_first_served_two :
    let s := (runOnTwo handTwo).get rfl
    s.log.map Delivery.value = [7, 8] ∧ s.line.Faithful s.log ∧
      ((s.log.filter (fun d => d.customer = true)).map Delivery.value).Sublist s.line.offered := by
  have hsome : (runOnTwo handTwo).isSome := rfl
  obtain ⟨hfaithful, -, -, -, -, hsublist⟩ := ring_first_come_first_served (reach_runOnTwo hsome)
  exact ⟨rfl, hfaithful, hsublist true⟩

/-- **A slot has one owner.** Two threads are never both between the test of `seq` that gives them
a slot and the store that hands it on, so that no access to `data` races with another. -/
theorem ring_exclusive_slots
    (h : Reach (ringStep n) ringOk (AtomicRingBuffer.construct n data) s) {t t' : τ}
    (hne : t ≠ t') {ticket ticket' : Nat} (ht : (s.threads t).owns = some ticket)
    (ht' : (s.threads t').owns = some ticket') : n.index ticket ≠ n.index ticket' :=
  (AtomicRingBuffer.inv_of_reach h).owns_ne hne ht ht'

/-- Two producers, each at a slot of its own. -/
def twoProducers : List (RingAct Bool Nat) :=
  [.call true (.enqueue 7), .call false (.enqueue 8), .go true false, .go false false,
    .go false false, .go true false]

theorem ring_exclusive_slots_two :
    (((runOnTwo twoProducers).get rfl).threads true).owns = some 0 ∧
      (((runOnTwo twoProducers).get rfl).threads false).owns = some 1 ∧
      RingSize.two.index 0 ≠ RingSize.two.index 1 := by
  have hsome : (runOnTwo twoProducers).isSome := rfl
  have hne : true ≠ false := by decide
  exact ⟨rfl, rfl, ring_exclusive_slots (reach_runOnTwo hsome) hne rfl rfl⟩

end Main

end AstraConnect.AstraLib
