import AstraConnect.AstraLib.AtomicRingBuffer

set_option autoImplicit false

/-! # What `seq` says about the tickets of a slot

A ticket is published when its slot's `seq` has passed it, and released when `seq` has come to the
ticket one lap later. `Promise` is what a thread relies on where it is, and `Inv` says besides that
the tickets that were taken are published and released or in the hands of one thread, and that a
slot holds the value of its ticket from the one to the other.

The steps come in six kinds, and each keeps the invariant (`inv_of_reach`).
-/

namespace AstraConnect.AstraLib

open Transition HandOver

namespace AtomicRingBuffer

variable {τ A : Type}

def Published (n : RingSize) (s : AtomicRingBuffer τ A) (ticket : Nat) : Prop :=
  ticket < s.seq (n.index ticket)

def Released (n : RingSize) (s : AtomicRingBuffer τ A) (ticket : Nat) : Prop :=
  ticket + n.SIZE ≤ s.seq (n.index ticket)

/-- What a thread relies on where it is. -/
def Promise (n : RingSize) (s : AtomicRingBuffer τ A) (t : τ) : RingPlace A → Prop
  | .awaitFree data ticket =>
      s.line.offered[ticket]? = some data ∧ s.seq (n.index ticket) ≤ ticket
  | .store data ticket => s.line.offered[ticket]? = some data ∧ s.seq (n.index ticket) = ticket
  | .publish ticket =>
      s.line.offered[ticket]? = some (s.data (n.index ticket)) ∧ s.seq (n.index ticket) = ticket
  | .awaitItem ticket =>
      s.line.asked[ticket]? = some t ∧ s.seq (n.index ticket) < ticket + n.SIZE
  | .load ticket => s.line.asked[ticket]? = some t ∧ s.seq (n.index ticket) = ticket + 1
  | .release ticket data =>
      s.line.asked[ticket]? = some t ∧ s.line.offered[ticket]? = some data ∧
        s.seq (n.index ticket) = ticket + 1
  | .tryFree _ ticket => ticket ≤ s.writeTicket
  | .casWrite _ ticket =>
      ticket < s.writeTicket ∨ ticket = s.writeTicket ∧ s.seq (n.index ticket) = ticket
  | .tryItem ticket => ticket ≤ s.readTicket
  | .casRead ticket =>
      ticket < s.readTicket ∨ ticket = s.readTicket ∧ s.seq (n.index ticket) = ticket + 1
  | _ => True

/-- No ticket is in the hands of two threads. -/
def OneHolder (holds : RingPlace A → Option Nat) (s : AtomicRingBuffer τ A) : Prop :=
  ∀ t t' ticket, holds (s.threads t) = some ticket → holds (s.threads t') = some ticket → t = t'

/-- Nobody holds the ticket. -/
def Unheld (holds : RingPlace A → Option Nat) (s : AtomicRingBuffer τ A) (ticket : Nat) : Prop :=
  ∀ t, holds (s.threads t) ≠ some ticket

/-- **The invariant.** -/
structure Inv (n : RingSize) (s : AtomicRingBuffer τ A) : Prop where
  offered : s.line.offered.length = s.writeTicket
  asked : s.line.asked.length = s.readTicket
  turn : ∀ ticket, ∃ u, n.index u = n.index ticket ∧
    (s.seq (n.index ticket) = u ∨ s.seq (n.index ticket) = u + 1)
  promise : ∀ t, Promise n s t (s.threads t)
  oneWriter : OneHolder RingPlace.writes s
  oneReader : OneHolder RingPlace.reads s
  published : ∀ ticket < s.writeTicket, Unheld RingPlace.writes s ticket → Published n s ticket
  unwritten : ∀ ticket, s.writeTicket ≤ ticket → ¬ Published n s ticket
  released : ∀ ticket < s.readTicket, Unheld RingPlace.reads s ticket → Released n s ticket
  unread : ∀ ticket, s.readTicket ≤ ticket → ¬ Released n s ticket
  data : ∀ ticket, Published n s ticket → ¬ Released n s ticket →
    s.line.offered[ticket]? = some (s.data (n.index ticket))
  faithful : s.line.Faithful s.log
  logged : ∀ ticket, ticket ∈ s.log.map Delivery.ticket ↔ Released n s ticket

variable {n : RingSize} {s s' : AtomicRingBuffer τ A} {t : τ} {p : RingPlace A}

/-- The write tickets in the hands of the threads were taken. -/
theorem Inv.writes_lt (h : s.Inv n) {ticket : Nat} (hw : (s.threads t).writes = some ticket) :
    ticket < s.writeTicket := by
  have hp := h.promise t
  rw [← h.offered]
  cases hq : s.threads t <;> rw [hq] at hw hp <;> cases hw
  · exact (List.getElem?_eq_some_iff.mp hp.1).1
  · exact (List.getElem?_eq_some_iff.mp hp.1).1
  · exact (List.getElem?_eq_some_iff.mp hp.1).1

theorem Inv.reads_lt (h : s.Inv n) {ticket : Nat} (hr : (s.threads t).reads = some ticket) :
    ticket < s.readTicket := by
  have hp := h.promise t
  rw [← h.asked]
  cases hq : s.threads t <;> rw [hq] at hr hp <;> cases hr
  · exact (List.getElem?_eq_some_iff.mp hp.1).1
  · exact (List.getElem?_eq_some_iff.mp hp.1).1
  · exact (List.getElem?_eq_some_iff.mp hp.1).1

/-! ## A thread moves on -/

variable [DecidableEq τ]

section Holders

variable {holds : RingPlace A → Option Nat}

theorem OneHolder.moveTo (h : OneHolder holds s)
    (hnew : ∀ ticket, holds p = some ticket →
      holds (s.threads t) = some ticket ∨ Unheld holds s ticket) :
    OneHolder holds (s.moveTo t p) := by
  -- whoever holds a ticket now held it before, or it was nobody's and `t` has it
  have hback : ∀ t' ticket, holds ((s.moveTo t p).threads t') = some ticket →
      holds (s.threads t') = some ticket ∨ t' = t ∧ Unheld holds s ticket := by
    intro t' ticket h'
    by_cases ht : t' = t
    · rw [ht, threads_moveTo_self] at h'
      rcases hnew ticket h' with hold | hfresh
      · exact .inl (ht ▸ hold)
      · exact .inr ⟨ht, hfresh⟩
    · rw [threads_moveTo_of_ne s ht] at h'
      exact .inl h'
  intro t₁ t₂ ticket h₁ h₂
  rcases hback t₁ ticket h₁ with h₁ | ⟨ht₁, hfresh⟩
  · rcases hback t₂ ticket h₂ with h₂ | ⟨-, hfresh⟩
    · exact h t₁ t₂ ticket h₁ h₂
    · exact absurd h₁ (hfresh t₁)
  · rcases hback t₂ ticket h₂ with h₂ | ⟨ht₂, -⟩
    · exact absurd h₂ (hfresh t₂)
    · rw [ht₁, ht₂]

theorem Unheld.of_moveTo {ticket : Nat} (h : Unheld holds (s.moveTo t p) ticket)
    (hne : holds (s.threads t) ≠ some ticket) : Unheld holds s ticket := by
  intro t'
  by_cases ht : t' = t
  · rw [ht]
    exact hne
  · have h' := h t'
    rwa [threads_moveTo_of_ne s ht] at h'

theorem Unheld.moveTo_self {ticket : Nat} (h : Unheld holds (s.moveTo t p) ticket) :
    holds p ≠ some ticket := by
  have h' := h t
  rwa [threads_moveTo_self] at h'

end Holders

theorem promise_moveTo (h : ∀ t', t' ≠ t → Promise n s t' (s.threads t')) (hp : Promise n s t p)
    (t' : τ) : Promise n (s.moveTo t p) t' ((s.moveTo t p).threads t') := by
  by_cases ht : t' = t
  · rw [ht, threads_moveTo_self]
    exact hp
  · rw [threads_moveTo_of_ne s ht]
    exact h t' ht

/-- **The thread keeps the tickets it has, and nothing else changes.** -/
theorem Inv.move (h : s.Inv n) (hw : p.writes = (s.threads t).writes)
    (hr : p.reads = (s.threads t).reads) (hp : Promise n s t p) : (s.moveTo t p).Inv n where
  offered := h.offered
  asked := h.asked
  turn := h.turn
  promise := promise_moveTo (fun t' _ => h.promise t') hp
  oneWriter := h.oneWriter.moveTo (fun _ hheld => .inl (hw ▸ hheld))
  oneReader := h.oneReader.moveTo (fun _ hheld => .inl (hr ▸ hheld))
  published ticket hlt hnone := h.published ticket hlt (hnone.of_moveTo (hw ▸ hnone.moveTo_self))
  unwritten := h.unwritten
  released ticket hlt hnone := h.released ticket hlt (hnone.of_moveTo (hr ▸ hnone.moveTo_self))
  unread := h.unread
  data := h.data
  faithful := h.faithful
  logged := h.logged

/-! ## A ticket is taken

The counter goes up by one and its thread has the new ticket. What the others rely on is about
tickets up to the old counter. -/

omit [DecidableEq τ] in
theorem Promise.claimWrite {t' : τ} {q : RingPlace A} (h : Promise n s t' q) (data : A) :
    Promise n (s.claimWrite data) t' q := by
  cases q with
  | awaitFree v ticket => exact ⟨getElem?_concat_of_some h.1 data, h.2⟩
  | store v ticket => exact ⟨getElem?_concat_of_some h.1 data, h.2⟩
  | publish ticket => exact ⟨getElem?_concat_of_some h.1 data, h.2⟩
  | release ticket v => exact ⟨h.1, getElem?_concat_of_some h.2.1 data, h.2.2⟩
  | tryFree v ticket => exact Nat.le_succ_of_le h
  | casWrite v ticket =>
      refine .inl ?_
      show ticket < s.writeTicket + 1
      rcases h with h | h <;> omega
  | _ => exact h

omit [DecidableEq τ] in
theorem Promise.claimRead {t' : τ} {q : RingPlace A} (h : Promise n s t' q) (t : τ) :
    Promise n (s.claimRead t) t' q := by
  cases q with
  | awaitItem ticket => exact ⟨getElem?_concat_of_some h.1 t, h.2⟩
  | load ticket => exact ⟨getElem?_concat_of_some h.1 t, h.2⟩
  | release ticket v => exact ⟨getElem?_concat_of_some h.1 t, h.2⟩
  | tryItem ticket => exact Nat.le_succ_of_le h
  | casRead ticket =>
      refine .inl ?_
      show ticket < s.readTicket + 1
      rcases h with h | h <;> omega
  | _ => exact h

theorem Inv.claimWrite (h : s.Inv n) {data : A} (hw : (s.threads t).writes = none)
    (hr : (s.threads t).reads = none) (hpw : p.writes = some s.writeTicket)
    (hpr : p.reads = none) (hp : Promise n (s.claimWrite data) t p) :
    ((s.claimWrite data).moveTo t p).Inv n where
  offered := by
    show (s.line.offered ++ [data]).length = s.writeTicket + 1
    rw [List.length_append, h.offered]
    rfl
  asked := h.asked
  turn := h.turn
  promise := promise_moveTo (fun t' _ => (h.promise t').claimWrite data) hp
  oneWriter := by
    apply OneHolder.moveTo (s := s.claimWrite data) h.oneWriter
    intro ticket hheld
    obtain rfl := Option.some.inj (hpw.symm.trans hheld)
    exact .inr (fun t' hw' => absurd (h.writes_lt hw') (lt_irrefl _))
  oneReader := by
    apply OneHolder.moveTo (s := s.claimWrite data) h.oneReader
    intro ticket hheld
    rw [hpr] at hheld
    cases hheld
  published ticket hlt hnone := by
    have hne : ticket ≠ s.writeTicket := fun heq => hnone.moveTo_self (heq ▸ hpw)
    have hlt : ticket < s.writeTicket + 1 := hlt
    apply h.published ticket (by omega)
    exact Unheld.of_moveTo (s := s.claimWrite data) hnone (hw ▸ nofun)
  unwritten ticket hle := h.unwritten ticket (Nat.le_of_succ_le hle)
  released ticket hlt hnone := h.released ticket hlt
    (Unheld.of_moveTo (s := s.claimWrite data) hnone (hr ▸ nofun))
  unread := h.unread
  data ticket hpub hrel := getElem?_concat_of_some (h.data ticket hpub hrel) data
  faithful := h.faithful.offer data
  logged := h.logged

theorem Inv.claimRead (h : s.Inv n) (hw : (s.threads t).writes = none)
    (hr : (s.threads t).reads = none) (hpw : p.writes = none)
    (hpr : p.reads = some s.readTicket) (hp : Promise n (s.claimRead t) t p) :
    ((s.claimRead t).moveTo t p).Inv n where
  offered := h.offered
  asked := by
    show (s.line.asked ++ [t]).length = s.readTicket + 1
    rw [List.length_append, h.asked]
    rfl
  turn := h.turn
  promise := promise_moveTo (fun t' _ => (h.promise t').claimRead t) hp
  oneWriter := by
    apply OneHolder.moveTo (s := s.claimRead t) h.oneWriter
    intro ticket hheld
    rw [hpw] at hheld
    cases hheld
  oneReader := by
    apply OneHolder.moveTo (s := s.claimRead t) h.oneReader
    intro ticket hheld
    obtain rfl := Option.some.inj (hpr.symm.trans hheld)
    exact .inr (fun t' hr' => absurd (h.reads_lt hr') (lt_irrefl _))
  published ticket hlt hnone := h.published ticket hlt
    (Unheld.of_moveTo (s := s.claimRead t) hnone (hw ▸ nofun))
  unwritten := h.unwritten
  released ticket hlt hnone := by
    have hne : ticket ≠ s.readTicket := fun heq => hnone.moveTo_self (heq ▸ hpr)
    have hlt : ticket < s.readTicket + 1 := hlt
    apply h.released ticket (by omega)
    exact Unheld.of_moveTo (s := s.claimRead t) hnone (hr ▸ nofun)
  unread ticket hle := h.unread ticket (Nat.le_of_succ_le hle)
  data := h.data
  faithful := h.faithful.ask t
  logged := h.logged

/-! ## A slot is written, published and released

Only these steps change a slot. Whoever takes them has a ticket of the slot whose turn it is, and a
store to `seq` gives the turn to the next ticket, so the threads with other tickets of the slot
lose nothing that they rely on. -/

/-- The value goes to a slot whose `seq` is the ticket, where no other ticket's value is. -/
theorem Inv.store (h : s.Inv n) {data : A} {ticket : Nat}
    (hp : s.threads t = .store data ticket) :
    ((s.storeData (n.index ticket) data).moveTo t (.publish ticket)).Inv n := by
  have hmine := h.promise t
  rw [hp] at hmine
  obtain ⟨hoffered, hseq⟩ := hmine
  have hframe : ∀ u, n.index u ≠ n.index ticket →
      (s.storeData (n.index ticket) data).data (n.index u) = s.data (n.index u) :=
    fun u hidx => Function.update_of_ne hidx ..
  have hstored : (s.storeData (n.index ticket) data).Inv n := by
    refine { h with promise := fun t' => ?_, data := fun u hpub hrel => ?_ }
    · have hother := h.promise t'
      show Promise n _ t' (s.threads t')
      cases hq : s.threads t' with
      | publish u =>
          rw [hq] at hother
          refine ⟨?_, hother.2⟩
          rw [hframe u]
          · exact hother.1
          · -- the slot's `seq` is the ticket of the one producer that may write there
            intro hidx
            have hsame : u = ticket := by
              rw [← hother.2, ← hseq, hidx]
            have hthread : t' = t :=
              h.oneWriter t' t ticket (by rw [hq, hsame]; rfl) (by rw [hp]; rfl)
            rw [hthread, hp] at hq
            cases hq
      | _ =>
          rw [hq] at hother
          exact hother
    · rw [hframe u]
      · exact h.data u hpub hrel
      · intro hidx
        apply hrel
        have hpub : u < s.seq (n.index u) := hpub
        show u + n.SIZE ≤ s.seq (n.index u)
        rw [hidx, hseq] at hpub ⊢
        exact RingSize.add_size_le hidx hpub
  have hthread : (s.storeData (n.index ticket) data).threads t = .store data ticket := hp
  apply hstored.move
  · rw [hthread]
    rfl
  · rw [hthread]
    rfl
  · refine ⟨?_, hseq⟩
    show s.line.offered[ticket]? = some (Function.update s.data (n.index ticket) data _)
    rw [hoffered, Function.update_self]

omit [DecidableEq τ] in
/-- A store to `seq` changes what it says about the tickets of that slot. -/
theorem seq_storeSeq (n : RingSize) (s : AtomicRingBuffer τ A) (ticket seq u : Nat) :
    (s.storeSeq (n.index ticket) seq).seq (n.index u) = s.seq (n.index u) ∧ u ≠ ticket ∨
      s.seq (n.index u) = s.seq (n.index ticket) ∧
        (s.storeSeq (n.index ticket) seq).seq (n.index u) = seq ∧
        (u = ticket ∨ u + n.SIZE ≤ ticket ∨ ticket + n.SIZE ≤ u) := by
  by_cases hidx : n.index u = n.index ticket
  · refine .inr ⟨by rw [hidx], ?_, RingSize.eq_or_lap hidx⟩
    rw [hidx]
    exact Function.update_self ..
  · refine .inl ⟨Function.update_of_ne hidx .., ?_⟩
    rintro rfl
    exact hidx rfl

omit [DecidableEq τ] in
/-- `seq` stays at the turn of some ticket of its slot. -/
theorem Inv.turn_storeSeq (h : s.Inv n) {ticket seq v : Nat} (hv : n.index v = n.index ticket)
    (hseq : seq = v ∨ seq = v + 1) (u : Nat) :
    ∃ w, n.index w = n.index u ∧
      ((s.storeSeq (n.index ticket) seq).seq (n.index u) = w ∨
        (s.storeSeq (n.index ticket) seq).seq (n.index u) = w + 1) := by
  by_cases hidx : n.index u = n.index ticket
  · refine ⟨v, hv.trans hidx.symm, ?_⟩
    have hnew : (s.storeSeq (n.index ticket) seq).seq (n.index u) = seq := by
      rw [hidx]
      exact Function.update_self ..
    rw [hnew]
    exact hseq
  · have hframe : (s.storeSeq (n.index ticket) seq).seq (n.index u) = s.seq (n.index u) :=
      Function.update_of_ne hidx ..
    rw [hframe]
    exact h.turn u

omit [DecidableEq τ] in
theorem Promise.publish {ticket : Nat} {t' : τ} {q : RingPlace A} (h : Promise n s t' q)
    (hseq : s.seq (n.index ticket) = ticket) (hlt : ticket < s.writeTicket)
    (hne : q.writes ≠ some ticket) :
    Promise n (s.storeSeq (n.index ticket) (ticket + 1)) t' q := by
  have hsize := n.two_le
  have hstep := seq_storeSeq n s ticket (ticket + 1)
  cases q with
  | awaitFree v u =>
      have hne : u ≠ ticket := fun heq => hne (congrArg some heq)
      have hold := h.2
      exact ⟨h.1, by have := hstep u; omega⟩
  | store v u =>
      have hne : u ≠ ticket := fun heq => hne (congrArg some heq)
      have hold := h.2
      exact ⟨h.1, by have := hstep u; omega⟩
  | publish u =>
      have hne : u ≠ ticket := fun heq => hne (congrArg some heq)
      have hold := h.2
      exact ⟨h.1, by have := hstep u; omega⟩
  | awaitItem u =>
      have hold := h.2
      exact ⟨h.1, by have := hstep u; omega⟩
  | load u =>
      have hold := h.2
      exact ⟨h.1, by have := hstep u; omega⟩
  | release u v =>
      have hold := h.2.2
      exact ⟨h.1, h.2.1, by have := hstep u; omega⟩
  | casWrite v u =>
      have hold : u < s.writeTicket ∨ u = s.writeTicket ∧ s.seq (n.index u) = u := h
      show u < s.writeTicket ∨ u = s.writeTicket ∧ _ = u
      have := hstep u
      omega
  | casRead u =>
      have hold : u < s.readTicket ∨ u = s.readTicket ∧ s.seq (n.index u) = u + 1 := h
      show u < s.readTicket ∨ u = s.readTicket ∧ _ = u + 1
      have := hstep u
      omega
  | _ => exact h

/-- The ticket is published. -/
theorem Inv.publish (h : s.Inv n) {ticket : Nat} (hp : s.threads t = .publish ticket) :
    ((s.storeSeq (n.index ticket) (ticket + 1)).moveTo t (.idle (some .done))).Inv n := by
  have hmine := h.promise t
  rw [hp] at hmine
  obtain ⟨hdata, hseq⟩ := hmine
  have hheld : (s.threads t).writes = some ticket := by rw [hp]; rfl
  have hlt := h.writes_lt hheld
  have hsize := n.two_le
  have hstep := seq_storeSeq n s ticket (ticket + 1)
  refine ⟨h.offered, h.asked, h.turn_storeSeq rfl (.inr rfl), promise_moveTo (fun t' hne => ?_)
    trivial, ?_, ?_, fun u hu hnone => ?_, fun u hle => ?_, fun u hu hnone => ?_, fun u hle => ?_,
    fun u hpub hrel => ?_, h.faithful, fun u => ?_⟩
  · apply (h.promise t').publish hseq hlt
    exact fun hw => hne (h.oneWriter t' t ticket hw hheld)
  · exact OneHolder.moveTo (s := s.storeSeq _ _) h.oneWriter nofun
  · exact OneHolder.moveTo (s := s.storeSeq _ _) h.oneReader nofun
  · -- every other ticket was published before
    show u < (s.storeSeq (n.index ticket) (ticket + 1)).seq (n.index u)
    have hu : u < s.writeTicket := hu
    by_cases heq : u = ticket
    · have := hstep u
      omega
    · have hold : u < s.seq (n.index u) := by
        apply h.published u hu
        apply Unheld.of_moveTo (s := s.storeSeq _ _) hnone
        show (s.threads t).writes ≠ some u
        rw [hheld]
        exact fun h' => heq (Option.some.inj h').symm
      have := hstep u
      omega
  · show ¬ u < (s.storeSeq (n.index ticket) (ticket + 1)).seq (n.index u)
    have hle : s.writeTicket ≤ u := hle
    have hold : ¬ u < s.seq (n.index u) := h.unwritten u hle
    have := hstep u
    omega
  · show u + n.SIZE ≤ (s.storeSeq (n.index ticket) (ticket + 1)).seq (n.index u)
    have hold : u + n.SIZE ≤ s.seq (n.index u) := by
      apply h.released u hu
      apply Unheld.of_moveTo (s := s.storeSeq _ _) hnone
      show (s.threads t).reads ≠ some u
      rw [hp]
      nofun
    have := hstep u
    omega
  · show ¬ u + n.SIZE ≤ (s.storeSeq (n.index ticket) (ticket + 1)).seq (n.index u)
    have hold : ¬ u + n.SIZE ≤ s.seq (n.index u) := h.unread u hle
    have := hstep u
    omega
  · have hpub : u < (s.storeSeq (n.index ticket) (ticket + 1)).seq (n.index u) := hpub
    have hrel : ¬ u + n.SIZE ≤ (s.storeSeq (n.index ticket) (ticket + 1)).seq (n.index u) := hrel
    rcases hstep u with ⟨heq, -⟩ | ⟨-, hnew, hlap⟩
    · rw [heq] at hpub hrel
      exact h.data u hpub hrel
    · have hsame : u = ticket := by omega
      rw [hsame]
      exact hdata
  · have hold : u ∈ s.log.map Delivery.ticket ↔ u + n.SIZE ≤ s.seq (n.index u) := h.logged u
    show u ∈ s.log.map Delivery.ticket ↔
      u + n.SIZE ≤ (s.storeSeq (n.index ticket) (ticket + 1)).seq (n.index u)
    rw [hold]
    have := hstep u
    omega

omit [DecidableEq τ] in
theorem Promise.release {ticket : Nat} {t' : τ} {q : RingPlace A} (h : Promise n s t' q)
    (hseq : s.seq (n.index ticket) = ticket + 1) (hlt : ticket < s.readTicket)
    (hne : q.reads ≠ some ticket) :
    Promise n (s.storeSeq (n.index ticket) (ticket + n.SIZE)) t' q := by
  have hsize := n.two_le
  have hstep := seq_storeSeq n s ticket (ticket + n.SIZE)
  cases q with
  | awaitFree v u =>
      have hold := h.2
      exact ⟨h.1, by have := hstep u; omega⟩
  | store v u =>
      have hold := h.2
      exact ⟨h.1, by have := hstep u; omega⟩
  | publish u =>
      have hold := h.2
      exact ⟨h.1, by have := hstep u; omega⟩
  | awaitItem u =>
      have hne : u ≠ ticket := fun heq => hne (congrArg some heq)
      have hold := h.2
      exact ⟨h.1, by have := hstep u; omega⟩
  | load u =>
      have hne : u ≠ ticket := fun heq => hne (congrArg some heq)
      have hold := h.2
      exact ⟨h.1, by have := hstep u; omega⟩
  | release u v =>
      have hne : u ≠ ticket := fun heq => hne (congrArg some heq)
      have hold := h.2.2
      exact ⟨h.1, h.2.1, by have := hstep u; omega⟩
  | casWrite v u =>
      have hold : u < s.writeTicket ∨ u = s.writeTicket ∧ s.seq (n.index u) = u := h
      show u < s.writeTicket ∨ u = s.writeTicket ∧ _ = u
      have := hstep u
      omega
  | casRead u =>
      have hold : u < s.readTicket ∨ u = s.readTicket ∧ s.seq (n.index u) = u + 1 := h
      show u < s.readTicket ∨ u = s.readTicket ∧ _ = u + 1
      have := hstep u
      omega
  | _ => exact h

/-- The value is returned, and the slot goes to the producer one lap later. -/
theorem Inv.release (h : s.Inv n) {ticket : Nat} {data : A}
    (hp : s.threads t = .release ticket data) :
    (((s.storeSeq (n.index ticket) (ticket + n.SIZE)).deliver t ticket data).moveTo t
      (.idle (some (.item data)))).Inv n := by
  have hmine := h.promise t
  rw [hp] at hmine
  obtain ⟨hasked, hoffered, hseq⟩ := hmine
  have hheld : (s.threads t).reads = some ticket := by rw [hp]; rfl
  have hlt := h.reads_lt hheld
  have hsize := n.two_le
  have hstep := seq_storeSeq n s ticket (ticket + n.SIZE)
  have hnew : ¬ Released n s ticket := by
    show ¬ ticket + n.SIZE ≤ s.seq (n.index ticket)
    omega
  refine ⟨h.offered, h.asked, h.turn_storeSeq (n.index_add_size ticket) (.inl rfl),
    promise_moveTo (s := (s.storeSeq _ _).deliver _ _ _) (fun t' hne => ?_) trivial, ?_, ?_,
    fun u hu hnone => ?_, fun u hle => ?_, fun u hu hnone => ?_, fun u hle => ?_,
    fun u hpub hrel => ?_, ?_, fun u => ?_⟩
  · apply Promise.release (h.promise t') hseq hlt
    exact fun hr => hne (h.oneReader t' t ticket hr hheld)
  · exact OneHolder.moveTo (s := (s.storeSeq _ _).deliver _ _ _) h.oneWriter nofun
  · exact OneHolder.moveTo (s := (s.storeSeq _ _).deliver _ _ _) h.oneReader nofun
  · show u < (s.storeSeq (n.index ticket) (ticket + n.SIZE)).seq (n.index u)
    have hold : u < s.seq (n.index u) := by
      apply h.published u hu
      apply Unheld.of_moveTo (s := (s.storeSeq _ _).deliver _ _ _) hnone
      show (s.threads t).writes ≠ some u
      rw [hp]
      nofun
    have := hstep u
    omega
  · show ¬ u < (s.storeSeq (n.index ticket) (ticket + n.SIZE)).seq (n.index u)
    have hold : ¬ u < s.seq (n.index u) := h.unwritten u hle
    have := hstep u
    omega
  · -- every other ticket was released before
    show u + n.SIZE ≤ (s.storeSeq (n.index ticket) (ticket + n.SIZE)).seq (n.index u)
    have hu : u < s.readTicket := hu
    by_cases heq : u = ticket
    · have := hstep u
      omega
    · have hold : u + n.SIZE ≤ s.seq (n.index u) := by
        apply h.released u hu
        apply Unheld.of_moveTo (s := (s.storeSeq _ _).deliver _ _ _) hnone
        show (s.threads t).reads ≠ some u
        rw [hheld]
        exact fun h' => heq (Option.some.inj h').symm
      have := hstep u
      omega
  · show ¬ u + n.SIZE ≤ (s.storeSeq (n.index ticket) (ticket + n.SIZE)).seq (n.index u)
    have hle : s.readTicket ≤ u := hle
    have hold : ¬ u + n.SIZE ≤ s.seq (n.index u) := h.unread u hle
    have := hstep u
    omega
  · have hpub : u < (s.storeSeq (n.index ticket) (ticket + n.SIZE)).seq (n.index u) := hpub
    have hrel : ¬ u + n.SIZE ≤ (s.storeSeq (n.index ticket) (ticket + n.SIZE)).seq (n.index u) :=
      hrel
    rcases hstep u with ⟨heq, -⟩ | ⟨-, hnew, hlap⟩
    · rw [heq] at hpub hrel
      exact h.data u hpub hrel
    · exact absurd hpub (by omega)
  · apply h.faithful.concat
    · exact getElem?_served.mpr ⟨hasked, hoffered⟩
    · rw [h.logged]
      exact hnew
  · let d : Delivery τ A := ⟨ticket, t, data⟩
    show u ∈ (s.log ++ [d]).map Delivery.ticket ↔
      u + n.SIZE ≤ (s.storeSeq (n.index ticket) (ticket + n.SIZE)).seq (n.index u)
    have hold : u ∈ s.log.map Delivery.ticket ↔ u + n.SIZE ≤ s.seq (n.index u) := h.logged u
    rw [List.map_append, List.mem_append, hold, List.map_singleton, List.mem_singleton]
    show _ ∨ u = ticket ↔ _
    have := hstep u
    omega

/-! ## The invariant -/

theorem Inv.go (h : s.Inv n) (hs : Go n s t s') : s'.Inv n := by
  have hmine := h.promise t
  cases hs with
  | @takeWrite data hp =>
      apply h.claimWrite <;> try (rw [hp]; rfl)
      · rfl
      · rfl
      · refine ⟨?_, Nat.le_of_not_lt (h.unwritten _ le_rfl)⟩
        show (s.line.offered ++ [data])[s.writeTicket]? = some data
        rw [← h.offered, List.getElem?_concat_length]
  | free hp hseq =>
      rw [hp] at hmine
      exact h.move (by rw [hp]; rfl) (by rw [hp]; rfl) ⟨hmine.1, hseq⟩
  | store hp => exact h.store hp
  | publish hp => exact h.publish hp
  | takeRead hp =>
      apply h.claimRead <;> try (rw [hp]; rfl)
      · rfl
      · rfl
      · refine ⟨?_, Nat.lt_of_not_le (h.unread _ le_rfl)⟩
        show (s.line.asked ++ [t])[s.readTicket]? = some t
        rw [← h.asked, List.getElem?_concat_length]
  | item hp hseq =>
      rw [hp] at hmine
      exact h.move (by rw [hp]; rfl) (by rw [hp]; rfl) ⟨hmine.1, hseq⟩
  | @load ticket hp =>
      rw [hp] at hmine
      have hsize := n.two_le
      refine h.move (by rw [hp]; rfl) (by rw [hp]; rfl) ⟨hmine.1, ?_, hmine.2⟩
      apply h.data ticket
      · show ticket < s.seq (n.index ticket)
        have := hmine.2
        omega
      · show ¬ ticket + n.SIZE ≤ s.seq (n.index ticket)
        have := hmine.2
        omega
  | release hp => exact h.release hp
  | peekWrite hp => exact h.move (by rw [hp]; rfl) (by rw [hp]; rfl) le_rfl
  | @tryFree data ticket hp hseq =>
      rw [hp] at hmine
      refine h.move (by rw [hp]; rfl) (by rw [hp]; rfl) ?_
      rcases Nat.lt_or_eq_of_le hmine with hlt | heq
      · exact .inl hlt
      · exact .inr ⟨heq, hseq⟩
  | full hp _ => exact h.move (by rw [hp]; rfl) (by rw [hp]; rfl) trivial
  | passedWrite hp _ => exact h.move (by rw [hp]; rfl) (by rw [hp]; rfl) trivial
  | @casWrite data ticket hp hticket =>
      rw [hp] at hmine
      subst hticket
      apply h.claimWrite <;> try (rw [hp]; rfl)
      · rfl
      · rfl
      · rcases hmine with hlt | ⟨-, hseq⟩
        · exact absurd hlt (lt_irrefl _)
        · refine ⟨?_, hseq⟩
          show (s.line.offered ++ [data])[s.writeTicket]? = some data
          rw [← h.offered, List.getElem?_concat_length]
  | lostWrite hp => exact h.move (by rw [hp]; rfl) (by rw [hp]; rfl) le_rfl
  | peekRead hp => exact h.move (by rw [hp]; rfl) (by rw [hp]; rfl) le_rfl
  | @tryItem ticket hp hseq =>
      rw [hp] at hmine
      refine h.move (by rw [hp]; rfl) (by rw [hp]; rfl) ?_
      rcases Nat.lt_or_eq_of_le hmine with hlt | heq
      · exact .inl hlt
      · exact .inr ⟨heq, hseq⟩
  | noItem hp _ => exact h.move (by rw [hp]; rfl) (by rw [hp]; rfl) trivial
  | passedRead hp _ => exact h.move (by rw [hp]; rfl) (by rw [hp]; rfl) trivial
  | @casRead ticket hp hticket =>
      rw [hp] at hmine
      subst hticket
      apply h.claimRead <;> try (rw [hp]; rfl)
      · rfl
      · rfl
      · rcases hmine with hlt | ⟨-, hseq⟩
        · exact absurd hlt (lt_irrefl _)
        · refine ⟨?_, hseq⟩
          show (s.line.asked ++ [t])[s.readTicket]? = some t
          rw [← h.asked, List.getElem?_concat_length]
  | lostRead hp => exact h.move (by rw [hp]; rfl) (by rw [hp]; rfl) le_rfl
  | loadFirst hp => exact h.move (by rw [hp]; rfl) (by rw [hp]; rfl) trivial
  | loadSecond hp => exact h.move (by rw [hp]; rfl) (by rw [hp]; rfl) trivial

omit [DecidableEq τ] in
/-- A ring in which no ticket was taken. -/
theorem inv_of_untouched (hseq : ∀ ticket, s.seq (n.index ticket) = n.index ticket)
    (hwrite : s.writeTicket = 0) (hread : s.readTicket = 0) (hline : s.line = ⟨[], []⟩)
    (hlog : s.log = []) (hquiet : s.Quiet) : s.Inv n := by
  have hnone : ∀ holds : RingPlace A → Option Nat, (∀ last, holds (.idle last) = none) →
      OneHolder holds s := by
    intro holds hidle t t' ticket h
    obtain ⟨last, hp⟩ := hquiet t
    rw [hp, hidle] at h
    cases h
  have hle : ∀ ticket, n.index ticket ≤ ticket := fun ticket => Nat.and_le_left
  have hsize := n.two_le
  refine ⟨?_, ?_, fun ticket => ?_, fun t => ?_, hnone _ (fun _ => rfl), hnone _ (fun _ => rfl),
    fun ticket hlt => ?_, fun ticket _ => ?_, fun ticket hlt => ?_, fun ticket _ => ?_,
    fun ticket hpub => ?_, ?_, fun ticket => ?_⟩
  · rw [hline, hwrite]
    rfl
  · rw [hline, hread]
    rfl
  · refine ⟨n.index ticket, ?_, .inl (hseq ticket)⟩
    exact n.index_of_lt (n.index_lt ticket)
  · obtain ⟨last, hp⟩ := hquiet t
    rw [hp]
    trivial
  · rw [hwrite] at hlt
    cases hlt
  · rw [Published, hseq]
    exact Nat.not_lt.mpr (hle ticket)
  · rw [hread] at hlt
    cases hlt
  · rw [Released, hseq]
    have := hle ticket
    omega
  · rw [Published, hseq] at hpub
    exact absurd hpub (Nat.not_lt.mpr (hle ticket))
  · rw [hlog]
    exact .nil
  · rw [hlog, Released, hseq]
    have := hle ticket
    exact iff_of_false List.not_mem_nil (by omega)

omit [DecidableEq τ] in
theorem inv_construct (data : Nat → A) : (construct n data : AtomicRingBuffer τ A).Inv n := by
  apply inv_of_untouched _ rfl rfl rfl rfl (fun _ => ⟨none, rfl⟩)
  intro ticket
  exact if_pos (n.index_lt ticket)

omit [DecidableEq τ] in
theorem Inv.clearBuffer (hquiet : s.Quiet) : (s.clearBuffer n).Inv n := by
  have hcleared : (s.clearBuffer n).Quiet := hquiet
  apply inv_of_untouched _ rfl rfl rfl rfl hcleared
  intro ticket
  exact if_pos (n.index_lt ticket)

theorem Inv.call (h : s.Inv n) {last : Option (Outcome A)} (hp : s.threads t = .idle last)
    (op : RingOp A) : (s.moveTo t (.start op)).Inv n := by
  apply h.move
  · rw [hp]
    cases op <;> rfl
  · rw [hp]
    cases op <;> rfl
  · cases op <;> trivial

theorem Inv.step (h : s.Inv n) {a : RingAct τ A} (hok : ringOk s a)
    (hs : ringStep n s a = some s') : s'.Inv n := by
  cases a with
  | call t op =>
      obtain ⟨⟨last, hp⟩, rfl⟩ := call_cases hs
      exact h.call hp op
  | go t weak => exact h.go (go_cases hs)
  | clearBuffer =>
      obtain rfl := Option.some.inj hs
      exact Inv.clearBuffer (hok rfl)

/-- **The invariant holds in every run of any threads.** -/
theorem inv_of_reach {data : Nat → A}
    (h : Reach (ringStep n) ringOk (construct n data : AtomicRingBuffer τ A) s) : s.Inv n := by
  apply h.invariant (inv_construct data)
  intro s a s' hi hok hs
  exact hi.step hok hs

end AtomicRingBuffer

end AstraConnect.AstraLib
