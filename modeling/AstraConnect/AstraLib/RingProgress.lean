import AstraConnect.AstraLib.RingInvariant

set_option autoImplicit false

/-! # What a call on the ring waits for

A blocked producer waits for the consumer one lap before it in its slot, and a blocked consumer for
the producer with its ticket. The tickets go down along such a chain, so it ends at a thread that
can take a step, unless the call that it ends at has not begun (`ring_progress`).

`tryEnqueue` and `tryDequeue` do not wait; `ring_try_answers` says what their answers mean.
-/

namespace AstraConnect.AstraLib

open Transition HandOver

namespace AtomicRingBuffer

variable {τ A : Type} {n : RingSize} {s : AtomicRingBuffer τ A} {t : τ} {ticket : Nat}

/-! ## Who holds a ticket

A ticket that was taken and is not published yet has a writer, and one that is not released a
reader: otherwise it would be nobody's, against the invariant. -/

theorem Inv.writer_of_not_published (h : s.Inv n) (hlt : ticket < s.writeTicket)
    (hpub : ¬ Published n s ticket) : ∃ t, (s.threads t).writes = some ticket := by
  by_contra hnone
  exact hpub (h.published ticket hlt (fun t ht => hnone ⟨t, ht⟩))

theorem Inv.reader_of_not_released (h : s.Inv n) (hlt : ticket < s.readTicket)
    (hrel : ¬ Released n s ticket) : ∃ t, (s.threads t).reads = some ticket := by
  by_contra hnone
  exact hrel (h.released ticket hlt (fun t ht => hnone ⟨t, ht⟩))

/-- A reader lets go of its slot last. -/
theorem Inv.not_released_of_reads (h : s.Inv n) (hr : (s.threads t).reads = some ticket) :
    ¬ Released n s ticket := by
  have hsize := n.two_le
  have hp := h.promise t
  rw [Released]
  cases hq : s.threads t <;> rw [hq] at hr hp <;> cases hr
  · exact Nat.not_le.mpr hp.2
  · have hseq := hp.2
    omega
  · have hseq := hp.2.2
    omega

/-- A slot that is behind a ticket still has to be released for it. -/
theorem Inv.lap_before (h : s.Inv n) (hlt : s.seq (n.index ticket) < ticket) :
    ∃ before, before + n.SIZE = ticket ∧ ¬ Released n s before := by
  obtain ⟨u, hslot, hu⟩ := h.turn ticket
  have hlap : u + n.SIZE ≤ ticket := RingSize.add_size_le hslot (by omega)
  refine ⟨ticket - n.SIZE, by omega, ?_⟩
  have hindex : n.index (ticket - n.SIZE) = n.index ticket := by
    rw [← n.index_add_size, Nat.sub_add_cancel (by omega)]
  rw [Released, hindex]
  omega

/-- A slot that has not come to a ticket's reader, nor gone past it, is not published. -/
theorem Inv.not_published (h : s.Inv n) (hne : s.seq (n.index ticket) ≠ ticket + 1)
    (hlt : s.seq (n.index ticket) < ticket + n.SIZE) : ¬ Published n s ticket := by
  obtain ⟨u, hslot, hu⟩ := h.turn ticket
  have hlap := RingSize.eq_or_lap hslot
  have hsize := n.two_le
  rw [Published]
  omega

/-! ## The end of the chain

By strong induction on the ticket: a reader waits for the writer of its ticket, and a writer for
the reader of the ticket one lap below. -/

section

variable [DecidableEq τ]

/-- Some thread with a ticket of the slot can take a step. -/
def Moves (n : RingSize) (s : AtomicRingBuffer τ A) (slot : Nat) : Prop :=
  ∃ t ticket, n.index ticket = slot ∧
    ((s.threads t).writes = some ticket ∨ (s.threads t).reads = some ticket) ∧
    ∃ s', s.go n t false = some s'

theorem moves_or_awaitFree (hw : (s.threads t).writes = some ticket) :
    Moves n s (n.index ticket) ∨ s.seq (n.index ticket) ≠ ticket ∧
      ∃ data, s.threads t = .awaitFree data ticket := by
  by_cases hgo : ∃ s', s.go n t false = some s'
  · exact .inl ⟨t, ticket, rfl, .inl hw, hgo⟩
  · refine .inr ?_
    unfold go at hgo
    cases hp : s.threads t <;> rw [hp] at hw hgo <;> cases hw
    · rename_i data
      refine ⟨fun hseq => hgo ⟨_, if_pos hseq⟩, data, rfl⟩
    · exact absurd ⟨_, rfl⟩ hgo
    · exact absurd ⟨_, rfl⟩ hgo

theorem moves_or_awaitItem (hr : (s.threads t).reads = some ticket) :
    Moves n s (n.index ticket) ∨ s.seq (n.index ticket) ≠ ticket + 1 ∧
      s.threads t = .awaitItem ticket := by
  by_cases hgo : ∃ s', s.go n t false = some s'
  · exact .inl ⟨t, ticket, rfl, .inr hr, hgo⟩
  · refine .inr ?_
    unfold go at hgo
    cases hp : s.threads t <;> rw [hp] at hr hgo <;> cases hr
    · exact ⟨fun hseq => hgo ⟨_, if_pos hseq⟩, rfl⟩
    · exact absurd ⟨_, rfl⟩ hgo
    · exact absurd ⟨_, rfl⟩ hgo

/-- A consumer whose value was accepted waits for its producer at most. -/
theorem Inv.moves_of_reads (h : s.Inv n) (hr : (s.threads t).reads = some ticket)
    (hlt : ticket < s.writeTicket)
    (hwriter : ∀ t', (s.threads t').writes = some ticket → Moves n s (n.index ticket)) :
    Moves n s (n.index ticket) := by
  rcases moves_or_awaitItem (n := n) hr with hmoves | ⟨hne, hp⟩
  · exact hmoves
  · have hmine := h.promise t
    rw [hp] at hmine
    obtain ⟨t', hw⟩ := h.writer_of_not_published hlt (h.not_published hne hmine.2)
    exact hwriter t' hw

/-- A producer for whom there is room waits for the consumer one lap before it at most. -/
theorem Inv.moves_of_writes (h : s.Inv n) (hw : (s.threads t).writes = some ticket)
    (hroom : ticket < s.readTicket + n.SIZE) : Moves n s (n.index ticket) := by
  -- the next producer on the chain is one lap earlier
  induction ticket using Nat.strong_induction_on generalizing t with
  | _ ticket ih =>
      have hsize := n.two_le
      rcases moves_or_awaitFree (n := n) hw with hmoves | ⟨hne, data, hp⟩
      · exact hmoves
      · have hmine := h.promise t
        rw [hp] at hmine
        have hbehind : s.seq (n.index ticket) < ticket := Nat.lt_of_le_of_ne hmine.2 hne
        obtain ⟨before, hbefore, hrel⟩ := h.lap_before hbehind
        obtain ⟨t', hr⟩ := h.reader_of_not_released (by omega) hrel
        have hslot : n.index ticket = n.index before := by rw [← hbefore, n.index_add_size]
        have hlt := h.writes_lt hw
        rw [hslot]
        apply h.moves_of_reads hr (by omega)
        intro t'' hw'
        exact ih before (by omega) hw' (by omega)

end

/-! ## The calls that do not wait -/

section

variable [DecidableEq τ] {weak : Bool} {s' : AtomicRingBuffer τ A}

theorem Inv.room_of_casWrite (h : s.Inv n) {v : A} (hp : s.threads t = .casWrite v ticket)
    (hs : s.go n t weak = some s') (htaken : s'.writeTicket ≠ s.writeTicket) :
    s.writeTicket < s.readTicket + n.SIZE := by
  have hmine : ticket < s.writeTicket ∨
      ticket = s.writeTicket ∧ s.seq (n.index ticket) = ticket := by
    have hmine := h.promise t
    rwa [hp] at hmine
  unfold AtomicRingBuffer.go at hs
  rw [hp] at hs
  dsimp only at hs
  split at hs
  · rename_i htest
    by_contra hfull
    have hunread : ¬ Released n s (s.writeTicket - n.SIZE) := h.unread _ (by omega)
    have hindex : n.index (s.writeTicket - n.SIZE) = n.index ticket := by
      rw [← n.index_add_size, Nat.sub_add_cancel (by omega), htest.1]
    rw [Released, hindex] at hunread
    omega
  · obtain rfl := Option.some.inj hs
    exact absurd rfl htaken

theorem Inv.full_of_refused (h : s.Inv n) {v : A} (hp : s.threads t = .tryFree v ticket)
    (hs : s.go n t weak = some s') (hrefused : s'.threads t = .idle (some .refused)) :
    s.readTicket + n.SIZE ≤ s.writeTicket ∨
      ∃ t' before, before + n.SIZE = ticket ∧ (s.threads t').reads = some before := by
  have hmine : ticket ≤ s.writeTicket := by
    have hmine := h.promise t
    rwa [hp] at hmine
  unfold AtomicRingBuffer.go at hs
  rw [hp] at hs
  dsimp only at hs
  split at hs
  · obtain rfl := Option.some.inj hs
    rw [threads_moveTo_self] at hrefused
    cases hrefused
  · split at hs
    · obtain ⟨before, hbefore, hrel⟩ := h.lap_before (show s.seq (n.index ticket) < ticket by omega)
      by_cases hlt : before < s.readTicket
      · obtain ⟨t', hr⟩ := h.reader_of_not_released hlt hrel
        exact .inr ⟨t', before, hbefore, hr⟩
      · exact .inl (by omega)
    · obtain rfl := Option.some.inj hs
      rw [threads_moveTo_self] at hrefused
      cases hrefused

theorem Inv.item_of_casRead (h : s.Inv n) (hp : s.threads t = .casRead ticket)
    (hs : s.go n t weak = some s') (htaken : s'.readTicket ≠ s.readTicket) :
    s.readTicket < s.writeTicket := by
  have hmine : ticket < s.readTicket ∨
      ticket = s.readTicket ∧ s.seq (n.index ticket) = ticket + 1 := by
    have hmine := h.promise t
    rwa [hp] at hmine
  unfold AtomicRingBuffer.go at hs
  rw [hp] at hs
  dsimp only at hs
  split at hs
  · rename_i htest
    by_contra hempty
    have hunwritten : ¬ ticket < s.seq (n.index ticket) := h.unwritten ticket (by omega)
    omega
  · obtain rfl := Option.some.inj hs
    exact absurd rfl htaken

theorem Inv.empty_of_refused (h : s.Inv n) (hp : s.threads t = .tryItem ticket)
    (hs : s.go n t weak = some s') (hrefused : s'.threads t = .idle (some .refused)) :
    s.writeTicket ≤ s.readTicket ∨ ∃ t', (s.threads t').writes = some ticket := by
  have hmine : ticket ≤ s.readTicket := by
    have hmine := h.promise t
    rwa [hp] at hmine
  unfold AtomicRingBuffer.go at hs
  rw [hp] at hs
  dsimp only at hs
  split at hs
  · obtain rfl := Option.some.inj hs
    rw [threads_moveTo_self] at hrefused
    cases hrefused
  · split at hs
    · by_cases hlt : ticket < s.writeTicket
      · refine .inr (h.writer_of_not_published hlt ?_)
        rw [Published]
        omega
      · exact .inl (by omega)
    · obtain rfl := Option.some.inj hs
      rw [threads_moveTo_self] at hrefused
      cases hrefused

end

end AtomicRingBuffer

/-! ## Progress -/

section Main

variable {τ A : Type} [DecidableEq τ] {n : RingSize} {s : AtomicRingBuffer τ A} {data : Nat → A}

open AtomicRingBuffer

/-- **A call waits for a thread that can go on, or for a call that has not begun.** As long as a
producer is within `SIZE` of the consumers, or a consumer behind the producers, some thread at its
slot can take a step. So when nobody can, there are only producers waiting, or only consumers. -/
theorem ring_progress (h : Reach (ringStep n) ringOk (construct n data) s) :
    (∀ t ticket, (s.threads t).writes = some ticket → ticket < s.readTicket + n.SIZE →
      Moves n s (n.index ticket)) ∧
    (∀ t ticket, (s.threads t).reads = some ticket → ticket < s.writeTicket →
      Moves n s (n.index ticket)) ∧
    ((∀ t, s.go n t false = none) →
      (∀ t, (s.threads t).writes = none) ∨ ∀ t, (s.threads t).reads = none) := by
  have hi := inv_of_reach h
  have hwrites : ∀ t ticket, (s.threads t).writes = some ticket →
      ticket < s.readTicket + n.SIZE → Moves n s (n.index ticket) :=
    fun t ticket hw hroom => hi.moves_of_writes hw hroom
  have hreads : ∀ t ticket, (s.threads t).reads = some ticket → ticket < s.writeTicket →
      Moves n s (n.index ticket) := by
    intro t ticket hr hlt
    apply hi.moves_of_reads hr hlt
    intro t' hw
    exact hwrites t' ticket hw (Nat.lt_add_right _ (hi.reads_lt hr))
  refine ⟨hwrites, hreads, fun hstuck => ?_⟩
  have hnone : ∀ slot, ¬ Moves n s slot := by
    rintro slot ⟨t, ticket, -, -, s', hgo⟩
    rw [hstuck t] at hgo
    cases hgo
  by_contra hboth
  rw [not_or, not_forall, not_forall] at hboth
  obtain ⟨⟨t, hw⟩, t', hr⟩ := hboth
  obtain ⟨ticket, hw⟩ := Option.ne_none_iff_exists'.mp hw
  obtain ⟨ticket', hr⟩ := Option.ne_none_iff_exists'.mp hr
  -- the producer is a whole ring ahead, the consumer has overtaken the producers
  have hahead : s.readTicket + n.SIZE ≤ ticket :=
    Nat.le_of_not_lt (fun hroom => hnone _ (hwrites t ticket hw hroom))
  have hbehind : s.writeTicket ≤ ticket' :=
    Nat.le_of_not_lt (fun hlt => hnone _ (hreads t' ticket' hr hlt))
  have hlt := hi.writes_lt hw
  have hlt' := hi.reads_lt hr
  omega

/-- A consumer waits for the producer that has taken its ticket. -/
def consumerFirst : List (RingAct Bool Nat) :=
  [.call true .dequeue, .go true false, .call false (.enqueue 7), .go false false]

theorem ring_progress_consumerFirst :
    Moves .two ((runOnTwo consumerFirst).get rfl) (RingSize.two.index 0) := by
  have hsome : (runOnTwo consumerFirst).isSome := rfl
  have hreads : (((runOnTwo consumerFirst).get rfl).threads true).reads = some 0 := rfl
  exact (ring_progress (reach_runOnTwo hsome)).2.1 true 0 hreads (Nat.lt_succ_self 0)

/-- **What `tryEnqueue` and `tryDequeue` answer.** A value is taken in only while fewer than `SIZE`
are queued, and refused only when `SIZE` are or a consumer has not let go of the slot yet. A value
is handed out only if one is queued, and refused only when none is or its producer is still at
the slot. -/
theorem ring_try_answers (h : Reach (ringStep n) ringOk (construct n data) s) {t : τ}
    {weak : Bool} {s' : AtomicRingBuffer τ A} (hs : s.go n t weak = some s') :
    (∀ v ticket, s.threads t = .casWrite v ticket → s'.writeTicket ≠ s.writeTicket →
      s.writeTicket < s.readTicket + n.SIZE) ∧
    (∀ v ticket, s.threads t = .tryFree v ticket → s'.threads t = .idle (some .refused) →
      s.readTicket + n.SIZE ≤ s.writeTicket ∨
        ∃ t' before, before + n.SIZE = ticket ∧ (s.threads t').reads = some before) ∧
    (∀ ticket, s.threads t = .casRead ticket → s'.readTicket ≠ s.readTicket →
      s.readTicket < s.writeTicket) ∧
    (∀ ticket, s.threads t = .tryItem ticket → s'.threads t = .idle (some .refused) →
      s.writeTicket ≤ s.readTicket ∨ ∃ t', (s.threads t').writes = some ticket) := by
  have hi := inv_of_reach h
  exact ⟨fun v ticket hp htaken => hi.room_of_casWrite hp hs htaken,
    fun v ticket hp hrefused => hi.full_of_refused hp hs hrefused,
    fun ticket hp htaken => hi.item_of_casRead hp hs htaken,
    fun ticket hp hrefused => hi.empty_of_refused hp hs hrefused⟩

/-- Two values are put into the smallest ring, and a third is tried. -/
def threeTries : List (RingAct Bool Nat) :=
  [.call false (.enqueue 7), .go false false, .go false false, .go false false, .go false false,
    .call false (.enqueue 8), .go false false, .go false false, .go false false, .go false false,
    .call true (.tryEnqueue 9), .go true false]

theorem ring_try_answers_full :
    let s := (runOnTwo threeTries).get rfl
    s.readTicket + RingSize.two.SIZE ≤ s.writeTicket ∨
      ∃ t' before, before + RingSize.two.SIZE = 2 ∧ (s.threads t').reads = some before := by
  have hsome : (runOnTwo threeTries).isSome := rfl
  have hs : ((runOnTwo threeTries).get hsome).go .two true false =
      some ((((runOnTwo threeTries).get hsome).go .two true false).get rfl) :=
    (Option.some_get _).symm
  exact (ring_try_answers (reach_runOnTwo hsome) hs).2.1 9 2 rfl rfl

end Main

end AstraConnect.AstraLib
