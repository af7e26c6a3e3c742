import AstraConnect.AstraLib.RingCalls

set_option autoImplicit false

/-! # A pool of indexes (`threadSafeIndexPool.hpp`)

The ring holds the indexes that are free; `getIndex` takes one out and `returnIndex` puts it back.
`OrderAccessHolder` has such a pool for its accesses, and the free slots of `OrderbookArrayHolder`
are one too. The pool's clients run in any number of threads, and give back what they hold.

The indexes in the clients' hands are always different ones (`index_pool_disjoint`). `returnIndex`
never waits for a call that has not begun, and a `getIndex` that is alone waits for one only when
all indexes are out (`index_pool_waits`).
-/

namespace AstraConnect.AstraLib

open Transition HandOver AtomicRingBuffer

/-- `out` is a history variable: the indexes that are with a client. -/
structure ThreadSafeIndexPool (τ : Type) where
  ring : AtomicRingBuffer τ Nat
  out : List Nat

inductive PoolAct (τ : Type) where
  | getIndex (t : τ)
  /-- the call together with `fetch_add`, its first step -/
  | returnIndex (t : τ) (index : Nat)
  | go (t : τ) (weak : Bool)

namespace ThreadSafeIndexPool

variable {τ : Type} [DecidableEq τ]

/-- The index that a call returns by its next step. -/
def handed : RingPlace Nat → List Nat
  | .release _ index => [index]
  | _ => []

def step (n : RingSize) (p : ThreadSafeIndexPool τ) : PoolAct τ → Option (ThreadSafeIndexPool τ)
  | .getIndex t => (ringStep n p.ring (.call t .dequeue)).map (fun r => { p with ring := r })
  | .returnIndex t index =>
      (runFrom (ringStep n) p.ring [.call t (.enqueue index), .go t false]).map
        (fun r => ⟨r, p.out.erase index⟩)
  | .go t weak => (p.ring.go n t weak).map (fun r => ⟨r, p.out ++ handed (p.ring.threads t)⟩)

/-- A client gives back what it holds. -/
def ok (p : ThreadSafeIndexPool τ) : PoolAct τ → Prop
  | .returnIndex _ index => index ∈ p.out
  | _ => True

/-- Before the loop of `initializeIndexes`: its indexes are with the constructor, which puts them
into the ring as `returnIndex` does. -/
def construct (n : RingSize) (data : Nat → Nat) : ThreadSafeIndexPool τ :=
  ⟨.construct n data, List.range n.SIZE⟩

/-- Inside `tryEnqueue`, or at the first step of `enqueue`. -/
def offers : RingPlace Nat → Bool
  | .takeWrite _ => true
  | .peekWrite _ => true
  | .tryFree _ _ => true
  | .casWrite _ _ => true
  | _ => false

/-- **The invariant.** Every index is in the ring or with a client. -/
structure Inv (n : RingSize) (p : ThreadSafeIndexPool τ) : Prop where
  ring : p.ring.Inv n
  places : ∀ t, offers (p.ring.threads t) = false
  balance : (p.out ++ p.ring.line.offered).Perm
    (List.range n.SIZE ++ p.ring.log.map Delivery.value)

variable {n : RingSize} {p p' : ThreadSafeIndexPool τ} {t : τ}

theorem places_moveTo {s : AtomicRingBuffer τ Nat} (h : ∀ t, offers (s.threads t) = false)
    {q : RingPlace Nat} (hq : offers q = false) (t' : τ) :
    offers ((s.moveTo t q).threads t') = false := by
  by_cases ht : t' = t
  · rw [ht, threads_moveTo_self, hq]
  · rw [threads_moveTo_of_ne _ ht, h t']

/-- A step inside a call leaves the values that were put in, and takes out what it returns. -/
theorem go_frame {s s' : AtomicRingBuffer τ Nat} (h : ∀ t, offers (s.threads t) = false)
    (hs : Go n s t s') :
    (∀ t', offers (s'.threads t') = false) ∧ s'.line.offered = s.line.offered ∧
      s'.log.map Delivery.value = s.log.map Delivery.value ++ handed (s.threads t) := by
  have hmine := h t
  cases hs with
  | takeWrite hp => rw [hp] at hmine; cases hmine
  | peekWrite hp => rw [hp] at hmine; cases hmine
  | tryFree hp _ => rw [hp] at hmine; cases hmine
  | full hp _ => rw [hp] at hmine; cases hmine
  | passedWrite hp _ => rw [hp] at hmine; cases hmine
  | casWrite hp _ => rw [hp] at hmine; cases hmine
  | lostWrite hp => rw [hp] at hmine; cases hmine
  | @release ticket index hp =>
      refine ⟨places_moveTo (s := (s.storeSeq _ _).deliver t ticket index) h rfl, rfl, ?_⟩
      rw [hp]
      exact List.map_append
  | @store index ticket hp =>
      refine ⟨places_moveTo (s := s.storeData (n.index ticket) index) h rfl, rfl, ?_⟩
      rw [hp]
      exact (List.append_nil _).symm
  | @publish ticket hp =>
      refine ⟨places_moveTo (s := s.storeSeq (n.index ticket) (ticket + 1)) h rfl, rfl, ?_⟩
      rw [hp]
      exact (List.append_nil _).symm
  | takeRead hp =>
      refine ⟨places_moveTo (s := s.claimRead t) h rfl, rfl, ?_⟩
      rw [hp]
      exact (List.append_nil _).symm
  | casRead hp _ =>
      refine ⟨places_moveTo (s := s.claimRead t) h rfl, rfl, ?_⟩
      rw [hp]
      exact (List.append_nil _).symm
  | free hp _ | item hp _ | load hp | peekRead hp | tryItem hp _ | noItem hp _ | passedRead hp _
  | lostRead hp | loadFirst hp | loadSecond hp =>
      refine ⟨places_moveTo h rfl, rfl, ?_⟩
      rw [hp]
      exact (List.append_nil _).symm

/-- What `enqueue` has done when it has its ticket. -/
theorem enqueue_begins {s s' : AtomicRingBuffer τ Nat} {index : Nat} (h : s.Inv n)
    (hs : runFrom (ringStep n) s [.call t (.enqueue index), .go t false] = some s') :
    s'.Inv n ∧ s' = ((s.moveTo t (.takeWrite index)).claimWrite index).moveTo t
      (.awaitFree index s.writeTicket) := by
  rw [runFrom, Option.bind_eq_some_iff] at hs
  obtain ⟨s₁, hcall, hs⟩ := hs
  rw [runFrom, Option.bind_eq_some_iff] at hs
  obtain ⟨s₂, hgo, hs⟩ := hs
  obtain rfl := Option.some.inj hs
  refine ⟨(h.step ringOk_call hcall).step ringOk_go hgo, ?_⟩
  obtain ⟨-, rfl⟩ := call_cases hcall
  have hp : (s.moveTo t (.start (.enqueue index))).threads t = .takeWrite index :=
    threads_moveTo_self ..
  unfold ringStep go at hgo
  dsimp only at hgo
  rw [hp] at hgo
  exact (Option.some.inj hgo).symm

theorem Inv.step (h : Inv n p) {a : PoolAct τ} (hok : ok p a)
    (hs : ThreadSafeIndexPool.step n p a = some p') : Inv n p' := by
  cases a with
  | getIndex t =>
      obtain ⟨r, hr, rfl⟩ := Option.map_eq_some_iff.mp hs
      have hring : r.Inv n := h.ring.step ringOk_call hr
      obtain ⟨-, rfl⟩ := call_cases hr
      exact ⟨hring, places_moveTo h.places rfl, h.balance⟩
  | returnIndex t index =>
      obtain ⟨r, hr, rfl⟩ := Option.map_eq_some_iff.mp hs
      obtain ⟨hring, rfl⟩ := enqueue_begins h.ring hr
      refine ⟨hring, fun t' => ?_, ?_⟩
      · by_cases ht : t' = t
        · rw [ht, threads_moveTo_self]
          rfl
        · rw [threads_moveTo_of_ne _ ht]
          show offers ((p.ring.moveTo t _).threads t') = false
          rw [threads_moveTo_of_ne _ ht, h.places]
      · show (p.out.erase index ++ (p.ring.line.offered ++ [index])).Perm _
        have hback : (p.out.erase index ++ (p.ring.line.offered ++ [index])).Perm
            (p.out ++ p.ring.line.offered) := by
          rw [← List.append_assoc]
          refine (List.perm_append_singleton _ _).trans ?_
          exact (List.perm_cons_erase hok).symm.append_right _
        exact hback.trans h.balance
  | go t weak =>
      obtain ⟨r, hr, rfl⟩ := Option.map_eq_some_iff.mp hs
      obtain ⟨hplaces, hoffered, hlog⟩ := go_frame h.places (go_cases hr)
      refine ⟨h.ring.go (go_cases hr), hplaces, ?_⟩
      dsimp only
      rw [hoffered, hlog, ← List.append_assoc]
      refine List.Perm.trans ?_ (h.balance.append_right _)
      rw [List.append_assoc, List.append_assoc]
      exact List.perm_append_comm.append_left _

theorem inv_of_reach {data : Nat → Nat} (h : Reach (step n) ok (construct n data) p) : Inv n p := by
  apply h.invariant
  · exact ⟨inv_construct data, fun _ => rfl, by simp [construct, AtomicRingBuffer.construct]⟩
  · intro p a p' hi hok hs
    exact hi.step hok hs

omit [DecidableEq τ] in
/-- What is not with a client is in the ring. -/
theorem Inv.rest (h : Inv n p) : ∃ rest, (p.out ++ rest).Perm (List.range n.SIZE) := by
  obtain ⟨l, hperm, hsub⟩ := h.ring.faithful.subperm
  obtain ⟨rest, hrest⟩ := hsub.exists_perm_append
  refine ⟨rest, ?_⟩
  have hoffered : p.ring.line.offered.Perm (p.ring.log.map Delivery.value ++ rest) :=
    hrest.trans (hperm.append_right rest)
  rw [← List.perm_append_left_iff (p.ring.log.map Delivery.value)]
  have hleft : (p.ring.log.map Delivery.value ++ (p.out ++ rest)).Perm
      (p.out ++ p.ring.line.offered) := by
    rw [← List.append_assoc]
    refine (List.perm_append_comm.append_right rest).trans ?_
    rw [List.append_assoc]
    exact hoffered.symm.append_left _
  exact hleft.trans (h.balance.trans List.perm_append_comm)

/-! ## The constructor

`initializeIndexes` enqueues `0` to `SIZE - 1` before there is any client. It is the same as so
many calls of `returnIndex` by one thread, and it returns, because the ring has room for them
all. -/

/-- Inside `enqueue` no index is taken out. -/
theorem run_of_calling {s s' : AtomicRingBuffer τ Nat} {q : List Nat} {index k : Nat}
    (h : Calling n q (.enqueue index) t s) (out : List Nat)
    (hrun : runFrom (ringStep n) s (List.replicate k (.go t false)) = some s') :
    runFrom (step n) ⟨s, out⟩ (List.replicate k (.go t false)) = some ⟨s', out⟩ := by
  induction k generalizing s with
  | zero =>
      obtain rfl := Option.some.inj hrun
      rfl
  | succ k ih =>
      rw [List.replicate_succ, runFrom, Option.bind_eq_some_iff] at hrun
      obtain ⟨s₁, hs, hrest⟩ := hrun
      have hnone : handed (s.threads t) = [] := by
        have hdue := h.due
        cases hp : s.threads t with
        | release ticket v =>
            rw [hp] at hdue
            have hdone : (if q.length < n.SIZE then some (q ++ [index], Outcome.done) else none)
                = some (s.line.items, .item v) := hdue
            split at hdone
            · cases (Prod.mk.inj (Option.some.inj hdone)).2
            · cases hdone
        | _ => rfl
      have hgo : s.go n t false = some s₁ := hs
      rw [List.replicate_succ, runFrom, step, hgo, Option.map_some, hnone, List.append_nil]
      exact ih (h.go (go_cases hgo)) hrest

/-- `returnIndex` of a thread that is alone. -/
theorem returnIndex_alone (h : p.ring.Inv n) (hquiet : p.ring.Quiet)
    (hroom : p.ring.line.items.length < n.SIZE) (t : τ) (index : Nat) :
    ∃ as r, runFrom (step n) p as = some ⟨r, p.out.erase index⟩ ∧ r.Inv n ∧ r.Quiet ∧
      r.line.items = p.ring.line.items ++ [index] := by
  have hanswer := queueCall_enqueue (v := index) hroom
  obtain ⟨hcall, hbegin⟩ := Calling.begin h hquiet t (.enqueue index)
  -- the first step of `enqueue` belongs to `returnIndex`
  obtain ⟨s₁, hgo⟩ : ∃ s₁, (p.ring.moveTo t (.start (.enqueue index))).go n t false = some s₁ := by
    unfold AtomicRingBuffer.go
    rw [threads_moveTo_self]
    exact ⟨_, rfl⟩
  have hreturn : step n p (.returnIndex t index) = some ⟨s₁, p.out.erase index⟩ := by
    have hfirst : ringStep n (p.ring.moveTo t (.start (.enqueue index))) (.go t false) = some s₁ :=
      hgo
    rw [step, runFrom, hcall, Option.bind_some, runFrom, hfirst]
    rfl
  have hnext := hbegin.go (go_cases hgo)
  have hreturns : queueCall n.SIZE p.ring.line.items (.enqueue index) ≠ none := by
    rw [hanswer]
    exact Option.some_ne_none _
  obtain ⟨k, -, r, last, hrun, hlast⟩ := hnext.returns hreturns
  have hcalling : Calling n p.ring.line.items (.enqueue index) t r := by
    apply hnext.run
    rw [List.map_replicate]
    exact hrun
  refine ⟨.returnIndex t index :: List.replicate k (.go t false), r, ?_, hcalling.inv, ?_, ?_⟩
  · rw [runFrom, hreturn]
    exact run_of_calling hnext _ hrun
  · intro t'
    by_cases ht : t' = t
    · exact ⟨last, ht ▸ hlast⟩
    · exact hcalling.alone t' ht
  · have hdue := hcalling.due
    rw [hlast] at hdue
    obtain ⟨out, -, hout⟩ := hdue
    rw [hanswer] at hout
    exact (Prod.mk.inj (Option.some.inj hout)).1.symm

theorem initializeIndexes_returns (data : Nat → Nat) (t : τ) {k : Nat} (hk : k ≤ n.SIZE) :
    ∃ (as : List (PoolAct τ)) (p : ThreadSafeIndexPool τ),
      runFrom (step n) (construct n data) as = some p ∧ p.ring.Inv n ∧ p.ring.Quiet ∧
      p.ring.line.items = List.range k ∧ p.out = (List.range n.SIZE).drop k := by
  induction k with
  | zero =>
      exact ⟨[], construct n data, rfl, inv_construct data, fun _ => ⟨none, rfl⟩, rfl, rfl⟩
  | succ k ih =>
      obtain ⟨as, p, hrun, hi, hquiet, hitems, hout⟩ := ih (by omega)
      have hroom : p.ring.line.items.length < n.SIZE := by
        rw [hitems, List.length_range]
        omega
      obtain ⟨bs, r, hnext, hi', hquiet', hitems'⟩ := returnIndex_alone hi hquiet hroom t k
      refine ⟨as ++ bs, ⟨r, p.out.erase k⟩, ?_, hi', hquiet', ?_, ?_⟩
      · rw [runFrom_append, hrun]
        exact hnext
      · rw [hitems', hitems, List.range_succ]
      · rw [hout, List.drop_eq_getElem_cons (by rw [List.length_range]; omega), List.getElem_range,
          List.erase_cons_head]

end ThreadSafeIndexPool

section Main

variable {τ : Type} [DecidableEq τ] {n : RingSize} {p : ThreadSafeIndexPool τ} {data : Nat → Nat}

open ThreadSafeIndexPool

/-- **No index is with two clients.** The indexes that are out are different ones below `SIZE`, and
an index that `getIndex` is about to return is not among them. -/
theorem index_pool_disjoint (h : Reach (step n) ok (construct n data) p) :
    p.out.Nodup ∧ (∀ index ∈ p.out, index < n.SIZE) ∧
    ∀ t ticket index, p.ring.threads t = .release ticket index → index ∉ p.out := by
  have hdistinct : ∀ p' : ThreadSafeIndexPool τ, Reach (step n) ok (construct n data) p' →
      p'.out.Nodup ∧ ∀ index ∈ p'.out, index < n.SIZE := by
    intro p' h'
    obtain ⟨rest, hrest⟩ := (inv_of_reach h').rest
    constructor
    · exact (List.nodup_append.mp (hrest.nodup_iff.mpr List.nodup_range)).1
    · intro index hindex
      exact List.mem_range.mp (hrest.subset (List.mem_append_left _ hindex))
  refine ⟨(hdistinct p h).1, (hdistinct p h).2, fun t ticket index hp hmem => ?_⟩
  -- it would be out twice when the call has returned
  obtain ⟨p', hs, hout⟩ : ∃ p', step n p (.go t false) = some p' ∧ p'.out = p.out ++ [index] := by
    rw [step, go, hp]
    exact ⟨_, rfl, rfl⟩
  have hok : ok p (.go t false) := trivial
  have hnodup := (hdistinct p' (h.tail hok hs)).1
  rw [hout, List.nodup_append] at hnodup
  exact hnodup.2.2 index hmem index (List.mem_singleton_self _) rfl

instance : DecidableRel (@ok Bool)
  | p, .returnIndex _ index => inferInstanceAs (Decidable (index ∈ p.out))
  | _, .getIndex _ => inferInstanceAs (Decidable True)
  | _, .go _ _ => inferInstanceAs (Decidable True)

/-- The first of two indexes is put into the pool and is about to come out again. -/
def lendFirst : List (PoolAct Bool) :=
  [.returnIndex true 0, .go true false, .go true false, .go true false, .getIndex false,
    .go false false, .go false false, .go false false]

def afterLendFirst : Option (ThreadSafeIndexPool Bool) :=
  runFrom (fun p a => if decide (ok p a) then step .two p a else none)
    (construct .two (fun _ => 0)) lendFirst

theorem index_pool_disjoint_lendFirst : 0 ∉ (afterLendFirst.get rfl).out := by
  have hreach : Reach (step .two) ok (construct .two (fun _ => 0)) (afterLendFirst.get rfl) :=
    Reach.of_runFrom (fun _ _ => of_decide_eq_true) .refl (Option.some_get _).symm
  exact (index_pool_disjoint hreach).2.2 false 0 0 rfl

/-- **What the calls wait for.** An index that comes back always finds its slot free, or a call at
work on it. A `getIndex` while no other is in progress finds an index, or a call at work on one,
unless every index is out. -/
theorem index_pool_waits (h : Reach (step n) ok (construct n data) p) :
    (∀ t ticket, (p.ring.threads t).writes = some ticket → Moves n p.ring (n.index ticket)) ∧
    ∀ t ticket, (p.ring.threads t).reads = some ticket →
      (∀ t', t' ≠ t → (p.ring.threads t').reads = none) →
      Moves n p.ring (n.index ticket) ∨ p.out.length = n.SIZE := by
  have hi := inv_of_reach h
  have hlen := hi.balance.length_eq
  rw [List.length_append, List.length_append, List.length_range, List.length_map,
    hi.ring.offered] at hlen
  have hlog := hi.ring.faithful.length_le
  rw [hi.ring.asked] at hlog
  have hwrites : ∀ t ticket, (p.ring.threads t).writes = some ticket →
      Moves n p.ring (n.index ticket) := by
    intro t ticket hw
    have hlt := hi.ring.writes_lt hw
    exact hi.ring.moves_of_writes hw (by omega)
  refine ⟨hwrites, fun t ticket hr halone => ?_⟩
  by_cases hlt : ticket < p.ring.writeTicket
  · refine .inl (hi.ring.moves_of_reads hr hlt ?_)
    exact fun t' hw => hwrites t' ticket hw
  · refine .inr ?_
    -- the other tickets are all served, so this one is the next
    have hserved : ∀ k < p.ring.readTicket, k ≠ ticket → k ∈ p.ring.log.map Delivery.ticket := by
      intro k hk hne
      rw [hi.ring.logged]
      apply hi.ring.released k hk
      intro t' ht'
      by_cases ht : t' = t
      · rw [ht, hr] at ht'
        exact hne (Option.some.inj ht').symm
      · rw [halone t' ht] at ht'
        cases ht'
    have hall : ∀ k < p.ring.line.offered.length, k ∈ p.ring.log.map Delivery.ticket := by
      intro k hk
      rw [hi.ring.offered] at hk
      have hread := hi.ring.reads_lt hr
      exact hserved k (by omega) (by omega)
    have heq := hi.ring.faithful.length_eq hall
    rw [hi.ring.offered] at heq
    omega

theorem index_pool_waits_lendFirst :
    Moves .two (afterLendFirst.get rfl).ring (RingSize.two.index 0) ∨
      (afterLendFirst.get rfl).out.length = 2 := by
  have hreach : Reach (step .two) ok (construct .two (fun _ => 0)) (afterLendFirst.get rfl) :=
    Reach.of_runFrom (fun _ _ => of_decide_eq_true) .refl (Option.some_get _).symm
  apply (index_pool_waits hreach).2 false 0 rfl
  intro t ht
  obtain rfl : t = true := Bool.eq_true_of_not_eq_false ht
  rfl

end Main

end AstraConnect.AstraLib
