import AstraConnect.AstraLib.RingCalls

set_option autoImplicit false

/-! # What the only consumer sees

`isEmpty` and `approxSize` load the two tickets one after the other, and other threads take tickets
meanwhile. For the only thread that takes values out the answers are good all the same: what was
there when it looked is there until it takes it (`sole_consumer_answers`). The threads that look at
a stream's `bufferOut` before they take from it are such consumers.
-/

namespace AstraConnect.AstraLib

open Transition

variable {τ A : Type}

def RingOp.consumes : RingOp A → Bool
  | .dequeue => true
  | .tryDequeue => true
  | _ => false

/-- Inside `dequeue` or `tryDequeue`. -/
def RingPlace.consumes : RingPlace A → Bool
  | .takeRead => true
  | .awaitItem _ => true
  | .load _ => true
  | .release _ _ => true
  | .peekRead => true
  | .tryItem _ => true
  | .casRead _ => true
  | _ => false

/-- Only the thread `c` takes values out, and the ring is not cleared. -/
def soleOk (c : τ) (_ : AtomicRingBuffer τ A) : RingAct τ A → Prop
  | .call t op => op.consumes = true → t = c
  | .go _ _ => True
  | .clearBuffer => False

namespace AtomicRingBuffer

variable {n : RingSize} {s s' : AtomicRingBuffer τ A} {t c : τ}

/-- What the consumer may rely on where it is. -/
def Seen (s : AtomicRingBuffer τ A) : RingPlace A → Prop
  | .loadSecond _ true first => s.readTicket ≤ first ∧ first ≤ s.writeTicket
  | .loadSecond _ false first => first = s.readTicket
  | .idle (some (.empty false)) => s.readTicket < s.writeTicket
  | .idle (some (.size k)) => s.readTicket + k ≤ s.writeTicket
  | _ => True

structure Sole (c : τ) (s : AtomicRingBuffer τ A) : Prop where
  sole : ∀ t, (s.threads t).consumes = true → t = c
  seen : Seen s (s.threads c)

/-- The others only put values in. -/
theorem Seen.mono {p : RingPlace A} (h : Seen s p) (hread : s'.readTicket = s.readTicket)
    (hwrite : s.writeTicket ≤ s'.writeTicket) : Seen s' p := by
  unfold Seen at h ⊢
  split <;> simp only at h
  · exact ⟨hread ▸ h.1, h.2.trans hwrite⟩
  · exact h.trans hread.symm
  · omega
  · omega
  · trivial

/-- A step that takes no read ticket. -/
theorem Sole.of_same (h : Sole c s) (hread : s'.readTicket = s.readTicket)
    (hwrite : s.writeTicket ≤ s'.writeTicket) (hthreads : s'.threads = s.threads) : Sole c s' where
  sole t ht := h.sole t (hthreads ▸ ht)
  seen := hthreads ▸ h.seen.mono hread hwrite

theorem Sole.moveTo [DecidableEq τ] (h : Sole c s) {p : RingPlace A}
    (hp : p.consumes = true → t = c) (hseen : t = c → Seen s p) : Sole c (s.moveTo t p) := by
  constructor
  · intro t' ht'
    by_cases ht : t' = t
    · rw [ht, threads_moveTo_self] at ht'
      exact ht.trans (hp ht')
    · rw [threads_moveTo_of_ne _ ht] at ht'
      exact h.sole t' ht'
  · by_cases ht : c = t
    · rw [ht, threads_moveTo_self]
      exact hseen ht.symm
    · rw [threads_moveTo_of_ne _ ht]
      exact h.seen

/-- The consumer takes a read ticket. -/
theorem Sole.claimRead [DecidableEq τ] (h : Sole t s) {p : RingPlace A}
    (hp : ∀ s' : AtomicRingBuffer τ A, Seen s' p) : Sole t ((s.claimRead t).moveTo t p) := by
  constructor
  · intro t' ht'
    by_contra ht
    rw [threads_moveTo_of_ne _ ht] at ht'
    exact ht (h.sole t' ht')
  · rw [threads_moveTo_self]
    exact hp _

/-- What `count` returns is there. -/
theorem seen_count (sized : Bool) {write : Nat} (hle : s.readTicket ≤ write)
    (hwrite : write ≤ s.writeTicket) :
    Seen s (.idle (some (count n sized write s.readTicket))) := by
  cases sized with
  | true =>
      show s.readTicket + (if write ≤ s.readTicket then 0 else min (write - s.readTicket) n.SIZE)
        ≤ s.writeTicket
      split <;> omega
  | false =>
      unfold count
      rw [if_neg Bool.false_ne_true]
      by_cases heq : write = s.readTicket
      · rw [decide_eq_true heq]
        trivial
      · rw [decide_eq_false heq]
        show s.readTicket < s.writeTicket
        omega

/-- The consumer holds no ticket outside its two calls. -/
theorem Sole.reads (h : Sole c s) (hc : (s.threads c).consumes = false) (t : τ) :
    (s.threads t).reads = none := by
  cases hr : (s.threads t).reads with
  | none => rfl
  | some ticket =>
      have hconsumes : (s.threads t).consumes = true := by
        cases hq : s.threads t <;> rw [hq] at hr <;> first | rfl | cases hr
      obtain rfl := h.sole t hconsumes
      rw [hconsumes] at hc
      cases hc

theorem Sole.go [DecidableEq τ] (h : Sole c s) (hi : s.Inv n) (hs : Go n s t s') : Sole c s' := by
  have hmine := h.seen
  cases hs with
  | @takeWrite data _ =>
      have hclaimed : Sole c (s.claimWrite data) := h.of_same rfl (Nat.le_succ _) rfl
      exact hclaimed.moveTo nofun (fun _ => trivial)
  | @casWrite data ticket _ _ =>
      have hclaimed : Sole c (s.claimWrite data) := h.of_same rfl (Nat.le_succ _) rfl
      exact hclaimed.moveTo nofun (fun _ => trivial)
  | takeRead hp =>
      obtain rfl := h.sole t (by rw [hp]; rfl)
      exact h.claimRead (fun _ => trivial)
  | casRead hp _ =>
      obtain rfl := h.sole t (by rw [hp]; rfl)
      exact h.claimRead (fun _ => trivial)
  | @store data ticket _ =>
      have hstored : Sole c (s.storeData (n.index ticket) data) := h.of_same rfl le_rfl rfl
      exact hstored.moveTo nofun (fun _ => trivial)
  | @publish ticket _ =>
      have hstored : Sole c (s.storeSeq (n.index ticket) (ticket + 1)) := h.of_same rfl le_rfl rfl
      exact hstored.moveTo nofun (fun _ => trivial)
  | @release ticket data _ =>
      let stored := (s.storeSeq (n.index ticket) (ticket + n.SIZE)).deliver t ticket data
      have hstored : Sole c stored := h.of_same rfl le_rfl rfl
      exact hstored.moveTo nofun (fun _ => trivial)
  | item hp _ => exact h.moveTo (fun _ => h.sole t (by rw [hp]; rfl)) (fun _ => trivial)
  | load hp => exact h.moveTo (fun _ => h.sole t (by rw [hp]; rfl)) (fun _ => trivial)
  | peekRead hp => exact h.moveTo (fun _ => h.sole t (by rw [hp]; rfl)) (fun _ => trivial)
  | tryItem hp _ => exact h.moveTo (fun _ => h.sole t (by rw [hp]; rfl)) (fun _ => trivial)
  | passedRead hp _ => exact h.moveTo (fun _ => h.sole t (by rw [hp]; rfl)) (fun _ => trivial)
  | lostRead hp => exact h.moveTo (fun _ => h.sole t (by rw [hp]; rfl)) (fun _ => trivial)
  | @loadFirst sized writeFirst hp =>
      refine h.moveTo nofun ?_
      rintro rfl
      cases writeFirst with
      | true => exact ⟨hi.read_le_write (h.reads (by rw [hp]; rfl)), le_rfl⟩
      | false => exact rfl
  | @loadSecond sized writeFirst first hp =>
      refine h.moveTo nofun ?_
      rintro rfl
      have hle := hi.read_le_write (h.reads (by rw [hp]; rfl))
      rw [hp] at hmine
      cases writeFirst with
      | true => exact seen_count sized hmine.1 hmine.2
      | false =>
          obtain rfl : first = s.readTicket := hmine
          exact seen_count sized hle le_rfl
  | _ => exact h.moveTo nofun (fun _ => trivial)

theorem sole_of_reach [DecidableEq τ] {data : Nat → A}
    (h : Reach (ringStep n) (soleOk c) (construct n data) s) : s.Inv n ∧ Sole c s := by
  apply h.invariant (I := fun s => s.Inv n ∧ Sole c s)
  · exact ⟨inv_construct data, nofun, trivial⟩
  · rintro s a s' ⟨hi, hsole⟩ hok hs
    cases a with
    | clearBuffer => exact hok.elim
    | go t weak => exact ⟨hi.go (go_cases hs), hsole.go hi (go_cases hs)⟩
    | call t op =>
        refine ⟨hi.step ringOk_call hs, ?_⟩
        obtain ⟨-, rfl⟩ := call_cases hs
        refine hsole.moveTo (fun hconsumes => hok ?_) (fun _ => ?_)
        · cases op <;> first | rfl | cases hconsumes
        · cases op <;> trivial

end AtomicRingBuffer

section Main

variable {τ A : Type} [DecidableEq τ] {n : RingSize} {s : AtomicRingBuffer τ A} {data : Nat → A}

open AtomicRingBuffer

/-- **What the only consumer was told stays true until it takes a value.** After `isEmpty` has said
no to it a value is there for it, and after `approxSize` has said `k` there are `k`; and what is
there, its `dequeue` gets without any further call by a producer. -/
theorem sole_consumer_answers {c : τ}
    (h : Reach (ringStep n) (soleOk c) (construct n data) s) :
    (s.threads c = .idle (some (.empty false)) → s.readTicket < s.writeTicket) ∧
    (∀ k, s.threads c = .idle (some (.size k)) → s.readTicket + k ≤ s.writeTicket) ∧
    ∀ ticket, (s.threads c).reads = some ticket → ticket < s.writeTicket →
      Moves n s (n.index ticket) := by
  obtain ⟨hi, hsole⟩ := sole_of_reach h
  have hseen := hsole.seen
  refine ⟨fun hp => ?_, fun k hp => ?_, fun ticket hr hlt => ?_⟩
  · rw [hp] at hseen
    exact hseen
  · rw [hp] at hseen
    exact hseen
  · apply hi.moves_of_reads hr hlt
    intro t' hw
    exact hi.moves_of_writes hw (Nat.lt_add_right _ (hi.reads_lt hr))

/-- The consumer looks after a value was put in. -/
def lookAfterOne : List (RingAct Bool Nat) :=
  [.call false (.enqueue 7), .go false false, .go false false, .go false false, .go false false,
    .call true (.isEmpty true), .go true false, .go true false]

instance : DecidableRel (soleOk (A := Nat) true)
  | _, .call t op => inferInstanceAs (Decidable (op.consumes = true → t = true))
  | _, .go _ _ => inferInstanceAs (Decidable True)
  | _, .clearBuffer => inferInstanceAs (Decidable False)

def afterLook : Option (AtomicRingBuffer Bool Nat) :=
  runFrom (fun s a => if decide (soleOk true s a) then ringStep .two s a else none)
    (construct .two (fun _ => 0)) lookAfterOne

theorem sole_consumer_answers_one :
    (afterLook.get rfl).readTicket < (afterLook.get rfl).writeTicket := by
  have hreach : Reach (ringStep .two) (soleOk true) (construct .two (fun _ => 0))
      (afterLook.get rfl) :=
    Reach.of_runFrom (fun _ _ => of_decide_eq_true) .refl (Option.some_get _).symm
  exact (sole_consumer_answers hreach).1 rfl

end Main

end AstraConnect.AstraLib
