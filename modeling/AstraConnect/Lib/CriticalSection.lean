import AstraConnect.Lib.Transition

set_option autoImplicit false

/-! # Operations under a lock

Threads call the operations of an object. An operation takes the lock, goes step after step over
what the threads share, and gives the lock back; the steps of the threads come in any order.

A lock is known by what it does for its callers (`Lock`): at most one thread is inside, and a thread
gets in or out by its own steps only. That is enough for the operations to be done one after the
other: whatever the threads reach, a single caller reaches too, with the same results in the same
order (`oneByOne_of_reach`).
-/

namespace CriticalSection

open Transition

variable {τ σ ω π ε ρ : Type*}

/-! ## Locks

A lock is given by its steps and by what they do: an invariant of its own, that only one thread is
inside, and that the other threads stay where they are. -/

inductive LockAct (τ : Type*) where
  /-- a thread begins to ask for the lock -/
  | lock (t : τ)
  /-- it goes on asking -/
  | go (t : τ)
  | unlock (t : τ)

def LockAct.thread : LockAct τ → τ
  | lock t | go t | unlock t => t

/-- A lock. `Sound` is its own invariant. -/
structure Lock (τ : Type*) where
  State : Type*
  start : State
  step : State → LockAct τ → Option State
  inside : State → τ → Bool
  Sound : State → Prop
  sound_start : Sound start
  sound_step : ∀ {l l' a}, Sound l → step l a = some l' → Sound l'
  exclusive : ∀ {l t u}, Sound l → inside l t = true → inside l u = true → t = u
  inside_start : ∀ t, inside start t = false
  /-- nobody else is let in or out -/
  others : ∀ {l l' a t}, step l a = some l' → t ≠ a.thread → inside l' t = inside l t
  unlock_to : ∀ {l l' t}, step l (.unlock t) = some l' → inside l' t = false

/-! ## The callers -/

/-- An object: where an operation begins, and its next step, of which `ε` is what the world answers.
The last step gives the result. -/
structure Guarded (σ ω π ε ρ : Type*) where
  start : ω → π
  go : σ → ω → π → ε → Option (σ × (π ⊕ ρ))

/-- Where a thread is. -/
inductive Call (ω π : Type*) where
  | idle
  | asks (op : ω)
  | inside (op : ω) (p : π)
  /-- the operation is done and the lock not yet given back -/
  | leaves

/-- The thread has the lock. -/
def Call.isInside : Call ω π → Bool
  | .inside _ _ | .leaves => true
  | _ => false

structure Callers (L : Lock τ) (σ ω π ρ : Type*) where
  shared : σ
  lock : L.State
  calls : τ → Call ω π
  /-- what the calls have returned -/
  returned : List (τ × ω × ρ)

inductive CallersAct (τ ω ε : Type*) where
  | call (t : τ) (op : ω)
  | ask (t : τ)
  | go (t : τ) (answer : ε)
  | leave (t : τ)

section Callers

variable [DecidableEq τ] {L : Lock τ}

namespace Callers

def moveTo (s : Callers L σ ω π ρ) (t : τ) (c : Call ω π) : Callers L σ ω π ρ :=
  { s with calls := Function.update s.calls t c }

/-- After a step of the lock, in which the thread may have got in. -/
def ask (O : Guarded σ ω π ε ρ) (s : Callers L σ ω π ρ) (t : τ) (op : ω) (l : L.State) :
    Callers L σ ω π ρ :=
  { s with lock := l }.moveTo t (if L.inside l t then .inside op (O.start op) else .asks op)

/-- After a step of the operation. -/
def proceed (s : Callers L σ ω π ρ) (t : τ) (op : ω) : σ × (π ⊕ ρ) → Callers L σ ω π ρ
  | (shared, .inl p) => { s with shared := shared }.moveTo t (.inside op p)
  | (shared, .inr r) =>
      { s with shared := shared, returned := s.returned ++ [(t, op, r)] }.moveTo t .leaves

end Callers

def callersStep (O : Guarded σ ω π ε ρ) (s : Callers L σ ω π ρ) :
    CallersAct τ ω ε → Option (Callers L σ ω π ρ)
  | .call t op =>
      match s.calls t with
      | .idle => (L.step s.lock (.lock t)).map (s.ask O t op)
      | _ => none
  | .ask t =>
      match s.calls t with
      | .asks op => (L.step s.lock (.go t)).map (s.ask O t op)
      | _ => none
  | .go t answer =>
      match s.calls t with
      | .inside op p => (O.go s.shared op p answer).map (s.proceed t op)
      | _ => none
  | .leave t =>
      match s.calls t with
      | .leaves => (L.step s.lock (.unlock t)).map fun l => { s with lock := l }.moveTo t .idle
      | _ => none

/-- Nobody has called yet. -/
def Callers.start (L : Lock τ) (shared : σ) : Callers L σ ω π ρ :=
  ⟨shared, L.start, fun _ => .idle, []⟩

end Callers

/-! ## One caller

The same operations with nobody else about: an operation is begun when the last one has returned,
and then goes step after step to its end. -/

structure Serial (τ σ ω π ρ : Type*) where
  shared : σ
  running : Option (τ × ω × π)
  returned : List (τ × ω × ρ)

inductive SerialAct (τ ω ε : Type*) where
  | start (t : τ) (op : ω)
  | go (answer : ε)

def Serial.proceed (u : Serial τ σ ω π ρ) (t : τ) (op : ω) : σ × (π ⊕ ρ) → Serial τ σ ω π ρ
  | (shared, .inl p) => { u with shared := shared, running := some (t, op, p) }
  | (shared, .inr r) => ⟨shared, none, u.returned ++ [(t, op, r)]⟩

/-- An operation begins when the one before it is done. -/
def serialStep (O : Guarded σ ω π ε ρ) (u : Serial τ σ ω π ρ) :
    SerialAct τ ω ε → Option (Serial τ σ ω π ρ)
  | .start t op =>
      if u.running.isNone then some { u with running := some (t, op, O.start op) } else none
  | .go answer =>
      match u.running with
      | some (t, op, p) => (O.go u.shared op p answer).map (u.proceed t op)
      | none => none

def Serial.start (shared : σ) : Serial τ σ ω π ρ := ⟨shared, none, []⟩

/-! ## The callers, one after the other

The one caller has begun the operation of whoever is inside the lock, and is between two operations
when nobody is. Steps outside the lock are no steps of the one caller. -/

/-- The thread inside is the caller. -/
structure OneByOne {L : Lock τ} (s : Callers L σ ω π ρ) (u : Serial τ σ ω π ρ) : Prop where
  sound : L.Sound s.lock
  shared : s.shared = u.shared
  returned : s.returned = u.returned
  running : ∀ t op p, s.calls t = .inside op p ↔ u.running = some (t, op, p)
  inside : ∀ t, L.inside s.lock t = (s.calls t).isInside

section OneByOne

variable [DecidableEq τ] {L : Lock τ} {O : Guarded σ ω π ε ρ}
  {s s' : Callers L σ ω π ρ} {u : Serial τ σ ω π ρ} {t : τ} {op : ω} {l : L.State}

@[simp] theorem Callers.calls_moveTo_self (c : Call ω π) : (s.moveTo t c).calls t = c :=
  Function.update_self ..

@[simp] theorem Callers.calls_moveTo_of_ne {v : τ} (h : v ≠ t) (c : Call ω π) :
    (s.moveTo t c).calls v = s.calls v := Function.update_of_ne h ..

omit [DecidableEq τ] in
/-- Nothing runs while no thread is inside an operation. -/
theorem OneByOne.running_none (h : OneByOne s u) (hno : ∀ t op p, s.calls t ≠ .inside op p) :
    u.running = none := by
  cases hrun : u.running with
  | none => rfl
  | some r => exact absurd ((h.running r.1 r.2.1 r.2.2).mpr hrun) (hno _ _ _)

/-- What one thread does, with what it leaves to the others. -/
theorem OneByOne.move (h : OneByOne s u) {s₁ : Callers L σ ω π ρ} {u' : Serial τ σ ω π ρ}
    {c : Call ω π} (hsound : L.Sound s₁.lock) (hcalls : s₁.calls = s.calls)
    (hothers : ∀ v, v ≠ t → L.inside s₁.lock v = L.inside s.lock v)
    (hshared : s₁.shared = u'.shared) (hreturned : s₁.returned = u'.returned)
    (hrunning : ∀ op p, c = .inside op p ↔ u'.running = some (t, op, p))
    (hsame : ∀ v op p, v ≠ t → (u'.running = some (v, op, p) ↔ u.running = some (v, op, p)))
    (hinside : L.inside s₁.lock t = c.isInside) : OneByOne (s₁.moveTo t c) u' := by
  refine ⟨hsound, hshared, hreturned, fun v op p => ?_, fun v => ?_⟩
  · by_cases hv : v = t
    · subst hv
      rw [Callers.calls_moveTo_self]
      exact hrunning op p
    · rw [Callers.calls_moveTo_of_ne hv, hcalls, hsame v op p hv]
      exact h.running v op p
  · show L.inside s₁.lock v = _
    by_cases hv : v = t
    · subst hv
      rw [Callers.calls_moveTo_self]
      exact hinside
    · rw [Callers.calls_moveTo_of_ne hv, hcalls, hothers v hv]
      exact h.inside v

/-- A thread that asks is let in, or goes on asking. -/
theorem OneByOne.ask (h : OneByOne s u) {a : LockAct τ} (ha : a.thread = t)
    (hs : L.step s.lock a = some l) (hout : (s.calls t).isInside = false) :
    Matched OneByOne (serialStep O) (fun _ _ => True) u (s.ask O t op l) := by
  have hsound : L.Sound l := L.sound_step h.sound hs
  have hothers : ∀ v, v ≠ t → L.inside l v = L.inside s.lock v :=
    fun v hv => L.others hs (ha ▸ hv)
  have hwas : ∀ op p, u.running ≠ some (t, op, p) := by
    intro op p hrun
    rw [(h.running t op p).mpr hrun] at hout
    cases hout
  unfold Callers.ask
  cases hin : L.inside l t with
  | true =>
      -- the thread is alone inside, so that nothing was running
      have hnone : u.running = none := by
        apply h.running_none
        intro v op' p hv
        have hne : v ≠ t := fun heq => hwas op' p ((h.running t op' p).mp (heq ▸ hv))
        have hvin : L.inside l v = true := by rw [hothers v hne, h.inside v, hv]; rfl
        exact hne (L.exclusive hsound hvin hin)
      have hstart : serialStep O u (.start t op) =
          some { u with running := some (t, op, O.start op) } := by
        rw [serialStep, hnone]
        rfl
      refine .step trivial hstart
        (h.move hsound rfl hothers h.shared h.returned (fun op' p => ?_) (fun v op' p hv => ?_) hin)
      · rw [if_pos rfl, Call.inside.injEq, Option.some.injEq, Prod.mk.injEq, Prod.mk.injEq]
        exact (and_iff_right rfl).symm
      · rw [hnone]
        refine iff_of_false (fun heq => hv ?_) (fun heq => by cases heq)
        exact (Prod.mk.inj (Option.some.inj heq)).1.symm
  | false =>
      refine .stutter (h.move hsound rfl hothers h.shared h.returned (fun op' p => ?_)
        (fun _ _ _ _ => .rfl) hin)
      exact iff_of_false (fun heq => by cases heq) (hwas op' p)

/-- A step of the operation is the step of the one caller. -/
theorem OneByOne.go (h : OneByOne s u) {p : π} {answer : ε} {r : σ × (π ⊕ ρ)}
    (hcall : s.calls t = .inside op p) (hgo : O.go s.shared op p answer = some r) :
    Matched OneByOne (serialStep O) (fun _ _ => True) u (s.proceed t op r) := by
  have hrun : u.running = some (t, op, p) := (h.running t op p).mp hcall
  have hstep : serialStep O u (.go answer) = some (u.proceed t op r) := by
    rw [serialStep, hrun]
    show (O.go u.shared op p answer).map _ = _
    rw [← h.shared, hgo]
    rfl
  have hin : L.inside s.lock t = true := by rw [h.inside t, hcall]; rfl
  have hother : ∀ v op' p', v ≠ t → u.running ≠ some (v, op', p') := by
    intro v op' p' hv heq
    rw [hrun] at heq
    exact hv (Prod.mk.inj (Option.some.inj heq)).1.symm
  refine .step trivial hstep ?_
  rcases r with ⟨shared, q | result⟩
  · refine h.move h.sound rfl (fun _ _ => rfl) rfl h.returned (fun op' p' => ?_)
      (fun v op' p' hv => ?_) hin
    · show _ ↔ some (t, op, q) = some (t, op', p')
      rw [Call.inside.injEq, Option.some.injEq, Prod.mk.injEq, Prod.mk.injEq]
      exact (and_iff_right rfl).symm
    · refine iff_of_false (fun heq => hv ?_) (hother v op' p' hv)
      exact (Prod.mk.inj (Option.some.inj heq)).1.symm
  · refine h.move h.sound rfl (fun _ _ => rfl) rfl (congrArg (· ++ [(t, op, result)]) h.returned)
      (fun op' p' => ?_) (fun v op' p' hv => ?_) hin
    · exact iff_of_false (fun heq => by cases heq) (fun heq => by cases heq)
    · exact iff_of_false (fun heq => by cases heq) (hother v op' p' hv)

theorem OneByOne.leave (h : OneByOne s u) (hcall : s.calls t = .leaves)
    (hs : L.step s.lock (.unlock t) = some l) :
    OneByOne ({ s with lock := l }.moveTo t .idle) u := by
  refine h.move (L.sound_step h.sound hs) rfl (fun v hv => L.others hs hv) h.shared h.returned
    (fun op p => ?_) (fun _ _ _ _ => .rfl) (L.unlock_to hs)
  rw [← h.running, hcall]
  exact iff_of_false (fun heq => by cases heq) (fun heq => by cases heq)

theorem OneByOne.step (h : OneByOne s u) {a : CallersAct τ ω ε}
    (hs : callersStep O s a = some s') :
    Matched OneByOne (serialStep O) (fun _ _ => True) u s' := by
  cases a with
  | call t op =>
      cases hcall : s.calls t <;> rw [callersStep, hcall] at hs
      case idle =>
        obtain ⟨l, hl, rfl⟩ := Option.map_eq_some_iff.mp hs
        exact h.ask rfl hl (by rw [hcall]; rfl)
      all_goals cases hs
  | ask t =>
      cases hcall : s.calls t <;> rw [callersStep, hcall] at hs
      case asks op =>
        obtain ⟨l, hl, rfl⟩ := Option.map_eq_some_iff.mp hs
        exact h.ask rfl hl (by rw [hcall]; rfl)
      all_goals cases hs
  | go t answer =>
      cases hcall : s.calls t <;> rw [callersStep, hcall] at hs
      case inside op p =>
        obtain ⟨r, hr, rfl⟩ := Option.map_eq_some_iff.mp hs
        exact h.go hcall hr
      all_goals cases hs
  | leave t =>
      cases hcall : s.calls t <;> rw [callersStep, hcall] at hs
      case leaves =>
        obtain ⟨l, hl, rfl⟩ := Option.map_eq_some_iff.mp hs
        exact .stutter (h.leave hcall hl)
      all_goals cases hs

/-- **Operations under a lock are done one after the other.** What the callers reach, in whatever
order their steps come, one caller reaches too, with the same results in the same order. -/
theorem oneByOne_of_reach {ok : Callers L σ ω π ρ → CallersAct τ ω ε → Prop} {shared : σ}
    (h : Reach (callersStep O) ok (Callers.start L shared) s) :
    ∃ u, Reach (serialStep O) (fun _ _ => True) (Serial.start shared) u ∧ OneByOne s u := by
  refine h.simulate ⟨L.sound_start, rfl, rfl, fun t op p => ?_, L.inside_start⟩
    (fun _ _ _ _ hrel _ hs => hrel.step hs)
  exact iff_of_false (fun heq => by cases heq) (fun heq => by cases heq)

end OneByOne

end CriticalSection
