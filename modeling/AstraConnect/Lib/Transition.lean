import Mathlib.Tactic

set_option autoImplicit false

/-! # Systems that take step after step

A system is a function `step : σ → α → Option σ`: what an action does to a state, or `none` when
the action cannot happen there. `Reach step ok init` are the states reached from `init` by
actions that `ok` allows in the state they are taken in; threads that interleave are actions of
one system. An invariant is proved by `Reach.invariant`, one step at a time; a measure bounds the
actions of a run (`countP_le_measure`); a simulation relates what two systems reach
(`Reach.simulate`).
-/

namespace Transition

variable {σ α : Type*} {step : σ → α → Option σ}

inductive Reach (step : σ → α → Option σ) (ok : σ → α → Prop) (init : σ) : σ → Prop
  | refl : Reach step ok init init
  | tail {s s' : σ} {a : α} (h : Reach step ok init s) (hok : ok s a) (hs : step s a = some s') :
      Reach step ok init s'

variable {ok : σ → α → Prop} {init s s' : σ}

/-- What holds initially and is kept by every allowed step holds of every state reached. -/
theorem Reach.invariant {I : σ → Prop} (h : Reach step ok init s) (h0 : I init)
    (hstep : ∀ s a s', I s → ok s a → step s a = some s' → I s') : I s := by
  induction h with
  | refl => exact h0
  | tail _ hok hs ih => exact hstep _ _ _ ih hok hs

/-- The states reached are reached too when more is allowed. -/
theorem Reach.mono {ok' : σ → α → Prop} (h : Reach step ok init s)
    (hle : ∀ s a, ok s a → ok' s a) : Reach step ok' init s := by
  induction h with
  | refl => exact .refl
  | tail _ hok hs ih => exact .tail ih (hle _ _ hok) hs

/-! ## Runs

`runFrom` takes a list of actions and is what a concrete run is evaluated with. A condition on the
steps of a run is met by each action in the state that it is taken in. -/

/-- A run that takes the given actions. -/
def runFrom (step : σ → α → Option σ) (s : σ) : List α → Option σ
  | [] => some s
  | a :: as => (step s a).bind (fun s' => runFrom step s' as)

theorem runFrom_append (as bs : List α) :
    runFrom step s (as ++ bs) = (runFrom step s as).bind (fun s' => runFrom step s' bs) := by
  induction as generalizing s with
  | nil => rfl
  | cons a as ih =>
      rw [List.cons_append, runFrom, runFrom, Option.bind_assoc]
      congr 1
      funext s'
      exact ih

/-- Every action that a run comes to is allowed in the state it is taken in. -/
def EachStep (step : σ → α → Option σ) (ok : σ → α → Prop) (s : σ) (as : List α) : Prop :=
  ∀ before a after s', as = before ++ a :: after → runFrom step s before = some s' → ok s' a

theorem EachStep.prefix_of {as bs : List α} (h : EachStep step ok s (as ++ bs)) :
    EachStep step ok s as := by
  intro before a after s' heq hrun
  exact h before a (after ++ bs) s' (by rw [heq, List.append_assoc, List.cons_append]) hrun

/-- What allowed steps keep holds at the end of a run of such steps. -/
theorem EachStep.invariant {I : σ → Prop} {as : List α} (h : EachStep step ok s as) (h0 : I s)
    (hstep : ∀ s a s', I s → ok s a → step s a = some s' → I s')
    (hrun : runFrom step s as = some s') : I s' := by
  induction as generalizing s with
  | nil =>
      obtain rfl := Option.some.inj hrun
      exact h0
  | cons a as ih =>
      rw [runFrom, Option.bind_eq_some_iff] at hrun
      obtain ⟨t, ht, hrest⟩ := hrun
      refine ih ?_ (hstep s a t h0 (h [] a as s rfl rfl) ht) hrest
      intro before b after s₁ heq hbefore
      refine h (a :: before) b after s₁ (by rw [heq, List.cons_append]) ?_
      rw [runFrom, ht]
      exact hbefore

/-- Two conditions that agree wherever an invariant holds allow the same runs, when steps that meet
them keep the invariant. -/
theorem EachStep.congr {I : σ → Prop} {ok' : σ → α → Prop} {as : List α} (h0 : I s)
    (hiff : ∀ s a, I s → (ok s a ↔ ok' s a))
    (hstep : ∀ s a s', I s → ok s a → step s a = some s' → I s') :
    EachStep step ok s as ↔ EachStep step ok' s as := by
  have hstep' : ∀ s a s', I s → ok' s a → step s a = some s' → I s' := fun s a s' hI hok =>
    hstep s a s' hI ((hiff s a hI).mpr hok)
  constructor
  · intro h before a after s' heq hrun
    have hbefore : EachStep step ok s before := (heq ▸ h).prefix_of
    exact (hiff s' a (hbefore.invariant h0 hstep hrun)).mp (h before a after s' heq hrun)
  · intro h before a after s' heq hrun
    have hbefore : EachStep step ok' s before := (heq ▸ h).prefix_of
    exact (hiff s' a (hbefore.invariant h0 hstep' hrun)).mpr (h before a after s' heq hrun)

/-- The states a run goes through, the first one included. -/
def statesFrom (step : σ → α → Option σ) (s : σ) : List α → List σ
  | [] => [s]
  | a :: as => s :: (step s a).elim [] (fun s' => statesFrom step s' as)

theorem mem_statesFrom_self (as : List α) : s ∈ statesFrom step s as := by
  cases as <;> exact List.mem_cons_self ..

/-! ## From runs to reachable states

The end of a run is reached when its actions are allowed: by a test that is evaluated along the run,
in every state, or because everything is. -/

/-- A run of which every action passes a test reaches its end. -/
theorem Reach.of_runFrom {test : σ → α → Bool} (htest : ∀ s a, test s a = true → ok s a)
    {as : List α} (h : Reach step ok init s)
    (hrun : runFrom (fun s a => if test s a then step s a else none) s as = some s') :
    Reach step ok init s' := by
  induction as generalizing s with
  | nil =>
      obtain rfl := Option.some.inj hrun
      exact h
  | cons a as ih =>
      rw [runFrom, Option.bind_eq_some_iff] at hrun
      obtain ⟨t, ht, hrest⟩ := hrun
      split at ht
      · rename_i hpass
        exact ih (h.tail (htest s a hpass) ht) hrest
      · cases ht

/-- A run of a system in which everything is allowed. -/
theorem Reach.of_run {as : List α} (h : Reach step (fun _ _ => True) init s)
    (hrun : runFrom step s as = some s') : Reach step (fun _ _ => True) init s' := by
  have htrue : (fun (s : σ) (a : α) => if (fun _ _ => true : σ → α → Bool) s a then step s a
      else none) = step := rfl
  rw [← htrue] at hrun
  exact h.of_runFrom (fun _ _ _ => trivial) hrun

/-- A run of actions that are allowed in every state. -/
theorem Reach.of_allowed {as : List α} (h : Reach step ok init s) (hok : ∀ a ∈ as, ∀ s, ok s a)
    (hrun : runFrom step s as = some s') : Reach step ok init s' := by
  induction as generalizing s with
  | nil =>
      obtain rfl := Option.some.inj hrun
      exact h
  | cons a as ih =>
      rw [runFrom, Option.bind_eq_some_iff] at hrun
      obtain ⟨t, ht, hrest⟩ := hrun
      refine ih (h.tail (hok a List.mem_cons_self s) ht) ?_ hrest
      exact fun b hb => hok b (List.mem_cons_of_mem a hb)

/-! ## Logs and measures

What every step adds to a log, the run adds. When counted actions lower a measure of the state and
the others raise it by a bound at most, the run counts no more than the measure allows. -/

/-- A log to which every step adds what its action stands for holds that of the whole run. -/
theorem runFrom_log {β : Type*} (I : σ → Prop) (log : σ → List β) (emits : α → List β)
    (hstep : ∀ s a s', I s → step s a = some s' → I s' ∧ log s' = log s ++ emits a)
    {as : List α} (h0 : I s) (hrun : runFrom step s as = some s') :
    log s' = log s ++ as.flatMap emits := by
  induction as generalizing s with
  | nil =>
      obtain rfl := Option.some.inj hrun
      rw [List.flatMap_nil, List.append_nil]
  | cons a as ih =>
      rw [runFrom, Option.bind_eq_some_iff] at hrun
      obtain ⟨t, ht, hrest⟩ := hrun
      obtain ⟨hI, hlog⟩ := hstep s a t h0 ht
      calc log s' = log t ++ as.flatMap emits := ih hI hrest
        _ = log s ++ (emits a ++ as.flatMap emits) := by rw [hlog, List.append_assoc]
        _ = log s ++ (a :: as).flatMap emits := by rw [List.flatMap_cons]

section Measure

variable {I : σ → Prop} {measure : σ → Nat} {counted raises : α → Bool} {k : Nat} {as : List α}

theorem countP_le_measure (hI : ∀ s a s', I s → step s a = some s' → I s')
    (hmeasure : ∀ s a s', I s → step s a = some s' →
      measure s' + (if counted a then 1 else 0) ≤ measure s + if raises a then k else 0)
    (h : I s) (hrun : runFrom step s as = some s') :
    as.countP counted + measure s' ≤ measure s + k * as.countP raises := by
  induction as generalizing s with
  | nil =>
      obtain rfl := Option.some.inj hrun
      simp
  | cons a as ih =>
      rw [runFrom, Option.bind_eq_some_iff] at hrun
      obtain ⟨u, hu, hrest⟩ := hrun
      have hstep := hmeasure s a u h hu
      have hle := ih (hI s a u h hu) hrest
      rw [List.countP_cons, List.countP_cons, Nat.mul_add, mul_ite, Nat.mul_one, Nat.mul_zero]
      omega

/-- Where nothing raises it, the measure is the bound. -/
theorem countP_le_measure_of_lowers (hI : ∀ s a s', I s → step s a = some s' → I s')
    (hmeasure : ∀ s a s', I s → step s a = some s' →
      measure s' + (if counted a then 1 else 0) ≤ measure s)
    (h : I s) (hrun : runFrom step s as = some s') :
    as.countP counted + measure s' ≤ measure s := by
  have hle : as.countP counted + measure s' ≤ measure s + 0 * as.countP (fun _ => false) :=
    countP_le_measure hI hmeasure h hrun
  rwa [Nat.zero_mul] at hle

end Measure

/-! ## One system that follows another

A relation between the states of two systems is a simulation when every step of the first that is
allowed is matched by a step of the second or by none. Every state that the first system reaches is
then related to one that the second reaches. -/

section Simulation

variable {σ' α' : Type*} {step' : σ' → α' → Option σ'} {ok' : σ' → α' → Prop} {init' : σ'}

/-- What the second system does for a step of the first that leads to `s'`. -/
inductive Matched (Rel : σ → σ' → Prop) (step' : σ' → α' → Option σ') (ok' : σ' → α' → Prop)
    (u : σ') (s' : σ) : Prop
  | stutter (h : Rel s' u)
  | step {b : α'} {u' : σ'} (hok : ok' u b) (hs : step' u b = some u') (h : Rel s' u')

theorem Reach.simulate {Rel : σ → σ' → Prop} {s : σ} (h : Reach step ok init s)
    (h0 : Rel init init')
    (hstep : ∀ s a s' u, Rel s u → ok s a → step s a = some s' → Matched Rel step' ok' u s') :
    ∃ u, Reach step' ok' init' u ∧ Rel s u := by
  induction h with
  | refl => exact ⟨init', .refl, h0⟩
  | tail _ hok hs ih =>
      obtain ⟨u, hu, hrel⟩ := ih
      cases hstep _ _ _ u hrel hok hs with
      | stutter hrel' => exact ⟨u, hu, hrel'⟩
      | step hok' hs' hrel' => exact ⟨_, hu.tail hok' hs', hrel'⟩

end Simulation

end Transition
