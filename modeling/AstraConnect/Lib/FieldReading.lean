import Mathlib.Tactic

set_option autoImplicit false

/-! # Reading fields one after the other into variables that stay

An object is read into members. A strict read throws when the field has no value. A lenient one
leaves the member as it was, and a read through a scratch variable converts whatever the variable
holds when the field has no text. The members and the scratch variables may be used for one object
after the other.

After a read that returns, each member has the value of its own field if and only if every field
that can be missed was given (`readAll_own_iff`, and `readEach_own_iff` for all objects of a list).
-/

namespace FieldReading

variable {ω μ σ τ ν : Type*}

/-- How a field of an object in `ω` becomes the value of a member. -/
inductive Reader (ω σ τ ν : Type*) where
  | strict (decode : ω → Option ν)
  | lenient (decode : ω → Option ν)
  | through (scratch : σ) (text : ω → Option τ) (convert : τ → Option ν)

namespace Reader

/-- The value of the field itself. -/
def own : Reader ω σ τ ν → ω → Option ν
  | strict decode, o => decode o
  | lenient decode, o => decode o
  | through _ text convert, o => (text o).bind convert

/-- The read takes something from the object, or throws. -/
def Given : Reader ω σ τ ν → ω → Prop
  | strict _, _ => True
  | lenient decode, o => (decode o).isSome
  | through _ text _, o => (text o).isSome

theorem own_of_not_given {r : Reader ω σ τ ν} {o : ω} (h : ¬ r.Given o) : r.own o = none := by
  cases r with
  | strict decode => exact absurd trivial h
  | lenient decode =>
      rw [own]
      simpa [Given] using h
  | through scratch text convert =>
      have hnone : text o = none := by simpa [Given] using h
      rw [own, hnone, Option.bind_none]

end Reader

section Own

variable {reads : List (μ × Reader ω σ τ ν)} {o : ω}

/-- Every member that is read has the value of its own field, and there is one. -/
def Own (reads : List (μ × Reader ω σ τ ν)) (o : ω) (members : μ → Option ν) : Prop :=
  ∀ p ∈ reads, (p.2.own o).isSome ∧ members p.1 = p.2.own o

/-- No read can be missed. -/
def AllGiven (reads : List (μ × Reader ω σ τ ν)) (o : ω) : Prop := ∀ p ∈ reads, p.2.Given o

end Own

/-- The members, of which some have no value yet, and the scratch variables. -/
structure State (μ σ τ ν : Type*) where
  members : μ → Option ν
  scratch : σ → τ

variable [DecidableEq μ]

namespace State

def set (s : State μ σ τ ν) (m : μ) (v : ν) : State μ σ τ ν :=
  { s with members := Function.update s.members m (some v) }

@[simp] theorem set_self (s : State μ σ τ ν) (m : μ) (v : ν) : (s.set m v).members m = some v :=
  Function.update_self ..

@[simp] theorem set_of_ne (s : State μ σ τ ν) {m m' : μ} (h : m' ≠ m) (v : ν) :
    (s.set m v).members m' = s.members m' := Function.update_of_ne h ..

end State

variable [DecidableEq σ] {s s' : State μ σ τ ν} {m : μ} {r : Reader ω σ τ ν} {o : ω}
  {reads : List (μ × Reader ω σ τ ν)}

/-- One read; `none` when it throws. -/
def read (m : μ) (r : Reader ω σ τ ν) (o : ω) (s : State μ σ τ ν) : Option (State μ σ τ ν) :=
  match r with
  | .strict decode => (decode o).map (s.set m)
  | .lenient decode => some ((decode o).elim s (s.set m))
  | .through scratch text convert =>
      let t := (text o).getD (s.scratch scratch)
      (convert t).map (fun v => { s with scratch := Function.update s.scratch scratch t }.set m v)

theorem read_frame (h : read m r o s = some s') {m' : μ} (hne : m' ≠ m) :
    s'.members m' = s.members m' := by
  cases r with
  | strict decode =>
      obtain ⟨v, -, rfl⟩ := Option.map_eq_some_iff.mp h
      exact s.set_of_ne hne v
  | lenient decode =>
      obtain rfl := Option.some.inj h
      cases decode o with
      | none => rfl
      | some v => exact s.set_of_ne hne v
  | through scratch text convert =>
      obtain ⟨v, -, rfl⟩ := Option.map_eq_some_iff.mp h
      exact State.set_of_ne _ hne v

theorem read_own (h : read m r o s = some s') (hgiven : r.Given o) :
    (r.own o).isSome ∧ s'.members m = r.own o := by
  cases r with
  | strict decode =>
      obtain ⟨v, hv, rfl⟩ := Option.map_eq_some_iff.mp h
      rw [Reader.own, hv]
      exact ⟨rfl, s.set_self m v⟩
  | lenient decode =>
      obtain rfl := Option.some.inj h
      obtain ⟨v, hv⟩ := Option.isSome_iff_exists.mp hgiven
      rw [Reader.own, hv]
      exact ⟨rfl, s.set_self m v⟩
  | through scratch text convert =>
      obtain ⟨v, hv, rfl⟩ := Option.map_eq_some_iff.mp h
      obtain ⟨t, ht⟩ := Option.isSome_iff_exists.mp hgiven
      rw [ht, Option.getD_some] at hv
      rw [Reader.own, ht, Option.bind_some, hv]
      exact ⟨rfl, State.set_self _ m v⟩

/-- The reads one after the other. -/
def readAll (o : ω) : List (μ × Reader ω σ τ ν) → State μ σ τ ν → Option (State μ σ τ ν)
  | [], s => some s
  | p :: rest, s => (read p.1 p.2 o s).bind (readAll o rest)

theorem readAll_frame (h : readAll o reads s = some s') (hm : m ∉ reads.map Prod.fst) :
    s'.members m = s.members m := by
  induction reads generalizing s with
  | nil =>
      obtain rfl := Option.some.inj h
      rfl
  | cons p rest ih =>
      obtain ⟨t, ht, hrest⟩ := Option.bind_eq_some_iff.mp h
      rw [List.map_cons, List.mem_cons, not_or] at hm
      calc s'.members m = t.members m := ih hrest hm.2
        _ = s.members m := read_frame ht hm.1

/-- **The members are the object's own exactly when nothing was missed.** -/
theorem readAll_own_iff (hnodup : (reads.map Prod.fst).Nodup) (h : readAll o reads s = some s') :
    Own reads o s'.members ↔ AllGiven reads o := by
  constructor
  · intro hown p hp
    by_contra hgiven
    have hsome := (hown p hp).1
    rw [Reader.own_of_not_given hgiven] at hsome
    cases hsome
  · -- a member is read once, so what its read has left stays
    intro hgiven
    induction reads generalizing s with
    | nil =>
        intro p hp
        cases hp
    | cons p rest ih =>
        obtain ⟨t, ht, hrest⟩ := Option.bind_eq_some_iff.mp h
        rw [List.map_cons, List.nodup_cons] at hnodup
        intro q hq
        rcases List.mem_cons.mp hq with rfl | hq
        · rw [readAll_frame hrest hnodup.1]
          exact read_own ht (hgiven q (List.mem_cons_self ..))
        · exact ih hnodup.2 hrest (fun q hq => hgiven q (List.mem_cons_of_mem _ hq)) q hq

/-! ## A list of objects

The same members and scratch variables are used for one object after the other. What is missed in
one object is then the value of an earlier one. -/

/-- `for(auto object : objects) { …; rows.push_back(members); }` -/
def readEach (reads : List (μ × Reader ω σ τ ν)) :
    List ω → State μ σ τ ν → Option (List (μ → Option ν))
  | [], _ => some []
  | o :: rest, s => (readAll o reads s).bind fun s =>
      (readEach reads rest s).map (fun rows => s.members :: rows)

variable {objects : List ω} {rows : List (μ → Option ν)}

theorem readEach_cons {rest : List ω} (h : readEach reads (o :: rest) s = some rows) :
    ∃ t tail, readAll o reads s = some t ∧ readEach reads rest t = some tail ∧
      rows = t.members :: tail := by
  obtain ⟨t, ht, h⟩ := Option.bind_eq_some_iff.mp h
  obtain ⟨tail, htail, rfl⟩ := Option.map_eq_some_iff.mp h
  exact ⟨t, tail, ht, htail, rfl⟩

/-- **Each row is its own object's exactly when nothing was missed in any object.** -/
theorem readEach_own_iff (hnodup : (reads.map Prod.fst).Nodup)
    (h : readEach reads objects s = some rows) :
    List.Forall₂ (Own reads) objects rows ↔ ∀ o ∈ objects, AllGiven reads o := by
  induction objects generalizing s rows with
  | nil =>
      obtain rfl := Option.some.inj h
      exact iff_of_true .nil (fun o ho => by cases ho)
  | cons o rest ih =>
      obtain ⟨t, tail, ht, htail, rfl⟩ := readEach_cons h
      rw [List.forall₂_cons, List.forall_mem_cons, readAll_own_iff hnodup ht, ih htail]

/-! ## A key that stays -/

section Keyed

variable {κ : Type*} {key : ω → Option κ}

/-- Each object with the key it is taken to have: an object without a key leaves the variable with
that of the object before. -/
def keyed (key : ω → Option κ) : κ → List ω → List (κ × ω)
  | _, [] => []
  | k, o :: rest => ((key o).getD k, o) :: keyed key ((key o).getD k) rest

/-- The last object that is taken to have the key. -/
def lastKeyed [DecidableEq κ] (k : κ) : List (κ × ω) → Option ω
  | [] => none
  | p :: rest => (lastKeyed k rest).or (if p.1 = k then some p.2 else none)

end Keyed

end FieldReading
