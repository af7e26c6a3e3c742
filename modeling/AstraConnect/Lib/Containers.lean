import Mathlib.Tactic
import Mathlib.Data.List.Sort
import Mathlib.Data.List.TakeWhile

set_option autoImplicit false

/-! # Tables of pointers and sequences kept sorted

* `occupied w n` lists the pointers in the cells `0 … n-1` of a table. Filling an empty cell and
  clearing a full one add and remove one pointer.
* `lowerBound key l x` is the position `std::lower_bound` returns on a sequence sorted by `key`:
  before it the keys are smaller than `x`, from it on they are not. Inserting and erasing there
  keeps the sequence sorted.
-/

namespace Containers

/-! ## Tables

A table is a function from cells to pointers that may be null. The list of its pointers changes by
one element when one cell does, up to the order. -/

section occupied

variable {α : Type*}

/-- The pointers in the first `n` cells of the table `w`, in the order of the cells. -/
def occupied (w : Nat → Option α) (n : Nat) : List α := (List.range n).filterMap w

theorem mem_occupied {w : Nat → Option α} {n : Nat} {a : α} :
    a ∈ occupied w n ↔ ∃ i, i < n ∧ w i = some a := by
  simp [occupied, List.mem_filterMap]

theorem occupied_succ (w : Nat → Option α) (n : Nat) :
    occupied w (n + 1) = occupied w n ++ (w n).toList := by
  rw [occupied, List.range_succ, List.filterMap_append, ← occupied]
  cases h : w n <;> simp [h]

@[simp] theorem occupied_none (n : Nat) : occupied (fun _ => (none : Option α)) n = [] := by
  simp [occupied]

theorem length_occupied (w : Nat → Option α) (n : Nat) :
    (occupied w n).length = ((List.range n).filter (fun i => (w i).isSome)).length := by
  rw [occupied, List.length_filterMap_eq_countP, List.countP_eq_length_filter]

theorem occupied_congr {w w' : Nat → Option α} {n : Nat} (h : ∀ i < n, w i = w' i) :
    occupied w n = occupied w' n :=
  List.filterMap_congr (fun i hi => h i (List.mem_range.mp hi))

/-- Filling the empty cell `i`. -/
theorem occupied_update_some {w : Nat → Option α} {n i : Nat} (a : α) (hi : i < n)
    (hw : w i = none) : (occupied (Function.update w i (some a)) n).Perm (a :: occupied w n) := by
  induction n with
  | zero => omega
  | succ n ih =>
      rw [occupied_succ, occupied_succ]
      by_cases he : i = n
      · subst he
        rw [occupied_congr (fun j hj => Function.update_of_ne (Nat.ne_of_lt hj) _ _), hw,
          Function.update_self]
        simp
      · rw [Function.update_of_ne (fun h => he h.symm)]
        exact (ih (by omega)).append_right _

/-- Clearing the cell `i`. -/
theorem occupied_update_none {w : Nat → Option α} {n i : Nat} {a : α} (hi : i < n)
    (hw : w i = some a) : (occupied w n).Perm (a :: occupied (Function.update w i none) n) := by
  have h := occupied_update_some (w := Function.update w i none) a hi (Function.update_self _ _ _)
  rwa [Function.update_idem, ← hw, Function.update_eq_self] at h

end occupied

/-! ## Sorted sequences

The keys are in any linear order. Everything about an insertion or an erasure follows from what is
in front of the lower bound and what is behind it. -/

section lowerBound

variable {α κ : Type*} [LinearOrder κ]

/-- The first position whose key is not below `x`. -/
def lowerBound (key : α → κ) (l : List α) (x : κ) : Nat := l.findIdx (fun a => !decide (key a < x))

/-- Strictly increasing keys. -/
def SortedBy (key : α → κ) (l : List α) : Prop := l.Pairwise (fun a b => key a < key b)

variable {key : α → κ} {l : List α}

theorem lowerBound_le_length (key : α → κ) (l : List α) (x : κ) :
    lowerBound key l x ≤ l.length := List.findIdx_le_length

theorem lt_of_mem_take {x : κ} {a : α} (h : a ∈ l.take (lowerBound key l x)) : key a < x := by
  have hw : l.take (lowerBound key l x) = l.takeWhile (fun a => decide (key a < x)) :=
    List.takeWhile_eq_take_findIdx_not.symm
  rw [hw] at h
  simpa using List.mem_takeWhile_imp h

theorem SortedBy.le_of_mem_drop (hs : SortedBy key l) {x : κ} {a : α}
    (h : a ∈ l.drop (lowerBound key l x)) : x ≤ key a := by
  have hw : l.drop (lowerBound key l x) = l.dropWhile (fun a => decide (key a < x)) :=
    List.dropWhile_eq_drop_findIdx_not.symm
  have hsub : SortedBy key (l.drop (lowerBound key l x)) :=
    List.Pairwise.sublist (List.drop_sublist _ _) hs
  rw [hw] at h hsub
  -- the first key that is left is not below `x`, and the others are above it
  cases hd : l.dropWhile (fun a => decide (key a < x)) with
  | nil => rw [hd] at h; cases h
  | cons b m =>
      have hb : x ≤ key b := by
        have := List.head_dropWhile_not (fun a => decide (key a < x)) (l := l) (by rw [hd]; simp)
        simpa [hd] using this
      rw [hd] at h hsub
      rcases List.mem_cons.mp h with rfl | hm
      · exact hb
      · exact hb.trans (le_of_lt ((List.pairwise_cons.mp hsub).1 a hm))

/-- Two positions of one sequence are ordered as what is looked up. -/
theorem SortedBy.lowerBound_mono (hs : SortedBy key l) {x y : κ} (h : x ≤ y) :
    lowerBound key l x ≤ lowerBound key l y := by
  by_contra hlt
  have hlt : lowerBound key l y < lowerBound key l x := by omega
  have hlen : lowerBound key l y < l.length := lt_of_lt_of_le hlt (lowerBound_le_length _ _ _)
  have h1 : key l[lowerBound key l y] < x :=
    lt_of_mem_take (List.mem_take_iff_getElem.mpr ⟨_, by omega, rfl⟩)
  have h2 : y ≤ key l[lowerBound key l y] :=
    hs.le_of_mem_drop (List.mem_drop_iff_getElem.mpr ⟨0, by simpa using hlen, by simp⟩)
  exact absurd (lt_of_lt_of_le h1 h) (not_lt.mpr h2)

/-- The element at the lower bound of `x` has the key `x` exactly when some element has. -/
theorem SortedBy.getElem?_lowerBound (hs : SortedBy key l) {x : κ} {a : α} :
    (l[lowerBound key l x]? = some a ∧ key a = x) ↔ (a ∈ l ∧ key a = x) := by
  constructor
  · rintro ⟨h, rfl⟩
    exact ⟨List.mem_of_getElem? h, rfl⟩
  · rintro ⟨h, rfl⟩
    refine ⟨?_, rfl⟩
    have hdrop : a ∈ l.drop (lowerBound key l (key a)) := by
      rw [← List.take_append_drop (lowerBound key l (key a)) l] at h
      rcases List.mem_append.mp h with h | h
      · exact absurd (lt_of_mem_take h) (lt_irrefl _)
      · exact h
    -- nothing before `a` is left, since its key would be below and not below `key a`
    cases hd : l.drop (lowerBound key l (key a)) with
    | nil => rw [hd] at hdrop; cases hdrop
    | cons b m =>
        have hb : key a ≤ key b := hs.le_of_mem_drop (by rw [hd]; simp)
        have hsub : SortedBy key (b :: m) := hd ▸ List.Pairwise.sublist (List.drop_sublist _ _) hs
        rw [hd] at hdrop
        rcases List.mem_cons.mp hdrop with rfl | hm
        · rw [← List.head?_drop, hd]
          rfl
        · exact absurd ((List.pairwise_cons.mp hsub).1 a hm) (not_lt.mpr hb)

theorem insertIdx_eq_take_cons_drop {i : Nat} {a : α} (h : i ≤ l.length) :
    l.insertIdx i a = l.take i ++ a :: l.drop i := by
  induction i generalizing l with
  | zero => simp
  | succ i ih =>
      cases l with
      | nil => simp at h
      | cons b l =>
          rw [List.insertIdx_succ_cons, ih (by simpa using h)]
          rfl

/-- Inserting a new key at its lower bound keeps the order. -/
theorem SortedBy.insertIdx (hs : SortedBy key l) {a : α} (hnew : ∀ b ∈ l, key b ≠ key a) :
    SortedBy key (l.insertIdx (lowerBound key l (key a)) a) := by
  rw [insertIdx_eq_take_cons_drop (lowerBound_le_length key l (key a)), SortedBy,
    List.pairwise_append]
  refine ⟨List.Pairwise.sublist (List.take_sublist _ _) hs, List.pairwise_cons.mpr ⟨?_, ?_⟩, ?_⟩
  · intro b hb
    exact lt_of_le_of_ne (hs.le_of_mem_drop hb) (hnew b (List.mem_of_mem_drop hb)).symm
  · exact List.Pairwise.sublist (List.drop_sublist _ _) hs
  · intro b hb c hc
    have hba := lt_of_mem_take hb
    rcases List.mem_cons.mp hc with rfl | hc
    · exact hba
    · exact lt_of_lt_of_le hba (hs.le_of_mem_drop hc)

/-- Erasing the element with a given key, and nothing else. -/
theorem SortedBy.perm_eraseIdx (hs : SortedBy key l) {a : α} (ha : a ∈ l) :
    l.Perm (a :: l.eraseIdx (lowerBound key l (key a))) := by
  have h := ((hs.getElem?_lowerBound (x := key a)).mpr ⟨ha, rfl⟩).1
  obtain ⟨hlt, hget⟩ := List.getElem?_eq_some_iff.mp h
  have hp := List.getElem_cons_eraseIdx_perm hlt
  rw [hget] at hp
  exact hp.symm

theorem SortedBy.eraseIdx (hs : SortedBy key l) (i : Nat) : SortedBy key (l.eraseIdx i) :=
  List.Pairwise.sublist (List.eraseIdx_sublist _ _) hs

end lowerBound

end Containers
