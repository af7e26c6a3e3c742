import Mathlib.Tactic

set_option autoImplicit false

/-! # First come, first served

Values are offered and customers ask for them, and the first value goes to the first customer, the
second to the second, and so on (`served`). The place of a value or of a customer in its line is
its *ticket*. As long as more was offered than asked for, what is left is a queue of values
(`items`); as long as more was asked for, a queue of customers (`waiting`).

A log of deliveries is *faithful* when every entry is served and no ticket is delivered twice.
-/

structure HandOver (κ A : Type*) where
  offered : List A
  asked : List κ

namespace HandOver

variable {κ A : Type*}

/-- The values that nobody has asked for yet, the oldest first. -/
def items (q : HandOver κ A) : List A := q.offered.drop q.asked.length

/-- The customers for whom there is no value yet, the first in line first. -/
def waiting (q : HandOver κ A) : List κ := q.asked.drop q.offered.length

/-- Who gets what, by ticket. -/
def served (q : HandOver κ A) : List (κ × A) := q.asked.zip q.offered

def offer (q : HandOver κ A) (v : A) : HandOver κ A := { q with offered := q.offered ++ [v] }

def ask (q : HandOver κ A) (c : κ) : HandOver κ A := { q with asked := q.asked ++ [c] }

variable {q : HandOver κ A}

theorem waiting_eq_nil_iff : q.waiting = [] ↔ q.asked.length ≤ q.offered.length := by
  rw [waiting, List.drop_eq_nil_iff]

theorem length_items : q.items.length = q.offered.length - q.asked.length := by
  rw [items, List.length_drop]

/-- A value for which nobody waits goes to the end of the queue. -/
theorem items_offer (h : q.waiting = []) (v : A) : (q.offer v).items = q.items ++ [v] := by
  rw [waiting_eq_nil_iff] at h
  exact List.drop_append_of_le_length h

/-- A customer takes the front of the queue. -/
theorem items_ask (c : κ) : (q.ask c).items = q.items.tail := by
  show List.drop (q.asked ++ [c]).length q.offered = _
  rw [items, List.tail_drop, List.length_append, List.length_singleton]

theorem head?_items : q.items.head? = q.offered[q.asked.length]? := by
  rw [items, List.head?_drop]

theorem getElem?_served {t : Nat} {c : κ} {v : A} :
    q.served[t]? = some (c, v) ↔ q.asked[t]? = some c ∧ q.offered[t]? = some v := by
  rw [served, List.getElem?_zip_eq_some]

/-! ## Deliveries

The deliveries may come in any order of the tickets. Being faithful is kept by an offer, by a
customer who asks, and by a delivery that is due and not in the log yet. -/

/-- A delivery: its ticket, the customer and the value. -/
structure Delivery (κ A : Type*) where
  ticket : Nat
  customer : κ
  value : A
  deriving DecidableEq, Repr

/-- **Each delivery hands the right value to the right customer, and none is made twice.** -/
structure Faithful (q : HandOver κ A) (log : List (Delivery κ A)) : Prop where
  served : ∀ d ∈ log, q.served[d.ticket]? = some (d.customer, d.value)
  nodup : (log.map Delivery.ticket).Nodup

variable {log : List (Delivery κ A)}

theorem Faithful.nil : q.Faithful [] where
  served _ hd := absurd hd List.not_mem_nil
  nodup := List.nodup_nil

theorem getElem?_concat_of_some {α : Type*} {l : List α} {i : Nat} {a : α} (h : l[i]? = some a)
    (b : α) : (l ++ [b])[i]? = some a :=
  (List.getElem?_append_left (List.getElem?_eq_some_iff.mp h).1).trans h

theorem Faithful.offer (h : q.Faithful log) (v : A) : (q.offer v).Faithful log := by
  refine ⟨fun d hd => ?_, h.nodup⟩
  obtain ⟨hasked, hoffered⟩ := getElem?_served.mp (h.served d hd)
  exact getElem?_served.mpr ⟨hasked, getElem?_concat_of_some hoffered v⟩

theorem Faithful.ask (h : q.Faithful log) (c : κ) : (q.ask c).Faithful log := by
  refine ⟨fun d hd => ?_, h.nodup⟩
  obtain ⟨hasked, hoffered⟩ := getElem?_served.mp (h.served d hd)
  exact getElem?_served.mpr ⟨getElem?_concat_of_some hasked c, hoffered⟩

theorem Faithful.concat (h : q.Faithful log) {d : Delivery κ A}
    (hserved : q.served[d.ticket]? = some (d.customer, d.value))
    (hnew : d.ticket ∉ log.map Delivery.ticket) : q.Faithful (log ++ [d]) := by
  constructor
  · intro e he
    rcases List.mem_append.mp he with he | he
    · exact h.served e he
    · obtain rfl := List.mem_singleton.mp he
      exact hserved
  · rw [List.map_append, List.nodup_append]
    refine ⟨h.nodup, List.nodup_singleton _, ?_⟩
    rintro a ha b hb rfl
    obtain rfl := List.mem_singleton.mp hb
    exact hnew ha

theorem filterMap_range_getElem? (l : List A) :
    (List.range l.length).filterMap (fun t => l[t]?) = l := by
  have hmap : (List.range l.length).map (fun t => l[t]?) = l.map some := by
    apply List.ext_getElem (by simp)
    intro i hi _
    simp
  calc (List.range l.length).filterMap (fun t => l[t]?)
      = ((List.range l.length).map (fun t => l[t]?)).filterMap id := by
        rw [List.filterMap_map]
        rfl
    _ = l := by rw [hmap, List.filterMap_map, Function.id_comp, List.filterMap_some]

theorem Faithful.tickets (h : q.Faithful log) :
    (log.map Delivery.ticket).Subperm (List.range q.offered.length) := by
  apply List.subperm_of_subset h.nodup
  intro t ht
  obtain ⟨d, hd, rfl⟩ := List.mem_map.mp ht
  have hoffered := (getElem?_served.mp (h.served d hd)).2
  exact List.mem_range.mpr (List.getElem?_eq_some_iff.mp hoffered).1

/-- No more is delivered than was asked for. -/
theorem Faithful.length_le (h : q.Faithful log) : log.length ≤ q.asked.length := by
  have hsub : (log.map Delivery.ticket).Subperm (List.range q.asked.length) := by
    apply List.subperm_of_subset h.nodup
    intro t ht
    obtain ⟨d, hd, rfl⟩ := List.mem_map.mp ht
    have hasked := (getElem?_served.mp (h.served d hd)).1
    exact List.mem_range.mpr (List.getElem?_eq_some_iff.mp hasked).1
  have hle := hsub.length_le
  rwa [List.length_map, List.length_range] at hle

/-- When every value was delivered, as many were as were offered. -/
theorem Faithful.length_eq (h : q.Faithful log)
    (hall : ∀ t < q.offered.length, t ∈ log.map Delivery.ticket) :
    log.length = q.offered.length := by
  have hle := h.tickets.length_le
  have hge : (List.range q.offered.length).Subperm (log.map Delivery.ticket) :=
    List.subperm_of_subset List.nodup_range (fun t ht => hall t (List.mem_range.mp ht))
  have hge := hge.length_le
  rw [List.length_map, List.length_range] at hle hge
  omega

theorem Faithful.values (h : q.Faithful log) :
    (log.map Delivery.ticket).filterMap (fun t => q.offered[t]?) = log.map Delivery.value := by
  rw [List.filterMap_map, ← List.filterMap_eq_map]
  apply List.filterMap_congr
  intro d hd
  exact (getElem?_served.mp (h.served d hd)).2

/-- What was delivered is some of what was offered. -/
theorem Faithful.subperm (h : q.Faithful log) :
    (log.map Delivery.value).Subperm q.offered := by
  obtain ⟨l, hperm, hsub⟩ := h.tickets
  refine ⟨l.filterMap (fun t => q.offered[t]?), ?_, ?_⟩
  · rw [← h.values]
    exact hperm.filterMap _
  · have h := hsub.filterMap (fun t => q.offered[t]?)
    rwa [filterMap_range_getElem?] at h

/-- What was delivered in the order of the tickets is in the order in which it was offered. -/
theorem Faithful.sublist (h : q.Faithful log)
    (hinc : log.Pairwise (fun d e => d.ticket < e.ticket)) :
    (log.map Delivery.value).Sublist q.offered := by
  have hle : (log.map Delivery.ticket).Pairwise (· ≤ ·) :=
    List.pairwise_map.mpr (hinc.imp Nat.le_of_lt)
  have hsub := List.sublist_of_subperm_of_pairwise h.tickets hle List.pairwise_le_range
  have hvalues := hsub.filterMap (fun t => q.offered[t]?)
  rwa [h.values, filterMap_range_getElem?] at hvalues

/-- Once every ticket was delivered, all that was asked for has been. -/
theorem Faithful.perm_take (h : q.Faithful log)
    (hall : ∀ t < q.asked.length, t ∈ log.map Delivery.ticket) :
    (log.map Delivery.value).Perm (q.offered.take q.asked.length) := by
  have hle : q.asked.length ≤ q.offered.length := by
    by_contra hgt
    obtain ⟨d, hd, hticket⟩ := List.mem_map.mp (hall q.offered.length (by omega))
    have hoffered := (getElem?_served.mp (h.served d hd)).2
    have := (List.getElem?_eq_some_iff.mp hoffered).1
    omega
  have hperm : (log.map Delivery.ticket).Perm (List.range q.asked.length) := by
    rw [List.perm_ext_iff_of_nodup h.nodup List.nodup_range]
    intro t
    rw [List.mem_range]
    refine ⟨fun ht => ?_, hall t⟩
    obtain ⟨d, hd, rfl⟩ := List.mem_map.mp ht
    have hasked := (getElem?_served.mp (h.served d hd)).1
    exact (List.getElem?_eq_some_iff.mp hasked).1
  have htake : (List.range q.asked.length).filterMap (fun t => q.offered[t]?)
      = q.offered.take q.asked.length := by
    have hlen : (q.offered.take q.asked.length).length = q.asked.length := by
      rw [List.length_take]
      omega
    rw [← filterMap_range_getElem? (q.offered.take q.asked.length), hlen]
    apply List.filterMap_congr
    intro t ht
    rw [List.getElem?_take_of_lt (List.mem_range.mp ht)]
  rw [← h.values, ← htake]
  exact hperm.filterMap _

theorem Faithful.sublist_log (h : q.Faithful log) {log' : List (Delivery κ A)}
    (hsub : log'.Sublist log) : q.Faithful log' where
  served d hd := h.served d (hsub.subset hd)
  nodup := h.nodup.sublist (hsub.map _)

end HandOver
