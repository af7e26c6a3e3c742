import AstraConnect.Lib.Transition
import AstraConnect.Order.OrderTracker

set_option autoImplicit false

/-! # Reading an order that others write (`OrderTracker` with its locks)

The tracker's map has a lock, and every `Order` in it has one of its own. `OrderAccess` takes the
second under the first and keeps only the second. Of the writers, `updateOrderResponse` takes both,
while `registerOrderSent`, `registerOrderResponse` and `removeOrderResponse` replace or erase the
entry under the map's lock alone. Any number of threads run these calls here, one lock operation or
section at a time, and none of them calls with an access open; an order is an address in a heap, so
that a replaced order is a different one.

An open access keeps its order and sees one response as long as no writer of the second kind meets
it, and it was not opened on an order that `registerResponse` had thrown on (`access_stable`).
-/

namespace AstraConnect.Order

open Transition

/-! ## Orders -/

/-- What building an order from a response `ρ` (its kind and its document) needs to know: whether
its status can be read, and how the constructor of `OrderResponsePtrWrapper` ends. -/
structure ResponseReader (ρ : Type) where
  hasStatus : ρ → Bool
  wrapper : ρ → Exec Unit

/-- The reader for the documents of the exchange. -/
def documentReader : ResponseReader (OrderTypeSent × JsonTree) where
  hasStatus r := (statusOf r.2).isSome
  wrapper r := orderResponsePtrWrapper r.1 r.2

/-- An `Order`: its fields are known by the response they were written from. `threw` is a history
variable, set while the last `registerResponse` has thrown. -/
structure SharedOrder (ρ : Type) where
  type : Option ρ
  status : Option ρ
  wrapper : Option ρ
  threw : Bool

/-- The fields that are read through an access; the getters read `wrapper`. -/
inductive Field where
  | type
  | status
  | wrapper
  deriving DecidableEq, Repr

namespace SharedOrder

variable {ρ : Type}

def get (o : SharedOrder ρ) : Field → Option ρ
  | .type => o.type
  | .status => o.status
  | .wrapper => o.wrapper

/-- All fields come from one response. -/
def Whole (o : SharedOrder ρ) (r : ρ) : Prop := ∀ f, o.get f = some r

/-- `Order(timestamp, …)`, which `registerOrderSent` makes. -/
def fresh : SharedOrder ρ := ⟨none, none, none, true⟩

/-- `Order(id, type, doc)`: the wrapper is built first, then the status is read. -/
def construct (R : ResponseReader ρ) (r : ρ) : Exec (SharedOrder ρ) := do
  R.wrapper r
  if R.hasStatus r then .ok ⟨some r, some r, some r, false⟩ else .error .throws

/-- `registerResponse`: the order as it leaves it; `none` when it does not return. -/
def registerResponse (R : ResponseReader ρ) (o : SharedOrder ρ) (r : ρ) :
    Option (SharedOrder ρ) :=
  let typed := { o with type := some r, threw := true }
  if R.hasStatus r then
    let stated := { typed with status := some r }
    match R.wrapper r with
    | .ok _ => some { stated with wrapper := some r, threw := false }
    | .error .throws => some stated
    | .error .waits => none
  else some typed

/-- An order that `registerResponse` has not thrown on is whole afterwards. -/
theorem whole_registerResponse {R : ResponseReader ρ} {o o' : SharedOrder ρ} {r : ρ}
    (h : o.registerResponse R r = some o') (hthrew : o'.threw = false) : o'.Whole r := by
  unfold registerResponse at h
  dsimp only at h
  split at h
  · split at h
    · obtain rfl := Option.some.inj h
      intro f
      cases f <;> rfl
    · obtain rfl := Option.some.inj h
      cases hthrew
    · cases h
  · obtain rfl := Option.some.inj h
    cases hthrew

theorem whole_construct {R : ResponseReader ρ} {o : SharedOrder ρ} {r : ρ}
    (h : construct R r = .ok o) : o.Whole r := by
  obtain ⟨_, -, h⟩ := bind_eq_ok_iff.mp h
  split at h
  · obtain rfl := Except.ok.inj h
    intro f
    cases f <;> rfl
  · cases h

end SharedOrder

/-! ## The threads

A call goes from lock to lock: it waits for the map's lock, does its section under it, waits for an
order's lock if it needs one, and gives back what it has. The places say what the thread holds. -/

inductive TrackerCall (ρ : Type) where
  | registerOrderSent (id : Str) (r : ρ)
  | registerOrderResponse (id : Str) (r : ρ)
  | updateOrderResponse (id : Str) (r : ρ)
  | removeOrderResponse (id : Str)
  /-- `OrderAccess access(tracker, id)` -/
  | access (id : Str)

/-- Where a thread is. -/
inductive Place (ρ : Type) where
  | idle
  /-- waiting for the map's lock -/
  | locking (call : TrackerCall ρ)
  /-- in the section under the map's lock -/
  | holding (call : TrackerCall ρ)
  /-- waiting for an order's lock, with the map's -/
  | lockingUpdate (id : Str) (r : ρ) (order : Nat)
  | lockingAccess (id : Str) (order : Nat)
  /-- with both locks -/
  | updating (id : Str) (r : ρ) (order : Nat)
  | opened (id : Str) (order : Nat)
  /-- the access is open; `reads` are the responses the fields read so far came from -/
  | reading (id : Str) (order : Nat) (reads : List (Option ρ))
  /-- about to give the map's lock back -/
  | releasing

namespace Place

variable {ρ : Type}

def holdsMap : Place ρ → Bool
  | .holding _ => true
  | .lockingUpdate _ _ _ => true
  | .lockingAccess _ _ => true
  | .updating _ _ _ => true
  | .opened _ _ => true
  | .releasing => true
  | _ => false

/-- The order whose lock the thread holds. -/
def holdsOrder : Place ρ → Option Nat
  | .updating _ _ order => some order
  | .opened _ order => some order
  | .reading _ order _ => some order
  | _ => none

/-- The entry of the map the thread relies on. -/
def entry : Place ρ → Option (Str × Nat)
  | .lockingUpdate id _ order => some (id, order)
  | .lockingAccess id order => some (id, order)
  | .updating id _ order => some (id, order)
  | .opened id order => some (id, order)
  | .reading id order _ => some (id, order)
  | _ => none

end Place

structure SharedTracker (ρ : Type) where
  lock : Option Nat
  map : Str → Option Nat
  /-- the heap; `none` is memory that is not, or no longer, an order -/
  orders : Nat → Option (SharedOrder ρ)
  orderLock : Nat → Option Nat
  /-- the next address -/
  next : Nat
  threads : Nat → Place ρ

namespace SharedTracker

variable {ρ : Type}

def moveTo (s : SharedTracker ρ) (t : Nat) (p : Place ρ) : SharedTracker ρ :=
  { s with threads := Function.update s.threads t p }

/-- The order an entry owns is destroyed with it. -/
def free (s : SharedTracker ρ) (id : Str) : SharedTracker ρ :=
  match s.map id with
  | none => s
  | some old => { s with orders := Function.update s.orders old none }

/-- `map[id] = std::make_unique<Order>(…)` -/
def set (s : SharedTracker ρ) (id : Str) (o : SharedOrder ρ) : SharedTracker ρ :=
  let freed := s.free id
  { freed with
    map := Function.update freed.map id (some s.next)
    orders := Function.update freed.orders s.next (some o)
    orderLock := Function.update freed.orderLock s.next none
    next := s.next + 1 }

def erase (s : SharedTracker ρ) (id : Str) : SharedTracker ρ :=
  let freed := s.free id
  { freed with map := Function.update freed.map id none }

/-- The section of a call under the map's lock. A call that does not return has no step, and an
access is opened on an id that is present. -/
def underLock (R : ResponseReader ρ) (s : SharedTracker ρ) (t : Nat) :
    TrackerCall ρ → Option (SharedTracker ρ)
  | .registerOrderSent id r =>
      (SharedOrder.fresh.registerResponse R r).map (fun o => (s.set id o).moveTo t .releasing)
  | .registerOrderResponse id r =>
      match SharedOrder.construct R r with
      | .ok o => some ((s.set id o).moveTo t .releasing)
      | .error .throws => some (s.moveTo t .releasing)
      | .error .waits => none
  | .updateOrderResponse id r =>
      match s.map id with
      | some order => some (s.moveTo t (.lockingUpdate id r order))
      | none =>
          match SharedOrder.construct R r with
          | .ok o => some ((s.set id o).moveTo t (.lockingUpdate id r s.next))
          | .error .throws => some (s.moveTo t .releasing)
          | .error .waits => none
  | .removeOrderResponse id => some ((s.erase id).moveTo t .releasing)
  | .access id => (s.map id).map (fun order => s.moveTo t (.lockingAccess id order))

/-- A step of a thread inside a call. -/
def go (R : ResponseReader ρ) (s : SharedTracker ρ) (t : Nat) : Option (SharedTracker ρ) :=
  match s.threads t with
  | .idle => none
  | .locking call =>
      if s.lock = none then some ({ s with lock := some t }.moveTo t (.holding call)) else none
  | .holding call => s.underLock R t call
  | .lockingUpdate id r order =>
      if s.orderLock order = none then
        some ({ s with orderLock := Function.update s.orderLock order (some t) }.moveTo t
          (.updating id r order))
      else none
  | .lockingAccess id order =>
      if s.orderLock order = none then
        some ({ s with orderLock := Function.update s.orderLock order (some t) }.moveTo t
          (.opened id order))
      else none
  | .updating _ r order =>
      (s.orders order).bind (fun o => (o.registerResponse R r).map (fun o' =>
        { s with
          orders := Function.update s.orders order (some o')
          orderLock := Function.update s.orderLock order none }.moveTo t .releasing))
  | .opened id order => some ({ s with lock := none }.moveTo t (.reading id order []))
  | .reading _ _ _ => none
  | .releasing => some ({ s with lock := none }.moveTo t .idle)

end SharedTracker

inductive TrackAct (ρ : Type) where
  | call (t : Nat) (c : TrackerCall ρ)
  | go (t : Nat)
  /-- a field is read through an open access -/
  | read (t : Nat) (f : Field)
  /-- the access is destroyed -/
  | close (t : Nat)

/-- A thread that has an access open reads through it or closes it, and makes no other call. -/
def trackStep {ρ : Type} (R : ResponseReader ρ) (s : SharedTracker ρ) :
    TrackAct ρ → Option (SharedTracker ρ)
  | .call t c =>
      match s.threads t with
      | .idle => some (s.moveTo t (.locking c))
      | _ => none
  | .go t => s.go R t
  | .read t f =>
      match s.threads t with
      | .reading id order reads =>
          some (s.moveTo t (.reading id order (reads ++ [(s.orders order).bind (·.get f)])))
      | _ => none
  | .close t =>
      match s.threads t with
      | .reading _ order _ =>
          some ({ s with orderLock := Function.update s.orderLock order none }.moveTo t .idle)
      | _ => none

/-- An empty tracker. -/
def newTracker (ρ : Type) : SharedTracker ρ where
  lock := none
  map _ := none
  orders _ := none
  orderLock _ := none
  next := 0
  threads _ := .idle

/-! ## The condition -/

/-- The id whose entry a call replaces or erases under the map's lock alone. -/
def TrackerCall.replaces {ρ : Type} (R : ResponseReader ρ) : TrackerCall ρ → Option Str
  | .registerOrderSent id _ => some id
  | .registerOrderResponse id r => (SharedOrder.construct R r).toOption.map (fun _ => id)
  | .removeOrderResponse id => some id
  | _ => none

/-- No entry is replaced or erased while an access to it is open, and no access is opened on an
order that `registerResponse` has thrown on. -/
def Undisturbed {ρ : Type} (R : ResponseReader ρ) (s : SharedTracker ρ) : TrackAct ρ → Prop
  | .go t =>
      match s.threads t with
      | .holding call =>
          ∀ id, call.replaces R = some id → ∀ t' order reads, s.threads t' ≠ .reading id order reads
      | .lockingAccess _ order => ∀ o, s.orders order = some o → o.threw = false
      | _ => True
  | _ => True

/-! ## The invariant

The map owns different orders, each lock has one holder, and whoever holds an order's lock under an
entry finds that entry in the map. `TrackInv` asks of every thread what it relies on at its place,
which depends on its locks, its entry and the content of one order. -/

/-- The map and the heap. -/
structure HeapOk {ρ : Type} (s : SharedTracker ρ) : Prop where
  alive : ∀ id order, s.map id = some order → order < s.next ∧ (s.orders order).isSome
  inj : ∀ id id' order, s.map id = some order → s.map id' = some order → id = id'
  whole : ∀ order o, s.orders order = some o → o.threw = false → ∃ r, o.Whole r

/-- What an open access sees. -/
def Content {ρ : Type} (s : SharedTracker ρ) : Place ρ → Prop
  | .opened _ order => ∃ o, s.orders order = some o ∧ o.threw = false
  | .reading _ order reads =>
      ∃ o r, s.orders order = some o ∧ o.Whole r ∧ ∀ x ∈ reads, x = some r
  | _ => True

/-- What a thread at a place relies on. -/
structure ThreadOk {ρ : Type} (s : SharedTracker ρ) (t : Nat) (p : Place ρ) : Prop where
  held : p.holdsMap = true → s.lock = some t
  locked : ∀ order, p.holdsOrder = some order → s.orderLock order = some t
  entry : ∀ id order, p.entry = some (id, order) → s.map id = some order
  content : Content s p

structure TrackInv {ρ : Type} (s : SharedTracker ρ) : Prop where
  heap : HeapOk s
  threads : ∀ t, ThreadOk s t (s.threads t)

section

variable {ρ : Type} {R : ResponseReader ρ} {s s' : SharedTracker ρ} {t : Nat} {p : Place ρ}

/-- What a thread relies on is its locks, its entry and the order it has locked. -/
theorem ThreadOk.frame (h : ThreadOk s t p)
    (hlock : p.holdsMap = true → s'.lock = s.lock)
    (horder : ∀ order, p.holdsOrder = some order →
      s'.orderLock order = s.orderLock order ∧ s'.orders order = s.orders order)
    (hmap : ∀ id order, p.entry = some (id, order) → s'.map id = s.map id) :
    ThreadOk s' t p := by
  refine ⟨?_, ?_, ?_, ?_⟩
  · intro hp
    rw [hlock hp]
    exact h.held hp
  · intro order hp
    rw [(horder order hp).1]
    exact h.locked order hp
  · intro id order hp
    rw [hmap id order hp]
    exact h.entry id order hp
  · have hc := h.content
    cases p with
    | opened id order =>
        rw [Content, (horder order rfl).2]
        exact hc
    | reading id order reads =>
        rw [Content, (horder order rfl).2]
        exact hc
    | _ => trivial

/-- Every step moves one thread: what it has changed for the others, and where it goes. -/
theorem trackInv_moveTo (hheap : HeapOk s)
    (hothers : ∀ t', t' ≠ t → ThreadOk s t' (s.threads t')) (hp : ThreadOk s t p) :
    TrackInv (s.moveTo t p) := by
  refine ⟨⟨hheap.alive, hheap.inj, hheap.whole⟩, fun t' => ?_⟩
  have hframe : ∀ {t' q}, ThreadOk s t' q → ThreadOk (s.moveTo t p) t' q := fun h =>
    h.frame (fun _ => rfl) (fun _ _ => ⟨rfl, rfl⟩) (fun _ _ _ => rfl)
  by_cases ht : t' = t
  · subst ht
    have hthere : (s.moveTo t' p).threads t' = p := Function.update_self ..
    rw [hthere]
    exact hframe hp
  · have hthere : (s.moveTo t p).threads t' = s.threads t' := Function.update_of_ne ht _ _
    rw [hthere]
    exact hframe (hothers t' ht)

/-- A thread that has only the map's lock, or none, with no entry. -/
theorem threadOk_plain (hheld : p.holdsMap = true → s.lock = some t)
    (hentry : p.entry = none) : ThreadOk s t p := by
  cases p with
  | idle => exact ⟨hheld, fun _ h => (by cases h), fun _ _ h => (by cases h), trivial⟩
  | locking call => exact ⟨hheld, fun _ h => (by cases h), fun _ _ h => (by cases h), trivial⟩
  | holding call => exact ⟨hheld, fun _ h => (by cases h), fun _ _ h => (by cases h), trivial⟩
  | releasing => exact ⟨hheld, fun _ h => (by cases h), fun _ _ h => (by cases h), trivial⟩
  | _ => cases hentry

/-- The map's lock has one holder. -/
theorem TrackInv.not_holdsMap (hI : TrackInv s) (hlock : s.lock = some t) {t' : Nat}
    (ht : t' ≠ t) : (s.threads t').holdsMap = false := by
  rw [Bool.eq_false_iff]
  intro h
  have hheld := (hI.threads t').held h
  rw [hlock] at hheld
  exact ht (Option.some.inj hheld).symm

/-- So has an order's. -/
theorem TrackInv.not_holdsOrder (hI : TrackInv s) {order : Nat}
    (hlock : ∀ t', s.orderLock order = some t' → t' = t) {t' : Nat} (ht : t' ≠ t) {order' : Nat}
    (h : (s.threads t').holdsOrder = some order') : order' ≠ order := by
  intro heq
  subst heq
  exact ht (hlock t' ((hI.threads t').locked order' h))

/-! ## Replacing and erasing an entry

Under the map's lock only open accesses are in the way, since every other thread with an entry
holds the map's lock too. The condition says that none is open on the entry that is replaced. -/

theorem free_orders (id : Str) (order : Nat) :
    (s.free id).orders order = if s.map id = some order then none else s.orders order := by
  unfold SharedTracker.free
  cases hmap : s.map id with
  | none => rfl
  | some old =>
      by_cases ho : order = old
      · subst ho
        rw [if_pos rfl]
        exact Function.update_self ..
      · rw [if_neg (fun h => ho (Option.some.inj h).symm)]
        exact Function.update_of_ne ho _ _

theorem free_frame (id : Str) : (s.free id).map = s.map ∧ (s.free id).lock = s.lock ∧
    (s.free id).orderLock = s.orderLock ∧ (s.free id).threads = s.threads := by
  unfold SharedTracker.free
  cases s.map id <;> exact ⟨rfl, rfl, rfl, rfl⟩

/-- The order of another entry is neither the freed nor the new one. -/
theorem HeapOk.free_other (h : HeapOk s) {id id' : Str} {order : Nat} (hid : id' ≠ id)
    (hmap : s.map id' = some order) : (s.free id).orders order = s.orders order := by
  rw [free_orders, if_neg]
  intro hfreed
  exact hid (h.inj id' id order hmap hfreed)

theorem HeapOk.free_whole (h : HeapOk s) {id : Str} {order : Nat} {o : SharedOrder ρ}
    (ho : (s.free id).orders order = some o) (hthrew : o.threw = false) : ∃ r, o.Whole r := by
  rw [free_orders] at ho
  split at ho
  · cases ho
  · exact h.whole order o ho hthrew

theorem set_map (id id' : Str) (o : SharedOrder ρ) :
    (s.set id o).map id' = if id' = id then some s.next else s.map id' := by
  show Function.update (s.free id).map id (some s.next) id' = _
  rw [Function.update_apply, (free_frame id).1]

theorem set_orders (id : Str) (o : SharedOrder ρ) (order : Nat) :
    (s.set id o).orders order = if order = s.next then some o else (s.free id).orders order :=
  Function.update_apply ..

theorem erase_map (id id' : Str) :
    (s.erase id).map id' = if id' = id then none else s.map id' := by
  show Function.update (s.free id).map id none id' = _
  rw [Function.update_apply, (free_frame id).1]

theorem heapOk_set (h : HeapOk s) (id : Str) {o : SharedOrder ρ}
    (ho : o.threw = false → ∃ r, o.Whole r) : HeapOk (s.set id o) := by
  refine ⟨?_, ?_, ?_⟩
  · intro id' order hmap
    rw [set_map] at hmap
    rw [set_orders]
    show order < s.next + 1 ∧ _
    split at hmap
    · obtain rfl := Option.some.inj hmap
      exact ⟨Nat.lt_succ_self _, by rw [if_pos rfl]; rfl⟩
    · rename_i hid
      have hold := h.alive id' order hmap
      rw [if_neg (by omega), h.free_other hid hmap]
      exact ⟨by omega, hold.2⟩
  · intro id₁ id₂ order h₁ h₂
    rw [set_map] at h₁ h₂
    -- an address that was in the map is below the new one
    have hlt : ∀ id', s.map id' = some order → order < s.next := fun id' hm => (h.alive _ _ hm).1
    split at h₁ <;> split at h₂
    · simp_all
    · have := hlt id₂ h₂
      have := Option.some.inj h₁
      omega
    · have := hlt id₁ h₁
      have := Option.some.inj h₂
      omega
    · exact h.inj id₁ id₂ order h₁ h₂
  · intro order o' ho' hthrew
    rw [set_orders] at ho'
    split at ho'
    · obtain rfl := Option.some.inj ho'
      exact ho hthrew
    · exact h.free_whole ho' hthrew

theorem heapOk_erase (h : HeapOk s) (id : Str) : HeapOk (s.erase id) := by
  refine ⟨?_, ?_, ?_⟩
  · intro id' order hmap
    rw [erase_map] at hmap
    split at hmap
    · cases hmap
    · rename_i hid
      show order < (s.free id).next ∧ ((s.free id).orders order).isSome
      have hold := h.alive id' order hmap
      rw [h.free_other hid hmap]
      refine ⟨?_, hold.2⟩
      unfold SharedTracker.free
      cases s.map id <;> exact hold.1
  · intro id₁ id₂ order h₁ h₂
    rw [erase_map] at h₁ h₂
    split at h₁
    · cases h₁
    · split at h₂
      · cases h₂
      · exact h.inj id₁ id₂ order h₁ h₂
  · intro order o' ho' hthrew
    exact h.free_whole ho' hthrew

/-- Under the map's lock the other threads have no entry, or an open access. -/
theorem entry_of_not_holdsMap (h : p.holdsMap = false) {id : Str} {order : Nat}
    (hentry : p.entry = some (id, order)) : ∃ reads, p = .reading id order reads := by
  cases p with
  | reading id' order' reads =>
      obtain ⟨rfl, rfl⟩ := Prod.mk.inj (Option.some.inj hentry)
      exact ⟨reads, rfl⟩
  | lockingUpdate => cases h
  | lockingAccess => cases h
  | updating => cases h
  | opened => cases h
  | _ => cases hentry

/-- The entry of the order a thread has locked. -/
theorem entry_of_holdsOrder {order : Nat} (h : p.holdsOrder = some order) :
    ∃ id, p.entry = some (id, order) := by
  cases p with
  | updating id r order' => exact ⟨id, congrArg (fun o => o.map (id, ·)) h⟩
  | opened id order' => exact ⟨id, congrArg (fun o => o.map (id, ·)) h⟩
  | reading id order' reads => exact ⟨id, congrArg (fun o => o.map (id, ·)) h⟩
  | _ => cases h

/-- With the map's lock taken and no access open on `id`, no other thread relies on its entry. -/
theorem TrackInv.entry_ne (hI : TrackInv s) (hlock : s.lock = some t) {id : Str}
    (hclosed : ∀ t' order reads, s.threads t' ≠ .reading id order reads) {t' : Nat}
    (ht : t' ≠ t) {id' : Str} {order : Nat} (hentry : (s.threads t').entry = some (id', order)) :
    id' ≠ id := by
  intro heq
  subst heq
  obtain ⟨reads, hp⟩ := entry_of_not_holdsMap (hI.not_holdsMap hlock ht) hentry
  exact hclosed t' order reads hp

/-- The other threads do not see what happens to an entry under the map's lock, when no access is
open on it. -/
theorem others_entry (hI : TrackInv s) (hlock : s.lock = some t) {id : Str}
    (hclosed : ∀ t' order reads, s.threads t' ≠ .reading id order reads)
    (hmap : ∀ id', id' ≠ id → s'.map id' = s.map id')
    (horder : ∀ id' order, id' ≠ id → s.map id' = some order →
      s'.orderLock order = s.orderLock order ∧ s'.orders order = s.orders order)
    {t' : Nat} (ht : t' ≠ t) : ThreadOk s' t' (s.threads t') := by
  refine (hI.threads t').frame ?_ ?_ ?_
  · intro h
    rw [hI.not_holdsMap hlock ht] at h
    cases h
  · intro order hholds
    obtain ⟨id', hentry⟩ := entry_of_holdsOrder hholds
    exact horder id' order (hI.entry_ne hlock hclosed ht hentry)
      ((hI.threads t').entry id' order hentry)
  · intro id' order hentry
    exact hmap id' (hI.entry_ne hlock hclosed ht hentry)

theorem others_set (hI : TrackInv s) (hlock : s.lock = some t) {id : Str} {o : SharedOrder ρ}
    (hclosed : ∀ t' order reads, s.threads t' ≠ .reading id order reads) {t' : Nat}
    (ht : t' ≠ t) : ThreadOk (s.set id o) t' (s.threads t') := by
  refine others_entry hI hlock hclosed (fun id' hid => ?_) (fun id' order hid hmap => ?_) ht
  · rw [set_map, if_neg hid]
  · have hne : order ≠ s.next := (hI.heap.alive id' order hmap).1.ne
    constructor
    · show Function.update (s.free id).orderLock s.next none order = _
      rw [Function.update_of_ne hne, (free_frame id).2.2.1]
    · rw [set_orders, if_neg hne, hI.heap.free_other hid hmap]

theorem others_erase (hI : TrackInv s) (hlock : s.lock = some t) {id : Str}
    (hclosed : ∀ t' order reads, s.threads t' ≠ .reading id order reads) {t' : Nat}
    (ht : t' ≠ t) : ThreadOk (s.erase id) t' (s.threads t') := by
  refine others_entry hI hlock hclosed (fun id' hid => ?_) (fun id' order hid hmap => ?_) ht
  · rw [erase_map, if_neg hid]
  · exact ⟨congrFun (free_frame id).2.2.1 order, hI.heap.free_other hid hmap⟩

/-! ## The steps -/

/-- Taking an order's lock. -/
theorem others_lock (hI : TrackInv s) {order : Nat} (hfree : s.orderLock order = none) {t' : Nat}
    (ht : t' ≠ t) :
    ThreadOk { s with orderLock := Function.update s.orderLock order (some t) } t'
      (s.threads t') := by
  have hne : ∀ order', (s.threads t').holdsOrder = some order' → order' ≠ order := fun order' h =>
    hI.not_holdsOrder (t := t) (fun _ hl => (by rw [hfree] at hl; cases hl)) ht h
  refine (hI.threads t').frame (fun _ => rfl) ?_ (fun _ _ _ => rfl)
  intro order' h
  exact ⟨Function.update_of_ne (hne order' h) _ _, rfl⟩

/-- Writing an order, and giving its lock back, as its holder. -/
theorem others_unlock (hI : TrackInv s) {order : Nat} (hheld : s.orderLock order = some t)
    (o : Option (SharedOrder ρ)) {t' : Nat} (ht : t' ≠ t) :
    ThreadOk { s with
      orders := Function.update s.orders order o
      orderLock := Function.update s.orderLock order none } t' (s.threads t') := by
  have hne : ∀ order', (s.threads t').holdsOrder = some order' → order' ≠ order := fun order' h =>
    hI.not_holdsOrder (t := t) (fun _ hl => (by rw [hheld] at hl; exact (Option.some.inj hl).symm))
      ht h
  refine (hI.threads t').frame (fun _ => rfl) ?_ (fun _ _ _ => rfl)
  intro order' h
  exact ⟨Function.update_of_ne (hne order' h) _ _, Function.update_of_ne (hne order' h) _ _⟩

theorem heapOk_write (h : HeapOk s) {order : Nat} {o : SharedOrder ρ}
    (ho : o.threw = false → ∃ r, o.Whole r) :
    HeapOk { s with
      orders := Function.update s.orders order (some o)
      orderLock := Function.update s.orderLock order none } := by
  refine ⟨?_, h.inj, ?_⟩
  · intro id order' hmap
    refine ⟨(h.alive id order' hmap).1, ?_⟩
    show (Function.update s.orders order (some o) order').isSome
    rw [Function.update_apply]
    split
    · rfl
    · exact (h.alive id order' hmap).2
  · intro order' o' ho' hthrew
    replace ho' : Function.update s.orders order (some o) order' = some o' := ho'
    rw [Function.update_apply] at ho'
    split at ho'
    · obtain rfl := Option.some.inj ho'
      exact ho hthrew
    · exact h.whole order' o' ho' hthrew

/-- The order a construction or a response leaves is whole unless it threw. -/
theorem whole_of_construct {r : ρ} {o : SharedOrder ρ}
    (h : SharedOrder.construct R r = .ok o) : o.threw = false → ∃ r, o.Whole r :=
  fun _ => ⟨r, SharedOrder.whole_construct h⟩

theorem whole_of_registerResponse {r : ρ} {o o' : SharedOrder ρ}
    (h : o.registerResponse R r = some o') : o'.threw = false → ∃ r, o'.Whole r :=
  fun hthrew => ⟨r, SharedOrder.whole_registerResponse h hthrew⟩

/-- The section under the map's lock. -/
theorem trackInv_underLock {call : TrackerCall ρ} (hI : TrackInv s) (hlock : s.lock = some t)
    (hclosed : ∀ id, call.replaces R = some id →
      ∀ t' order reads, s.threads t' ≠ .reading id order reads)
    (hs : s.underLock R t call = some s') : TrackInv s' := by
  have hrelease : TrackInv (s.moveTo t .releasing) :=
    trackInv_moveTo hI.heap (fun t' _ => hI.threads t') (threadOk_plain (fun _ => hlock) rfl)
  have hset : ∀ {id o p}, (∀ t' order reads, s.threads t' ≠ .reading id order reads) →
      (o.threw = false → ∃ r, SharedOrder.Whole o r) → ThreadOk (s.set id o) t p →
      TrackInv ((s.set id o).moveTo t p) := by
    intro id o p hid ho hp
    refine trackInv_moveTo (heapOk_set hI.heap id ho) (fun t' ht => ?_) hp
    show ThreadOk (s.set id o) t' ((s.free id).threads t')
    rw [(free_frame id).2.2.2]
    exact others_set hI hlock hid ht
  have hheld : ∀ {id o}, (s.set id o).lock = some t := by
    intro id o
    show (s.free id).lock = some t
    rw [(free_frame id).2.1]
    exact hlock
  cases call with
  | registerOrderSent id r =>
      obtain ⟨o, ho, rfl⟩ := Option.map_eq_some_iff.mp hs
      exact hset (hclosed id rfl) (whole_of_registerResponse ho)
        (threadOk_plain (fun _ => hheld) rfl)
  | registerOrderResponse id r =>
      simp only [SharedTracker.underLock] at hs
      split at hs
      · rename_i o ho
        obtain rfl := Option.some.inj hs
        refine hset (hclosed id ?_) (whole_of_construct ho) (threadOk_plain (fun _ => hheld) rfl)
        rw [TrackerCall.replaces, ho]
        rfl
      · obtain rfl := Option.some.inj hs
        exact hrelease
      · cases hs
  | updateOrderResponse id r =>
      simp only [SharedTracker.underLock] at hs
      split at hs
      · rename_i order hmap
        obtain rfl := Option.some.inj hs
        refine trackInv_moveTo hI.heap (fun t' _ => hI.threads t')
          ⟨fun _ => hlock, fun _ h => (by cases h), ?_, trivial⟩
        intro id' order' h
        obtain ⟨rfl, rfl⟩ := Prod.mk.inj (Option.some.inj h)
        exact hmap
      · rename_i hmap
        split at hs
        · rename_i o ho
          obtain rfl := Option.some.inj hs
          -- the entry is new, so that no access can be open on it
          refine hset ?_ (whole_of_construct ho)
            ⟨fun _ => hheld, fun _ h => (by cases h), ?_, trivial⟩
          · intro t' order reads hp
            have hthere := (hI.threads t').entry id order (by rw [hp]; rfl)
            rw [hmap] at hthere
            cases hthere
          · intro id' order' h
            obtain ⟨rfl, rfl⟩ := Prod.mk.inj (Option.some.inj h)
            rw [set_map, if_pos rfl]
        · obtain rfl := Option.some.inj hs
          exact hrelease
        · cases hs
  | removeOrderResponse id =>
      obtain rfl := Option.some.inj hs
      refine trackInv_moveTo (heapOk_erase hI.heap id) (fun t' ht => ?_)
        (threadOk_plain (fun _ => ?_) rfl)
      · show ThreadOk (s.erase id) t' ((s.free id).threads t')
        rw [(free_frame id).2.2.2]
        exact others_erase hI hlock (hclosed id rfl) ht
      · show (s.free id).lock = some t
        rw [(free_frame id).2.1]
        exact hlock
  | access id =>
      obtain ⟨order, hmap, rfl⟩ := Option.map_eq_some_iff.mp hs
      refine trackInv_moveTo hI.heap (fun t' _ => hI.threads t')
        ⟨fun _ => hlock, fun _ h => (by cases h), ?_, trivial⟩
      intro id' order' h
      obtain ⟨rfl, rfl⟩ := Prod.mk.inj (Option.some.inj h)
      exact hmap

/-- The map's lock can be taken when it is free, and given back by its holder. -/
theorem others_relock (hI : TrackInv s) (hlock : ∀ t', s.lock = some t' → t' = t) (l : Option Nat)
    {t' : Nat} (ht : t' ≠ t) : ThreadOk { s with lock := l } t' (s.threads t') := by
  refine (hI.threads t').frame ?_ (fun _ _ => ⟨rfl, rfl⟩) (fun _ _ _ => rfl)
  intro h
  exact absurd (hlock t' ((hI.threads t').held h)) ht

theorem trackInv_go (hI : TrackInv s) (hok : Undisturbed R s (.go t))
    (hs : s.go R t = some s') : TrackInv s' := by
  have hme := hI.threads t
  simp only [Undisturbed] at hok
  unfold SharedTracker.go at hs
  cases hp : s.threads t with
  | idle =>
      rw [hp] at hs
      cases hs
  | locking call =>
      rw [hp] at hs
      obtain ⟨hfree, hs⟩ := Option.ite_none_right_eq_some.mp hs
      obtain rfl := Option.some.inj hs
      refine trackInv_moveTo ⟨hI.heap.alive, hI.heap.inj, hI.heap.whole⟩ (fun t' ht => ?_)
        (threadOk_plain (fun _ => rfl) rfl)
      refine others_relock hI (fun t'' hl => ?_) (some t) ht
      rw [hfree] at hl
      cases hl
  | holding call =>
      rw [hp] at hs hok hme
      exact trackInv_underLock hI (hme.held rfl) hok hs
  | lockingUpdate id r order =>
      rw [hp] at hs hme
      obtain ⟨hfree, hs⟩ := Option.ite_none_right_eq_some.mp hs
      obtain rfl := Option.some.inj hs
      refine trackInv_moveTo ⟨hI.heap.alive, hI.heap.inj, hI.heap.whole⟩
        (fun t' ht => others_lock hI hfree ht)
        ⟨fun _ => hme.held rfl, ?_, fun id' order' h => hme.entry id' order' h, trivial⟩
      intro order' h
      obtain rfl := Option.some.inj h
      exact Function.update_self ..
  | lockingAccess id order =>
      rw [hp] at hs hok hme
      obtain ⟨hfree, hs⟩ := Option.ite_none_right_eq_some.mp hs
      obtain rfl := Option.some.inj hs
      -- the entry has not changed since the map's lock was taken, so the order is still there
      have halive := (hI.heap.alive id order (hme.entry id order rfl)).2
      obtain ⟨o, ho⟩ := Option.isSome_iff_exists.mp halive
      refine trackInv_moveTo ⟨hI.heap.alive, hI.heap.inj, hI.heap.whole⟩
        (fun t' ht => others_lock hI hfree ht)
        ⟨fun _ => hme.held rfl, ?_, fun id' order' h => hme.entry id' order' h, o, ho, hok o ho⟩
      intro order' h
      obtain rfl := Option.some.inj h
      exact Function.update_self ..
  | updating id r order =>
      rw [hp] at hs hme
      obtain ⟨o, -, hs⟩ := Option.bind_eq_some_iff.mp hs
      obtain ⟨o', ho', rfl⟩ := Option.map_eq_some_iff.mp hs
      exact trackInv_moveTo (heapOk_write hI.heap (whole_of_registerResponse ho'))
        (fun t' ht => others_unlock hI (hme.locked order rfl) (some o') ht)
        (threadOk_plain (fun _ => hme.held rfl) rfl)
  | opened id order =>
      rw [hp] at hs hme
      obtain rfl := Option.some.inj hs
      -- from here on only the order's own lock protects it
      have hlock := hme.held rfl
      obtain ⟨o, ho, hthrew⟩ := hme.content
      obtain ⟨r, hr⟩ := hI.heap.whole order o ho hthrew
      refine trackInv_moveTo ⟨hI.heap.alive, hI.heap.inj, hI.heap.whole⟩ (fun t' ht => ?_)
        ⟨fun h => (by cases h), fun order' h => hme.locked order' h,
          fun id' order' h => hme.entry id' order' h, o, r, ho, hr, fun x hx => (by cases hx)⟩
      refine others_relock hI (fun t'' hl => ?_) none ht
      rw [hlock] at hl
      exact (Option.some.inj hl).symm
  | reading id order reads =>
      rw [hp] at hs
      cases hs
  | releasing =>
      rw [hp] at hs hme
      obtain rfl := Option.some.inj hs
      refine trackInv_moveTo ⟨hI.heap.alive, hI.heap.inj, hI.heap.whole⟩ (fun t' ht => ?_)
        (threadOk_plain (fun h => (by cases h)) rfl)
      refine others_relock hI (fun t'' hl => ?_) none ht
      rw [hme.held rfl] at hl
      exact (Option.some.inj hl).symm

theorem trackInv_step {act : TrackAct ρ} (hI : TrackInv s) (hok : Undisturbed R s act)
    (hs : trackStep R s act = some s') : TrackInv s' := by
  cases act with
  | call t c =>
      simp only [trackStep] at hs
      split at hs
      · obtain rfl := Option.some.inj hs
        exact trackInv_moveTo hI.heap (fun t' _ => hI.threads t')
          (threadOk_plain (fun h => (by cases h)) rfl)
      · cases hs
  | go t => exact trackInv_go hI hok hs
  | read t f =>
      simp only [trackStep] at hs
      split at hs
      · rename_i id order reads hp
        obtain rfl := Option.some.inj hs
        have hme := hI.threads t
        rw [hp] at hme
        -- the field comes from the response that the others came from
        obtain ⟨o, r, ho, hr, hreads⟩ := hme.content
        refine trackInv_moveTo hI.heap (fun t' _ => hI.threads t')
          ⟨fun h => (by cases h), fun order' h => hme.locked order' h,
            fun id' order' h => hme.entry id' order' h, o, r, ho, hr, ?_⟩
        intro x hx
        rw [ho, List.mem_append, List.mem_singleton] at hx
        obtain hx | rfl := hx
        · exact hreads x hx
        · exact hr f
      · cases hs
  | close t =>
      simp only [trackStep] at hs
      split at hs
      · rename_i id order reads hp
        obtain rfl := Option.some.inj hs
        have hme := hI.threads t
        rw [hp] at hme
        refine trackInv_moveTo ⟨hI.heap.alive, hI.heap.inj, hI.heap.whole⟩ (fun t' ht => ?_)
          (threadOk_plain (fun h => (by cases h)) rfl)
        have hothers := others_unlock hI (hme.locked order rfl) (s.orders order) ht
        rwa [Function.update_eq_self] at hothers
      · cases hs

theorem trackInv_newTracker : TrackInv (newTracker ρ) := by
  refine ⟨⟨?_, ?_, ?_⟩, fun t => threadOk_plain (fun h => (by cases h)) rfl⟩
  · intro id order h
    cases h
  · intro id id' order h
    cases h
  · intro order o h
    cases h

end

/-! ## Open accesses -/

/-- **An open access keeps its order.** In every run without the writers that replace or erase an
entry under an open access, and without accesses to a half-written order, the order an access
refers to is the one stored under its id for as long as it is open, and the fields read through it
come from one response. -/
theorem access_stable {ρ : Type} {R : ResponseReader ρ} {s : SharedTracker ρ}
    (h : Reach (trackStep R) (Undisturbed R) (newTracker ρ) s) {t : Nat} {id : Str} {order : Nat}
    {reads : List (Option ρ)} (hp : s.threads t = .reading id order reads) :
    s.map id = some order ∧ (s.orders order).isSome ∧ ∃ r, ∀ x ∈ reads, x = some r := by
  have hI : TrackInv s := h.invariant (I := TrackInv) trackInv_newTracker
    (fun _ _ _ hI hok hs => trackInv_step hI hok hs)
  have hme := hI.threads t
  rw [hp] at hme
  obtain ⟨o, r, ho, -, hreads⟩ := hme.content
  refine ⟨hme.entry id order rfl, ?_, r, hreads⟩
  rw [ho]
  rfl

/-- The steps that replace no entry and open no access on a half-written order. -/
def quietTest {ρ : Type} (R : ResponseReader ρ) (s : SharedTracker ρ) : TrackAct ρ → Bool
  | .go t =>
      match s.threads t with
      | .holding call => (call.replaces R).isNone
      | .lockingAccess _ order => (s.orders order).all (fun o => !o.threw)
      | _ => true
  | _ => true

theorem undisturbed_of_quietTest {ρ : Type} {R : ResponseReader ρ} {s : SharedTracker ρ}
    {act : TrackAct ρ} (h : quietTest R s act = true) : Undisturbed R s act := by
  cases act with
  | go t =>
      simp only [quietTest] at h
      simp only [Undisturbed]
      split at h
      · intro id hid
        rw [Option.isNone_iff_eq_none.mp h] at hid
        cases hid
      · intro o ho
        rw [ho] at h
        simpa using h
      · trivial
  | _ => trivial

/-- Two answers of the exchange to one request. -/
def firstAnswer : OrderTypeSent × JsonTree := (.NEW, .obj [("status".toList, .int 200)])

def secondAnswer : OrderTypeSent × JsonTree :=
  (.NEW, .obj [("status".toList, .int 400), ("error".toList, .obj [("code".toList, .int 7)])])

/-- Thread 0 stores the first answer, and thread 1 opens an access to the order. -/
def openedRun : List (TrackAct (OrderTypeSent × JsonTree)) :=
  [.call 0 (.updateOrderResponse ['a'] firstAnswer), .go 0, .go 0, .go 0, .go 0, .go 0,
    .call 1 (.access ['a']), .go 1, .go 1, .go 1, .go 1, .read 1 .status]

/-- While the access is open, an update waits for it. -/
theorem access_stable_update :
    ∃ s, Reach (trackStep documentReader) (Undisturbed documentReader) (newTracker _) s ∧
      s.threads 0 = .lockingUpdate ['a'] secondAnswer 0 ∧
      s.threads 1 = .reading ['a'] 0 [some firstAnswer, some firstAnswer] ∧
      s.map ['a'] = some 0 := by
  obtain ⟨s, hrun, h0, h1⟩ : ∃ s, runFrom (fun s a => if quietTest documentReader s a then
        trackStep documentReader s a else none) (newTracker _)
        (openedRun ++ [.call 0 (.updateOrderResponse ['a'] secondAnswer), .go 0, .go 0,
          .read 1 .wrapper]) = some s ∧
      s.threads 0 = .lockingUpdate ['a'] secondAnswer 0 ∧
      s.threads 1 = .reading ['a'] 0 [some firstAnswer, some firstAnswer] := ⟨_, rfl, rfl, rfl⟩
  have h : Reach (trackStep documentReader) (Undisturbed documentReader) (newTracker _) s :=
    Reach.of_runFrom (fun _ _ => undisturbed_of_quietTest) .refl hrun
  exact ⟨s, h, h0, h1, (access_stable h h1).1⟩

/-- While the access is open, a new answer for the same id replaces the order it refers to. -/
theorem access_replaced :
    ∃ s, Reach (trackStep documentReader) (fun _ _ => True) (newTracker _) s ∧
      s.threads 1 = .reading ['a'] 0 [some firstAnswer, none] ∧
      s.map ['a'] = some 1 ∧ (s.orders 0).isNone := by
  obtain ⟨s, hrun, hs⟩ : ∃ s, runFrom (trackStep documentReader) (newTracker _)
        (openedRun ++ [.call 0 (.registerOrderResponse ['a'] secondAnswer), .go 0, .go 0,
          .read 1 .wrapper]) = some s ∧
      s.threads 1 = .reading ['a'] 0 [some firstAnswer, none] ∧
      s.map ['a'] = some 1 ∧ (s.orders 0).isNone := ⟨_, rfl, rfl, rfl, rfl⟩
  exact ⟨s, Reach.refl.of_run hrun, hs⟩

end AstraConnect.Order
