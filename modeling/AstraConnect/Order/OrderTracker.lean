import AstraConnect.Lib.Json
import AstraConnect.Order.RequestParameter

set_option autoImplicit false

/-! # Responses and the order tracker (`orderResponseEvents.hpp`, `orderClass.hpp`,
`orderTracker.hpp`)

What reading a response can do to the call that reads it: return, throw, or wait for room in a
ring buffer that nobody else can reach yet. The values that are read are kept by the response
objects and looked at by none of the functions modelled here, so only the reads themselves are
modelled, in their order.
-/

namespace AstraConnect.Order

open Utils

/-- How a computation ends other than by returning. -/
inductive Stop where
  | throws
  | waits
  deriving DecidableEq, Repr

abbrev Exec := Except Stop

/-- `.value()`, which throws when there is none. -/
def valueOf {α : Type} : Option α → Exec α
  | some a => .ok a
  | none => .error .throws

/-- `try { … } catch(std::exception& e) { }` -/
def catchAll : Exec Unit → Exec Unit
  | .error .throws => .ok ()
  | r => r

section Exec

variable {α β : Type} {x : Exec α} {f : α → Exec β}

theorem bind_eq_waits_iff :
    (x >>= f) = .error .waits ↔ x = .error .waits ∨ ∃ a, x = .ok a ∧ f a = .error .waits := by
  cases x <;> simp [bind, Except.bind]

theorem bind_eq_ok_iff {b : β} : (x >>= f) = .ok b ↔ ∃ a, x = .ok a ∧ f a = .ok b := by
  cases x <;> simp [bind, Except.bind]

theorem valueOf_eq_ok_iff {o : Option α} {a : α} : valueOf o = .ok a ↔ o = some a := by
  cases o <;> simp [valueOf]

theorem valueOf_ne_waits (o : Option α) : valueOf o ≠ .error .waits := by
  cases o <;> simp [valueOf]

/-- What does not wait is known from the value it returns, if it returns one. -/
theorem valueOf_toOption (h : x ≠ .error .waits) : valueOf x.toOption = x := by
  rcases x with ⟨_ | _⟩ | a
  · rfl
  · exact absurd rfl h
  · rfl

end Exec

/-! ## Reading a response

A read is followed only as far as it can throw, or can write the name that a later read converts.
The lists are in the order of the source. -/

/-- The enumerators a `return…` function of `toEnum.hpp` accepts, in upper or in lower case. -/
def Accepts (names : List Str) (s : Str) : Prop := s ∈ names ∨ s ∈ names.map (·.map Char.toLower)

instance (names : List Str) (s : Str) : Decidable (Accepts names s) :=
  inferInstanceAs (Decidable (_ ∨ _))

/-- A read of one field that can throw or that writes `intermediateString`. A name with no list of
accepted names never throws. -/
inductive FieldRead where
  | int64 (key : Str)
  | bool (key : Str)
  | fixed (key : Str)
  | name (key : Str) (names : Option (List Str))
  deriving DecidableEq, Repr

/-- `readFixed(obj[key])` -/
def readFixed (field : Option JsonTree) : Exec Int := do
  let text ← valueOf (field.bind JsonTree.getString)
  match parseFixed .int64 text 0 with
  | some (true, v) => .ok v
  | _ => .error .throws

theorem readFixed_ne_waits (field : Option JsonTree) : readFixed field ≠ .error .waits := by
  intro h
  rcases bind_eq_waits_iff.mp h with h | ⟨text, -, h⟩
  · exact valueOf_ne_waits _ h
  · split at h <;> simp at h

/-- One read; the string is `intermediateString`, which a failed `get_string` leaves as it was. -/
def FieldRead.run (obj : List (Str × JsonTree)) (buffer : Str) : FieldRead → Exec Str
  | .int64 key => do
      let _ ← valueOf ((JsonTree.findField obj key).bind JsonTree.getInt64)
      return buffer
  | .bool key => do
      let _ ← valueOf ((JsonTree.findField obj key).bind JsonTree.getBool)
      return buffer
  | .fixed key => do
      let _ ← readFixed (JsonTree.findField obj key)
      return buffer
  | .name key names =>
      let text := ((JsonTree.findField obj key).bind JsonTree.getString).getD buffer
      if names.all (Accepts · text) then .ok text else .error .throws

def readFields (obj : List (Str × JsonTree)) (reads : List FieldRead) : Exec Unit := do
  let _ ← reads.foldlM (FieldRead.run obj) []

/-- `RateLimitHolder::rateLimitBuffer` -/
def rateLimitCapacity : Nat := 8

/-- `for(auto rate : rateArray) { …; rateLimits.addRateLimit(…); }` with `queued` items in the
ring, which only the holder of the finished response can dequeue. -/
def addRateLimits : List JsonTree → Nat → Exec Unit
  | [], _ => .ok ()
  | rate :: rest, queued => do
      let obj ← valueOf rate.getObject
      readFields obj [.int64 "intervalNum".toList, .int64 "limit".toList, .int64 "count".toList]
      if queued < rateLimitCapacity then addRateLimits rest (queued + 1) else .error .waits

def readRateLimits (doc : JsonTree) : Exec Unit := do
  let rateArray ← valueOf ((doc.get "rateLimits".toList).bind JsonTree.getArray)
  addRateLimits rateArray 0

def orderStatusNames : List Str :=
  ["NEW".toList, "PARTIALLY_FILLED".toList, "FILLED".toList, "CANCELED".toList,
    "EXPIRED".toList, "EXPIRED_IN_MATCH".toList]

def orderTypeNames : List Str :=
  ["LIMIT".toList, "MARKET".toList, "STOP".toList, "STOP_MARKET".toList, "TAKE_PROFIT".toList,
    "TAKE_PROFIT_MARKET".toList, "TRAILING_STOP_MARKET".toList, "LIQUIDATION".toList]

def orderSideNames : List Str := ["SELL".toList, "BUY".toList]

def positionSideNames : List Str := ["BOTH".toList, "LONG".toList, "SHORT".toList]

def workingTypeNames : List Str := ["MARK_PRICE".toList, "CONTRACT_PRICE".toList]

def priceMatchNames : List Str :=
  ["NONE".toList, "OPPONENT".toList, "QUEUE".toList, "MAKER".toList, "BIDDER".toList]

def stpModeNames : List Str :=
  ["NONE".toList, "EXPIRE_TAKER".toList, "EXPIRE_MAKER".toList, "EXPIRE_BOTH".toList]

/-- The reads of `result` in `OrderNewResponse::parseFields`. -/
def newOrderReads : List FieldRead :=
  [.int64 "orderId".toList, .name "status".toList orderStatusNames,
    .fixed "price".toList, .fixed "avgPrice".toList, .fixed "origQty".toList,
    .fixed "executedQty".toList, .fixed "cumQty".toList, .fixed "cumQuote".toList,
    .name "timeInForce".toList none, .name "type".toList orderTypeNames,
    .bool "reduceOnly".toList, .name "side".toList orderSideNames,
    .name "positionSide".toList positionSideNames, .fixed "stopPrice".toList,
    .name "workingType".toList workingTypeNames, .bool "priceProtect".toList,
    .name "origType".toList orderTypeNames, .name "priceMatch".toList priceMatchNames,
    .name "selfTradePreventionMode".toList stpModeNames, .int64 "goodTillDate".toList,
    .int64 "updateTime".toList]

/-- `doc["status"].get_int64()` -/
def statusOf (doc : JsonTree) : Option Int := (doc.get "status".toList).bind JsonTree.getInt64

/-- The constructor of `OrderNewResponse`. -/
def newOrderResponse (doc : JsonTree) : Exec Unit :=
  catchAll do
    let _ ← valueOf (statusOf doc)
    let obj ← valueOf ((doc.get "result".toList).bind JsonTree.getObject)
    readFields obj newOrderReads
    readRateLimits doc

def accountInfoReads : List FieldRead :=
  [.fixed "balance".toList, .fixed "crossWalletBalance".toList, .fixed "crossUnPnl".toList,
    .fixed "availableBalance".toList, .fixed "maxWithdrawAmount".toList,
    .bool "marginAvailable".toList, .int64 "updateTime".toList]

/-- `for (auto elem : resultArray) { …; if(asset != "USDT") continue; …; break; }`, where a failed
`get_string(asset)` leaves the asset of the element before. -/
def readBalances : List JsonTree → Str → Exec Unit
  | [], _ => .ok ()
  | elem :: rest, asset => do
      let obj ← valueOf elem.getObject
      let asset := ((JsonTree.findField obj "asset".toList).bind JsonTree.getString).getD asset
      if asset ≠ "USDT".toList then readBalances rest asset else readFields obj accountInfoReads

/-- The constructor of `AccountInfoResponse`. -/
def accountInfoResponse (doc : JsonTree) : Exec Unit :=
  catchAll do
    let _ ← valueOf (statusOf doc)
    let resultArray ← valueOf ((doc.get "result".toList).bind JsonTree.getArray)
    readBalances resultArray []
    readRateLimits doc

/-- The kinds of response that are registered. -/
inductive OrderTypeSent where
  | NEW
  | ACCOUNT_INFO
  deriving DecidableEq, Repr

/-- The constructor of `OrderResponsePtrWrapper`. -/
def orderResponsePtrWrapper (type : OrderTypeSent) (doc : JsonTree) : Exec Unit := do
  let status ← valueOf (statusOf doc)
  if status = 200 then
    match type with
    | .NEW => newOrderResponse doc
    | .ACCOUNT_INFO => accountInfoResponse doc
  else
    let obj ← valueOf ((doc.get "error".toList).bind JsonTree.getObject)
    readFields obj [.int64 "code".toList]

/-! ## `OrderTracker` -/

/-- `Order`, as far as the tracker reads it. -/
structure TrackedOrder where
  status : Int
  deriving DecidableEq, Repr

/-- The capacity of `activeOrders`. -/
def activeOrdersCapacity : Nat := 256

structure OrderTracker where
  map : Str → Option TrackedOrder := fun _ => none
  activeOrders : List Int := []

namespace OrderTracker

/-- `map[id] = …` -/
def set (t : OrderTracker) (id : Str) (order : TrackedOrder) : OrderTracker :=
  { t with map := Function.update t.map id (some order) }

/-- `registerOrderSent(id, …, doc)`. The constructor of `Order` does not write `status`, so until
the response's own status is read the entry holds what the memory held, `garbage`. -/
def registerOrderSent (t : OrderTracker) (id : Str) (garbage : Int) (doc : JsonTree) :
    OrderTracker × Exec Unit :=
  match statusOf doc with
  | none => (t.set id ⟨garbage⟩, .error .throws)
  | some status => (t.set id ⟨status⟩, orderResponsePtrWrapper .NEW doc)

/-- `registerOrderResponse(id, type, doc)`: the order is built before the map is written. -/
def registerOrderResponse (t : OrderTracker) (id : Str) (type : OrderTypeSent) (doc : JsonTree) :
    OrderTracker × Exec Unit :=
  match orderResponsePtrWrapper type doc, valueOf (statusOf doc) with
  | .error stop, _ => (t, .error stop)
  | .ok _, .error stop => (t, .error stop)
  | .ok _, .ok status => (t.set id ⟨status⟩, .ok ())

/-- `getOrderStatusint(id)` -/
def getOrderStatusint (t : OrderTracker) (id : Str) : Int := (t.map id).elim 0 (·.status)

/-- `queueActiveOrderId(id)`, which waits when the ring is full. -/
def queueActiveOrderId (t : OrderTracker) (id : Int) : Option OrderTracker :=
  if t.activeOrders.length < activeOrdersCapacity then
    some { t with activeOrders := t.activeOrders ++ [id] }
  else none

end OrderTracker

end AstraConnect.Order
