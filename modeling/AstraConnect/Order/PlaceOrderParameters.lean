import AstraConnect.Order.RequestParameter

set_option autoImplicit false

/-! # The parameters of an order (`api/futures/order/placeOrderParameters.hpp`)

One object holds the parameters of all orders. `prepareOrder` has two overloads, for a new order
and for a modification; each writes a part of the fields.
-/

namespace AstraConnect.Order

inductive PositionSide where
  | BOTH | LONG | SHORT | NONE
  deriving DecidableEq, Repr

inductive OrderSide where
  | SELL | BUY | NONE
  deriving DecidableEq, Repr

inductive TimeInForce where
  | GTC | IOC | FOK | GTX | NONE
  deriving DecidableEq, Repr

inductive PriceMatchMode where
  | NONE | OPPONENT | QUEUE | MAKER | BIDDER
  deriving DecidableEq, Repr

inductive OrderType where
  | LIMIT | MARKET | STOP | STOP_MARKET | TAKE_PROFIT | TAKE_PROFIT_MARKET
  | TRAILING_STOP_MARKET | LIQUIDATION | NONE
  deriving DecidableEq, Repr

/-! What the `switch` over each enumeration assigns; `none` where it has no case. -/

def PositionSide.text : PositionSide → Option Str
  | BOTH => some "BOTH".toList
  | LONG => some "LONG".toList
  | SHORT => some "SHORT".toList
  | NONE => none

def OrderSide.text (side : OrderSide) : Str := if side = BUY then "BUY".toList else "SELL".toList

def TimeInForce.text : TimeInForce → Option Str
  | GTC => some "GTC".toList
  | IOC => some "IOC".toList
  | FOK => some "FOK".toList
  | GTX => some "GTX".toList
  | NONE => none

def PriceMatchMode.text : PriceMatchMode → Option Str
  | NONE => some "NONE".toList
  | OPPONENT => some "OPPONENT".toList
  | QUEUE => some "QUEUE".toList
  | MAKER => some "MAKER".toList
  | BIDDER => some "BIDDER".toList

def OrderType.text : OrderType → Option Str
  | LIMIT => some "LIMIT".toList
  | MARKET => some "MARKET".toList
  | STOP => some "STOP".toList
  | STOP_MARKET => some "STOP_MARKET".toList
  | TAKE_PROFIT => some "TAKE_PROFIT".toList
  | TAKE_PROFIT_MARKET => some "TAKE_PROFIT_MARKET".toList
  | TRAILING_STOP_MARKET => some "TRAILING_STOP_MARKET".toList
  | LIQUIDATION => some "LIQUIDATION".toList
  | NONE => none

namespace RequestParameter

/-- `p.request = …;` -/
def withRequest (p : RequestParameter) (request : Str) : RequestParameter := { p with request }

/-- A `switch` that assigns `p.request`, or leaves it when no case is taken. -/
def switch (p : RequestParameter) (text : Option Str) : RequestParameter :=
  p.withRequest (text.getD p.request)

end RequestParameter

/-- `std::to_string` of an `int64_t`. -/
def to_string (n : Int) : Str := (if n < 0 then ['-'] else []) ++ Nat.toDigits 10 n.natAbs

theorem to_string_ne_nil (n : Int) : to_string n ≠ [] := by
  intro h
  exact Nat.toDigits_ne_nil (List.append_eq_nil_iff.mp h).2

structure PlaceOrderParameters where
  positionSide : RequestParameter := ⟨"positionSide".toList, [], false⟩
  price : RequestParameter := ⟨"price".toList, [], false⟩
  quantity : RequestParameter := ⟨"quantity".toList, [], false⟩
  side : RequestParameter := ⟨"side".toList, [], false⟩
  symbol : RequestParameter := ⟨"symbol".toList, [], false⟩
  timeInForce : RequestParameter := ⟨"timeInForce".toList, [], false⟩
  timestamp : RequestParameter := ⟨"timestamp".toList, [], false⟩
  type : RequestParameter := ⟨"type".toList, [], false⟩
  priceMatch : RequestParameter := ⟨"priceMatch".toList, [], false⟩
  deriving DecidableEq, Repr

namespace PlaceOrderParameters

/-- The assignments that the two overloads of `prepareOrder` have in common. -/
def prepareShared (p : PlaceOrderParameters) (posSide : PositionSide) (orderSide : OrderSide)
    (orderType : OrderType) (pair px qty : Str) (now : Int) : PlaceOrderParameters :=
  { p with
    positionSide := p.positionSide.switch posSide.text
    side := p.side.withRequest orderSide.text
    symbol := p.symbol.withRequest pair
    price := p.price.withRequest px
    quantity := p.quantity.withRequest qty
    type := p.type.switch orderType.text
    timestamp := p.timestamp.withRequest (to_string now) }

/-- `prepareOrder(posSide, orderSide, tif, orderType, pair, px, qty)` -/
def prepareOrder (p : PlaceOrderParameters) (posSide : PositionSide) (orderSide : OrderSide)
    (tif : TimeInForce) (orderType : OrderType) (pair px qty : Str) (now : Int) :
    PlaceOrderParameters :=
  let p := p.prepareShared posSide orderSide orderType pair px qty now
  { p with timeInForce := p.timeInForce.switch tif.text }

/-- `prepareOrder(posSide, orderSide, priceMatchMode, orderType, pair, px, qty)`, which starts with
`type.requestField = "origType";`. -/
def prepareModify (p : PlaceOrderParameters) (posSide : PositionSide) (orderSide : OrderSide)
    (priceMatchMode : PriceMatchMode) (orderType : OrderType) (pair px qty : Str) (now : Int) :
    PlaceOrderParameters :=
  let p := { p with type := { p.type with requestField := "origType".toList } }
  let p := p.prepareShared posSide orderSide orderType pair px qty now
  { p with priceMatch := p.priceMatch.switch priceMatchMode.text }

end PlaceOrderParameters

/-! ## The texts -/

section Texts

variable {t : Str}

theorem PositionSide.text_spec {side : PositionSide} (h : side.text = some t) :
    t ≠ [] ∧ '"' ∉ t := by
  cases side <;> simp only [PositionSide.text, Option.some.injEq, reduceCtorEq] at h <;>
    subst h <;> decide

theorem TimeInForce.text_spec {tif : TimeInForce} (h : tif.text = some t) : t ≠ [] ∧ '"' ∉ t := by
  cases tif <;> simp only [TimeInForce.text, Option.some.injEq, reduceCtorEq] at h <;>
    subst h <;> decide

theorem OrderType.text_spec {type : OrderType} (h : type.text = some t) : t ≠ [] ∧ '"' ∉ t := by
  cases type <;> simp only [OrderType.text, Option.some.injEq, reduceCtorEq] at h <;>
    subst h <;> decide

theorem PriceMatchMode.text_isSome (mode : PriceMatchMode) : ∃ t, mode.text = some t ∧ t ≠ [] := by
  cases mode <;> exact ⟨_, rfl, by decide⟩

theorem OrderSide.text_ne_nil (side : OrderSide) : side.text ≠ [] := by
  cases side <;> decide

end Texts

end AstraConnect.Order
