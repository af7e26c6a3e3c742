import AstraConnect.Lib.FieldReading
import AstraConnect.Api.FetchError
import AstraConnect.Order.OrderResponse

set_option autoImplicit false

/-! # The events of the user data stream (`userDataStreamEvents.hpp`, `toEnum.hpp`,
`userDataStreamFactory.hpp`)

Every `parseFields` reads its keys one after the other. A number or a bool that is not there throws;
a string is taken with `get_string`, whose error is ignored, either straight into its member or
through a string variable that other names went through before. The elements of an array are read
into one variable, of which a copy is pushed back.

`realizedPNL` of a position is never assigned. `InString` is what simdjson finds in a string that
stands for a number.
-/

namespace AstraConnect.UserData

open AstraConnect.Order FieldReading
open AstraConnect.Api (toInt)

/-! ## Names and codes

The `return…` functions of `toEnum.hpp` are one search in a list of names, with the value for a
name that is not in it. -/

inductive MarginType where
  | ISOLATED | CROSS
  deriving DecidableEq, Repr

inductive AccountUpdateType where
  | DEPOSIT | WITHDRAW | ORDER | FUNDING_FEE | WITHDRAW_REJECT | ADJUSTMENT | INSURANCE_CLEAR
  | ADMIN_DEPOSIT | ADMIN_WITHDRAW | MARGIN_TRANSFER | MARGIN_TYPE_CHANGE | ASSET_TRANSFER
  | OPTIONS_PREMIUM_FEE | OPTIONS_SETTLE_PROFIT | AUTO_EXCHANGE | COIN_SWAP_DEPOSIT
  | COIN_SWAP_WITHDRAW
  deriving DecidableEq, Repr

inductive ExecutionType where
  | NEW | CANCELED | CALCULATED | EXPIRED | TRADE | AMENDMENT
  deriving DecidableEq, Repr

inductive StrategyStatus where
  | NEW | WORKING | CANCELED | EXPIRED
  deriving DecidableEq, Repr

inductive StrategyType where
  | STOP | TAKE_PROFIT | STOP_MARKET | TAKE_PROFIT_MARKET | TRAILING_STOP_MARKET | GRID | TWAP | VP
  | SIGNAL | CUSTOM
  deriving DecidableEq, Repr

inductive OpCode where
  | UPDATED | CANCELED | PLACED_OR_CANCELED | STOP_REACHED | LIQUIDATED | MAX_ORDER_REACHED
  | NEW_GRID_ORDER | MARGIN_NOT_ENOUGH | PRICE_OUT_OF_BOUNDS | MARKET_CLOSED_OR_PAUSED
  | CLOSE_FAILED | MAX_NOTITIONAL_VALUE_EXCEEDED | GRID_EXPIRED_KYC_OR_RESTRICTED
  | RULES_VIOLATED_STOPPED | POSITION_EMPTY_OR_LIQUIDATED
  deriving DecidableEq, Repr

inductive ExpireReason where
  | NONE | EXPIRED_SAVE | IOC_FAIL | IOC_FAIL_SAVE | REVERSED | LIQUIDATED | GTE_FAILED
  | SYMBOL_INVALID | STOP_TRIGGERED | MARKET_ORDER_FAIL
  deriving DecidableEq, Repr

inductive EventType where
  | ACCOUNT_UPDATE | MARGIN_CALL | ORDER_UPDATE | TRADE_LITE | ACCOUNT_CONFIG_UPDATE
  | STRATEGY_UPDATE | GRID_UPDATE | CONDITIONAL_ORDER_REJECT | ALGO_UPDATE | LISTEN_KEY_EXPIRED
  | UNKNOWN
  deriving DecidableEq, Repr

/-- The value of the first name that is equal. -/
def lookupName {α : Type} (table : List (Str × α)) (s : Str) : Option α :=
  (table.find? (fun e => s = e.1)).map (·.2)

def returnEventType (requested : Str) : EventType :=
  (lookupName [("ACCOUNT_UPDATE".toList, .ACCOUNT_UPDATE), ("MARGIN_CALL".toList, .MARGIN_CALL),
    ("ORDER_TRADE_UPDATE".toList, .ORDER_UPDATE), ("TRADE_LITE".toList, .TRADE_LITE),
    ("ACCOUNT_CONFIG_UPDATE".toList, .ACCOUNT_CONFIG_UPDATE),
    ("STRATEGY_UPDATE".toList, .STRATEGY_UPDATE), ("GRID_UPDATE".toList, .GRID_UPDATE),
    ("CONDITIONAL_ORDER_TRIGGER_REJECT".toList, .CONDITIONAL_ORDER_REJECT),
    ("CONDITIONAL_ORDER_REJECT".toList, .CONDITIONAL_ORDER_REJECT),
    ("ALGO_UPDATE".toList, .ALGO_UPDATE),
    ("listenKeyExpired".toList, .LISTEN_KEY_EXPIRED)] requested).getD EventType.UNKNOWN

def returnAccountUpdateType : Str → Option AccountUpdateType :=
  lookupName [("DEPOSIT".toList, .DEPOSIT), ("WITHDRAW".toList, .WITHDRAW),
    ("ORDER".toList, .ORDER), ("FUNDING_FEE".toList, .FUNDING_FEE),
    ("WITHDRAW_REJECT".toList, .WITHDRAW_REJECT), ("ADJUSTMENT".toList, .ADJUSTMENT),
    ("INSURANCE_CLEAR".toList, .INSURANCE_CLEAR), ("ADMIN_DEPOSIT".toList, .ADMIN_DEPOSIT),
    ("ADMIN_WITHDRAW".toList, .ADMIN_WITHDRAW), ("MARGIN_TRANSFER".toList, .MARGIN_TRANSFER),
    ("MARGIN_TYPE_CHANGE".toList, .MARGIN_TYPE_CHANGE),
    ("ASSET_TRANSFER".toList, .ASSET_TRANSFER),
    ("OPTIONS_PREMIUM_FEE".toList, .OPTIONS_PREMIUM_FEE),
    ("OPTIONS_SETTLE_PROFIT".toList, .OPTIONS_SETTLE_PROFIT),
    ("AUTO_EXCHANGE".toList, .AUTO_EXCHANGE),
    ("COIN_SWAP_DEPOSIT".toList, .COIN_SWAP_DEPOSIT),
    ("COIN_SWAP_WITHDRAW".toList, .COIN_SWAP_WITHDRAW)]

def returnMarginType : Str → Option MarginType :=
  lookupName [("isolated".toList, .ISOLATED), ("ISOLATED".toList, .ISOLATED),
    ("cross".toList, .CROSS), ("CROSS".toList, .CROSS), ("crossed".toList, .CROSS),
    ("CROSSED".toList, .CROSS)]

def returnExecutionType : Str → Option ExecutionType :=
  lookupName [("NEW".toList, .NEW), ("new".toList, .NEW), ("CANCELED".toList, .CANCELED),
    ("canceled".toList, .CANCELED), ("CALCULATED".toList, .CALCULATED),
    ("calculated".toList, .CALCULATED), ("EXPIRED".toList, .EXPIRED),
    ("expired".toList, .EXPIRED), ("TRADE".toList, .TRADE), ("trade".toList, .TRADE),
    ("AMENDMENT".toList, .AMENDMENT), ("amendment".toList, .AMENDMENT)]

def returnStrategyType : Str → Option StrategyType :=
  lookupName [("STOP".toList, .STOP), ("TAKE_PROFIT".toList, .TAKE_PROFIT),
    ("STOP_MARKET".toList, .STOP_MARKET), ("TAKE_PROFIT_MARKET".toList, .TAKE_PROFIT_MARKET),
    ("TRAILING_STOP_MARKET".toList, .TRAILING_STOP_MARKET), ("GRID".toList, .GRID),
    ("TWAP".toList, .TWAP), ("VP".toList, .VP), ("SIGNAL".toList, .SIGNAL),
    ("CUSTOM".toList, .CUSTOM)]

def returnStrategyStatus : Str → Option StrategyStatus :=
  lookupName [("NEW".toList, .NEW), ("WORKING".toList, .WORKING),
    ("CANCELED".toList, .CANCELED), ("EXPIRED".toList, .EXPIRED)]

def returnExpireReason (reason : Int) : Option ExpireReason :=
  match toInt reason with
  | 0 => some .NONE
  | 1 => some .EXPIRED_SAVE
  | 2 => some .IOC_FAIL
  | 3 => some .IOC_FAIL_SAVE
  | 4 => some .REVERSED
  | 5 => some .LIQUIDATED
  | 6 => some .GTE_FAILED
  | 7 => some .SYMBOL_INVALID
  | 8 => some .STOP_TRIGGERED
  | 9 => some .MARKET_ORDER_FAIL
  | _ => none

def returnOpCode (code : Int) : Option OpCode :=
  match toInt code with
  | 8001 => some .UPDATED
  | 8002 => some .CANCELED
  | 8003 => some .PLACED_OR_CANCELED
  | 8004 => some .STOP_REACHED
  | 8005 => some .LIQUIDATED
  | 8006 => some .MAX_ORDER_REACHED
  | 8007 => some .NEW_GRID_ORDER
  | 8008 => some .MARGIN_NOT_ENOUGH
  | 8009 => some .PRICE_OUT_OF_BOUNDS
  | 8010 => some .MARKET_CLOSED_OR_PAUSED
  | 8011 => some .CLOSE_FAILED
  | 8012 => some .MAX_NOTITIONAL_VALUE_EXCEEDED
  | 8013 => some .GRID_EXPIRED_KYC_OR_RESTRICTED
  | 8014 => some .RULES_VIOLATED_STOPPED
  | 8015 => some .POSITION_EMPTY_OR_LIQUIDATED
  | _ => none

/-! ## Members and fields -/

/-- The members of the payload classes. -/
inductive Member where
  | eventType | asset | walletBalance | crossWalletBalance | balanceChange
  | pair | positionAmount | entryPrice | breakEvenPrice | realizedPNL | unrealizedPNL
  | isolatedWalletBalance | marginType | positionSide | markPrice | maintenanceMargin
  | clientID | originalQuantity | originalPrice | averagePrice | stopPrice | orderID
  | lastFilledQuantity | totalFilledQuantity | lastFilledPrice | commisionAsset | commision
  | tradeTimestamp | notitionalValueOfOrderB | notitionalValueOfOrderA | maker | reduceOnly
  | side | orderType | timeInForce | executionType | orderStatus | workingType
  | originalOrderType | stpMode | priceMatchMode | expireReason | closeAll | activationPrice
  | callBackRate | priceProtection | realizedProfit | GTDExprationTimestamp
  | orderSide | tradeID | timestamp | leverage | multiAssetMode
  | strategyID | strategyType | strategyStatus | updateTimestamp | opCode
  | unmatchedAveragePrice | unmatchedQuantity | unmatchedFee | matchedPNL | rejectReason
  deriving DecidableEq, Repr

/-- The value of a member, with doubles in `δ`. -/
inductive Value (δ : Type) where
  | basic (v : Order.Value)
  | double (d : δ)
  | accountUpdateType (x : AccountUpdateType)
  | marginType (x : MarginType)
  | executionType (x : ExecutionType)
  | expireReason (x : ExpireReason)
  | strategyType (x : StrategyType)
  | strategyStatus (x : StrategyStatus)
  | opCode (x : OpCode)
  deriving DecidableEq, Repr

/-- How a field is written. -/
inductive FieldType where
  | int64
  | bool
  | fixed
  | text
  /-- a name that the order responses have too -/
  | name (names : Names)
  | accountUpdateType
  | marginType
  | executionType
  | strategyType
  | strategyStatus
  | opCode
  | double
  | expireReason
  deriving DecidableEq, Repr

/-- `get_double_in_string` and `get_int64_in_string`. -/
structure InString (δ : Type) where
  double : Str → Option δ
  int64 : Str → Option Int

structure Field where
  member : Member
  key : Str
  type : FieldType
  deriving DecidableEq, Repr

/-- The string variables that names go through. -/
inductive Scratch where
  | intermediateString
  | eventType_
  | marginType
  | positionSide
  deriving DecidableEq, Repr

section Reads

variable {δ : Type} (P : InString δ)

/-- The value that a field stands for. -/
def FieldType.decode (field : Option JsonTree) : FieldType → Option (Value δ)
  | .int64 => (FieldReader.int64.decode field).map .basic
  | .bool => (FieldReader.bool.decode field).map .basic
  | .fixed => (FieldReader.fixed.decode field).map .basic
  | .text => (stringOf field).map (.basic ∘ .text)
  | .name names => (stringOf field).bind fun s => (names.convert s).map .basic
  | .accountUpdateType =>
      (stringOf field).bind fun s => (returnAccountUpdateType s).map .accountUpdateType
  | .marginType => (stringOf field).bind fun s => (returnMarginType s).map .marginType
  | .executionType => (stringOf field).bind fun s => (returnExecutionType s).map .executionType
  | .strategyType => (stringOf field).bind fun s => (returnStrategyType s).map .strategyType
  | .strategyStatus => (stringOf field).bind fun s => (returnStrategyStatus s).map .strategyStatus
  | .opCode => ((field.bind JsonTree.getInt64).bind returnOpCode).map .opCode
  | .double => ((stringOf field).bind P.double).map .double
  | .expireReason =>
      (((stringOf field).bind P.int64).bind returnExpireReason).map .expireReason

/-- The field is taken with a `get_string` whose error is ignored. -/
def FieldType.ignoresError : FieldType → Bool
  | .text | .name _ | .accountUpdateType | .marginType | .executionType | .strategyType
  | .strategyStatus => true
  | _ => false

/-- How the field is read; a name goes through `scratch`. -/
def Field.reader (scratch : Member → Scratch) (f : Field) :
    Reader JsonTree Scratch Str (Value δ) :=
  let text := fun o : JsonTree => stringOf (o.get f.key)
  match f.type with
  | .text => .lenient fun o => (text o).map (.basic ∘ .text)
  | .name names => .through (scratch f.member) text fun s => (names.convert s).map .basic
  | .accountUpdateType => .through (scratch f.member) text fun s =>
      (returnAccountUpdateType s).map .accountUpdateType
  | .marginType => .through (scratch f.member) text fun s =>
      (returnMarginType s).map .marginType
  | .executionType => .through (scratch f.member) text fun s =>
      (returnExecutionType s).map .executionType
  | .strategyType => .through (scratch f.member) text fun s =>
      (returnStrategyType s).map .strategyType
  | .strategyStatus => .through (scratch f.member) text fun s =>
      (returnStrategyStatus s).map .strategyStatus
  | type => .strict fun o => type.decode P (o.get f.key)

def readsOf (scratch : Member → Scratch) (fields : List Field) :
    List (Member × Reader JsonTree Scratch Str (Value δ)) :=
  fields.map fun f => (f.member, f.reader P scratch)

end Reads

/-! ## What each class reads

The keys in the order in which `parseFields` reads them. The order counts where one exception hides
the next, and where two names go through the same string variable. -/

open FieldType

/-- `obj["m"]` in `AccountUpdate` -/
def accountUpdateFields : List Field := [⟨.eventType, "m".toList, accountUpdateType⟩]

def assetFields : List Field :=
  [⟨.asset, "a".toList, text⟩, ⟨.walletBalance, "wb".toList, fixed⟩,
    ⟨.crossWalletBalance, "cw".toList, fixed⟩, ⟨.balanceChange, "bc".toList, fixed⟩]

def positionFields : List Field :=
  [⟨.pair, "s".toList, text⟩, ⟨.positionAmount, "pa".toList, fixed⟩,
    ⟨.entryPrice, "ep".toList, fixed⟩, ⟨.breakEvenPrice, "bep".toList, fixed⟩,
    ⟨.unrealizedPNL, "up".toList, fixed⟩, ⟨.marginType, "mt".toList, marginType⟩,
    ⟨.isolatedWalletBalance, "iw".toList, fixed⟩,
    ⟨.positionSide, "ps".toList, name returnPositionSide⟩]

def marginCallFields : List Field := [⟨.crossWalletBalance, "cw".toList, fixed⟩]

def marginPositionFields : List Field :=
  [⟨.pair, "s".toList, text⟩, ⟨.positionSide, "ps".toList, name returnPositionSide⟩,
    ⟨.positionAmount, "pa".toList, fixed⟩, ⟨.marginType, "mt".toList, marginType⟩,
    ⟨.isolatedWalletBalance, "iw".toList, fixed⟩, ⟨.markPrice, "mp".toList, fixed⟩,
    ⟨.unrealizedPNL, "up".toList, fixed⟩, ⟨.maintenanceMargin, "mm".toList, fixed⟩]

/-- `OrderUpdate` up to `cp` -/
def orderFieldsBefore : List Field :=
  [⟨.pair, "s".toList, text⟩, ⟨.clientID, "c".toList, text⟩,
    ⟨.side, "S".toList, name returnOrderSide⟩, ⟨.orderType, "o".toList, name returnOrderType⟩,
    ⟨.timeInForce, "f".toList, name returnTimeInForce⟩,
    ⟨.originalQuantity, "q".toList, fixed⟩, ⟨.originalPrice, "p".toList, fixed⟩,
    ⟨.averagePrice, "ap".toList, fixed⟩, ⟨.stopPrice, "sp".toList, fixed⟩,
    ⟨.executionType, "x".toList, executionType⟩,
    ⟨.orderStatus, "X".toList, name returnOrderStatus⟩, ⟨.orderID, "i".toList, int64⟩,
    ⟨.lastFilledQuantity, "l".toList, fixed⟩, ⟨.totalFilledQuantity, "z".toList, fixed⟩,
    ⟨.lastFilledPrice, "L".toList, fixed⟩, ⟨.commisionAsset, "N".toList, text⟩,
    ⟨.commision, "n".toList, fixed⟩, ⟨.tradeTimestamp, "T".toList, int64⟩,
    ⟨.notitionalValueOfOrderB, "b".toList, fixed⟩,
    ⟨.notitionalValueOfOrderA, "a".toList, fixed⟩, ⟨.maker, "m".toList, bool⟩,
    ⟨.reduceOnly, "R".toList, bool⟩, ⟨.workingType, "wt".toList, name returnWorkingType⟩,
    ⟨.originalOrderType, "ot".toList, name returnOrderType⟩,
    ⟨.positionSide, "ps".toList, name returnPositionSide⟩, ⟨.closeAll, "cp".toList, bool⟩]

/-- What is read of a trailing stop only. -/
def trailingStopFields : List Field :=
  [⟨.activationPrice, "AP".toList, fixed⟩, ⟨.callBackRate, "cr".toList, double⟩]

/-- `OrderUpdate` from `pP` on -/
def orderFieldsAfter : List Field :=
  [⟨.priceProtection, "pP".toList, bool⟩, ⟨.realizedProfit, "rp".toList, fixed⟩,
    ⟨.stpMode, "V".toList, name returnSTPMode⟩,
    ⟨.priceMatchMode, "pm".toList, name returnPriceMatchMode⟩,
    ⟨.GTDExprationTimestamp, "gtd".toList, int64⟩, ⟨.expireReason, "er".toList, expireReason⟩]

def tradeLiteFields : List Field :=
  [⟨.tradeTimestamp, "T".toList, int64⟩, ⟨.pair, "s".toList, text⟩,
    ⟨.originalQuantity, "q".toList, fixed⟩, ⟨.originalPrice, "p".toList, fixed⟩,
    ⟨.maker, "m".toList, bool⟩, ⟨.clientID, "c".toList, text⟩,
    ⟨.orderSide, "S".toList, name returnOrderSide⟩, ⟨.lastFilledPrice, "L".toList, fixed⟩,
    ⟨.lastFilledQuantity, "l".toList, fixed⟩, ⟨.tradeID, "t".toList, int64⟩,
    ⟨.orderID, "i".toList, int64⟩]

/-- `timestamp = doc["T"].get_int64().value()` -/
def timestampFields : List Field := [⟨.timestamp, "T".toList, int64⟩]

/-- `doc["ac"]` in `AccountConfigUpdate` -/
def leverageFields : List Field := [⟨.pair, "s".toList, text⟩, ⟨.leverage, "l".toList, int64⟩]

/-- `doc["ai"]` in `AccountConfigUpdate` -/
def multiAssetFields : List Field := [⟨.multiAssetMode, "j".toList, bool⟩]

def strategyFields : List Field :=
  [⟨.strategyID, "si".toList, int64⟩, ⟨.strategyType, "st".toList, strategyType⟩,
    ⟨.strategyStatus, "ss".toList, strategyStatus⟩, ⟨.pair, "s".toList, text⟩,
    ⟨.updateTimestamp, "ut".toList, int64⟩, ⟨.opCode, "c".toList, opCode⟩]

def gridFields : List Field :=
  [⟨.strategyID, "si".toList, int64⟩, ⟨.strategyType, "st".toList, strategyType⟩,
    ⟨.strategyStatus, "ss".toList, strategyStatus⟩, ⟨.pair, "s".toList, text⟩,
    ⟨.realizedPNL, "r".toList, fixed⟩, ⟨.unmatchedAveragePrice, "up".toList, fixed⟩,
    ⟨.unmatchedQuantity, "uq".toList, fixed⟩, ⟨.unmatchedFee, "uf".toList, fixed⟩,
    ⟨.matchedPNL, "mp".toList, fixed⟩, ⟨.updateTimestamp, "ut".toList, int64⟩]

def rejectFields : List Field :=
  [⟨.pair, "s".toList, text⟩, ⟨.orderID, "i".toList, int64⟩, ⟨.rejectReason, "r".toList, text⟩]

/-! ## The parsers -/

section Parse

variable {δ : Type}

abbrev Members (δ : Type) := Member → Option (Value δ)

/-- A payload class: its own members, and those of the elements of its vectors. -/
structure Payload (δ : Type) where
  members : Members δ
  assets : List (Members δ) := []
  positions : List (Members δ) := []

structure UserDataStream (δ : Type) where
  event : EventType := .UNKNOWN
  timestamp : Int := 0
  payload : Option (Payload δ) := none

/-- The members of a new object: strings are empty, and some have an initialiser. -/
def initialMembers [Zero δ] : Members δ
  | .pair | .clientID | .commisionAsset | .asset | .rejectReason => some (.basic (.text []))
  | .activationPrice => some (.basic (.fixed 0))
  | .callBackRate => some (.double 0)
  | .leverage => some (.basic (.int64 0))
  | .multiAssetMode => some (.basic (.bool false))
  | _ => none

/-- A new object, and empty string variables. -/
def initial [Zero δ] : State Member Scratch Str (Value δ) := ⟨initialMembers, fun _ => []⟩

/-- `get_object().value()` -/
def objectOf (field : Option JsonTree) : Option JsonTree := field.filter (·.getObject.isSome)

/-- `get_array().value()` -/
def arrayOf (field : Option JsonTree) : Option (List JsonTree) := field.bind JsonTree.getArray

variable [Zero δ] (P : InString δ)

/-- `marginType` and `positionSide` in the loops over positions. -/
def positionScratch (m : Member) : Scratch :=
  if m = .marginType then .marginType else .positionSide

/-- The reads of an object whose names go through `intermediateString`. -/
def readFields (fields : List Field) (o : JsonTree) (s : State Member Scratch Str (Value δ)) :
    Option (State Member Scratch Str (Value δ)) :=
  readAll o (readsOf P (fun _ => .intermediateString) fields) s

def AccountUpdate.parseFields (doc : JsonTree) : Option (Payload δ) := do
  let obj ← objectOf (doc.get "a".toList)
  let s ← readAll obj (readsOf P (fun _ => .eventType_) accountUpdateFields) initial
  let balanceArray ← arrayOf (obj.get "B".toList)
  let assets ← readEach (readsOf P (fun _ => .intermediateString) assetFields) balanceArray initial
  match obj.get "P".toList with
  | none => some { members := s.members, assets }
  | some positionField => do
      let positionArray ← positionField.getArray
      let positions ← readEach (readsOf P positionScratch positionFields) positionArray initial
      some { members := s.members, assets, positions }

def MarginCall.parseFields (doc : JsonTree) : Option (Payload δ) := do
  let s ← readFields P marginCallFields doc initial
  let positionsArray ← arrayOf (doc.get "p".toList)
  let positions ← readEach (readsOf P positionScratch marginPositionFields) positionsArray initial
  some { members := s.members, positions }

/-- `if(orderType == OrderType::TRAILING_STOP_MARKET) { … }` -/
def OrderUpdate.readTrailingStop (obj : JsonTree) (s : State Member Scratch Str (Value δ)) :
    Option (State Member Scratch Str (Value δ)) :=
  match s.members .orderType with
  | some (.basic (.orderType .TRAILING_STOP_MARKET)) => readFields P trailingStopFields obj s
  | _ => some s

def OrderUpdate.parseFields (doc : JsonTree) : Option (Payload δ) := do
  let obj ← objectOf (doc.get "o".toList)
  let s ← readFields P orderFieldsBefore obj initial
  let s ← OrderUpdate.readTrailingStop P obj s
  let s ← readFields P orderFieldsAfter obj s
  some { members := s.members }

def TradeLite.parseFields (doc : JsonTree) : Option (Payload δ) := do
  let s ← readFields P tradeLiteFields doc initial
  some { members := s.members }

def AccountConfigUpdate.parseFields (doc : JsonTree) : Option (Payload δ) := do
  let s ← readFields P timestampFields doc initial
  match doc.get "ac".toList with
  | some testIfLeverage => do
      let obj ← objectOf (some testIfLeverage)
      let s ← readFields P leverageFields obj s
      some { members := s.members }
  | none => do
      let obj ← objectOf (doc.get "ai".toList)
      let s ← readFields P multiAssetFields obj s
      some { members := s.members }

/-- The classes that read the time and then one object. -/
def parseTimed (key : Str) (fields : List Field) (doc : JsonTree) : Option (Payload δ) := do
  let s ← readFields P timestampFields doc initial
  let obj ← objectOf (doc.get key)
  let s ← readFields P fields obj s
  some { members := s.members }

def StrategyUpdate.parseFields : JsonTree → Option (Payload δ) :=
  parseTimed P "su".toList strategyFields

def GridUpdate.parseFields : JsonTree → Option (Payload δ) :=
  parseTimed P "gu".toList gridFields

def ConditionalOrderReject.parseFields : JsonTree → Option (Payload δ) :=
  parseTimed P "or".toList rejectFields

/-- The functions of `userDataStreamParsers.hpp`: the event time, and then the payload. -/
def withEventTime (event : EventType) (doc : JsonTree) (payload : Option (Payload δ)) :
    Option (UserDataStream δ) := do
  let eventTime ← (doc.get "E".toList).bind JsonTree.getInt64
  let payload ← payload
  some ⟨event, eventTime, some payload⟩

/-- The event that a message announces. -/
def eventOf (doc : JsonTree) : EventType :=
  returnEventType ((stringOf (doc.get "e".toList)).getD [])

/-- `parseUserDataStream`; `none` when it throws. -/
def parseUserDataStream (doc : JsonTree) : Option (UserDataStream δ) :=
  match eventOf doc with
  | .ACCOUNT_UPDATE => withEventTime .ACCOUNT_UPDATE doc (AccountUpdate.parseFields P doc)
  | .MARGIN_CALL => withEventTime .MARGIN_CALL doc (MarginCall.parseFields P doc)
  | .ORDER_UPDATE => withEventTime .ORDER_UPDATE doc (OrderUpdate.parseFields P doc)
  | .TRADE_LITE => withEventTime .TRADE_LITE doc (TradeLite.parseFields P doc)
  | .ACCOUNT_CONFIG_UPDATE =>
      withEventTime .ACCOUNT_CONFIG_UPDATE doc (AccountConfigUpdate.parseFields P doc)
  | .STRATEGY_UPDATE => withEventTime .STRATEGY_UPDATE doc (StrategyUpdate.parseFields P doc)
  | .GRID_UPDATE => withEventTime .GRID_UPDATE doc (GridUpdate.parseFields P doc)
  | .CONDITIONAL_ORDER_REJECT =>
      withEventTime .CONDITIONAL_ORDER_REJECT doc (ConditionalOrderReject.parseFields P doc)
  | .ALGO_UPDATE | .LISTEN_KEY_EXPIRED | .UNKNOWN => some {}

end Parse

end AstraConnect.UserData
