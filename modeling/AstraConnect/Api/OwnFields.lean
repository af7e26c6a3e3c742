import AstraConnect.Api.UserDataEvents

set_option autoImplicit false

/-! # User data events carry their own fields

The tables here are those of the documents under `doc/payloads/streams`: which key stands for which
member, and which keys may be left out. They are compared with the keys that the parsers read.

A key that is taken with `get_string` can be missed without an exception, and its member then keeps
an empty string, or what an earlier key or an earlier element has left. So an event that is returned
has its own values if and only if none of these keys is missing or something else than a string,
there is no position in an account update (`realizedPNL` of a position is never assigned), and keys
that are read in some cases only have nothing to say in the others (`own_fields_iff`).
-/

namespace AstraConnect.UserData

open AstraConnect.Order FieldReading FieldType

/-! ## The documented keys

One table for each object of the documents, in the order in which they list the keys, with the keys
that may be missing in tables of their own. -/

/-- `user-account-update.md`: in `a` -/
def documentedAccount : List Field := [⟨.eventType, "m".toList, accountUpdateType⟩]

/-- `user-account-update.md`: in an element of `B` -/
def documentedAsset : List Field :=
  [⟨.asset, "a".toList, text⟩, ⟨.walletBalance, "wb".toList, fixed⟩,
    ⟨.crossWalletBalance, "cw".toList, fixed⟩, ⟨.balanceChange, "bc".toList, fixed⟩]

/-- `user-account-update.md`: in an element of `P` -/
def documentedPosition : List Field :=
  [⟨.pair, "s".toList, text⟩, ⟨.positionAmount, "pa".toList, fixed⟩,
    ⟨.entryPrice, "ep".toList, fixed⟩, ⟨.breakEvenPrice, "bep".toList, fixed⟩,
    ⟨.realizedPNL, "cr".toList, fixed⟩, ⟨.unrealizedPNL, "up".toList, fixed⟩,
    ⟨.marginType, "mt".toList, marginType⟩, ⟨.isolatedWalletBalance, "iw".toList, fixed⟩,
    ⟨.positionSide, "ps".toList, name returnPositionSide⟩]

/-- `user-margin-call.md` -/
def documentedMarginCall : List Field := [⟨.crossWalletBalance, "cw".toList, fixed⟩]

/-- `user-margin-call.md`: in an element of `p` -/
def documentedMarginPosition : List Field :=
  [⟨.pair, "s".toList, text⟩, ⟨.positionSide, "ps".toList, name returnPositionSide⟩,
    ⟨.positionAmount, "pa".toList, fixed⟩, ⟨.marginType, "mt".toList, marginType⟩,
    ⟨.isolatedWalletBalance, "iw".toList, fixed⟩, ⟨.markPrice, "mp".toList, fixed⟩,
    ⟨.unrealizedPNL, "up".toList, fixed⟩, ⟨.maintenanceMargin, "mm".toList, fixed⟩]

/-- `user-order-update.md`: in `o` -/
def documentedOrder : List Field :=
  [⟨.pair, "s".toList, text⟩, ⟨.clientID, "c".toList, text⟩,
    ⟨.side, "S".toList, name returnOrderSide⟩, ⟨.orderType, "o".toList, name returnOrderType⟩,
    ⟨.timeInForce, "f".toList, name returnTimeInForce⟩,
    ⟨.originalQuantity, "q".toList, fixed⟩, ⟨.originalPrice, "p".toList, fixed⟩,
    ⟨.averagePrice, "ap".toList, fixed⟩, ⟨.stopPrice, "sp".toList, fixed⟩,
    ⟨.executionType, "x".toList, executionType⟩,
    ⟨.orderStatus, "X".toList, name returnOrderStatus⟩, ⟨.orderID, "i".toList, int64⟩,
    ⟨.lastFilledQuantity, "l".toList, fixed⟩, ⟨.totalFilledQuantity, "z".toList, fixed⟩,
    ⟨.lastFilledPrice, "L".toList, fixed⟩, ⟨.commisionAsset, "N".toList, text⟩,
    ⟨.commision, "n".toList, fixed⟩, ⟨.tradeTimestamp, "T".toList, int64⟩,
    ⟨.notitionalValueOfOrderB, "b".toList, fixed⟩,
    ⟨.notitionalValueOfOrderA, "a".toList, fixed⟩, ⟨.maker, "m".toList, bool⟩,
    ⟨.reduceOnly, "R".toList, bool⟩, ⟨.workingType, "wt".toList, name returnWorkingType⟩,
    ⟨.originalOrderType, "ot".toList, name returnOrderType⟩,
    ⟨.positionSide, "ps".toList, name returnPositionSide⟩, ⟨.closeAll, "cp".toList, bool⟩,
    ⟨.priceProtection, "pP".toList, bool⟩, ⟨.realizedProfit, "rp".toList, fixed⟩,
    ⟨.stpMode, "V".toList, name returnSTPMode⟩,
    ⟨.priceMatchMode, "pm".toList, name returnPriceMatchMode⟩,
    ⟨.GTDExprationTimestamp, "gtd".toList, int64⟩, ⟨.expireReason, "er".toList, expireReason⟩]

/-- `user-order-update.md`: the keys of `o` that are pushed with a trailing stop only -/
def documentedTrailingStop : List Field :=
  [⟨.activationPrice, "AP".toList, fixed⟩, ⟨.callBackRate, "cr".toList, double⟩]

/-- `user-trade-lite.md` -/
def documentedTradeLite : List Field :=
  [⟨.tradeTimestamp, "T".toList, int64⟩, ⟨.pair, "s".toList, text⟩,
    ⟨.originalQuantity, "q".toList, fixed⟩, ⟨.originalPrice, "p".toList, fixed⟩,
    ⟨.maker, "m".toList, bool⟩, ⟨.clientID, "c".toList, text⟩,
    ⟨.orderSide, "S".toList, name returnOrderSide⟩, ⟨.lastFilledPrice, "L".toList, fixed⟩,
    ⟨.lastFilledQuantity, "l".toList, fixed⟩, ⟨.tradeID, "t".toList, int64⟩,
    ⟨.orderID, "i".toList, int64⟩]

/-- `T` of the messages whose classes have a `timestamp` -/
def documentedTime : List Field := [⟨.timestamp, "T".toList, int64⟩]

/-- `user-account-config-update.md`: in `ac` -/
def documentedLeverage : List Field :=
  [⟨.pair, "s".toList, text⟩, ⟨.leverage, "l".toList, int64⟩]

/-- `user-account-config-update.md`: in `ai` -/
def documentedMultiAsset : List Field := [⟨.multiAssetMode, "j".toList, bool⟩]

/-- `user-strategy-update.md`: in `su` -/
def documentedStrategy : List Field :=
  [⟨.strategyID, "si".toList, int64⟩, ⟨.strategyType, "st".toList, strategyType⟩,
    ⟨.strategyStatus, "ss".toList, strategyStatus⟩, ⟨.pair, "s".toList, text⟩,
    ⟨.updateTimestamp, "ut".toList, int64⟩, ⟨.opCode, "c".toList, opCode⟩]

/-- `user-grid-update.md`: in `gu` -/
def documentedGrid : List Field :=
  [⟨.strategyID, "si".toList, int64⟩, ⟨.strategyType, "st".toList, strategyType⟩,
    ⟨.strategyStatus, "ss".toList, strategyStatus⟩, ⟨.pair, "s".toList, text⟩,
    ⟨.realizedPNL, "r".toList, fixed⟩, ⟨.unmatchedAveragePrice, "up".toList, fixed⟩,
    ⟨.unmatchedQuantity, "uq".toList, fixed⟩, ⟨.unmatchedFee, "uf".toList, fixed⟩,
    ⟨.matchedPNL, "mp".toList, fixed⟩, ⟨.updateTimestamp, "ut".toList, int64⟩]

/-- `user-conditional-order-reject.md`: in `or` -/
def documentedReject : List Field :=
  [⟨.pair, "s".toList, text⟩, ⟨.orderID, "i".toList, int64⟩, ⟨.rejectReason, "r".toList, text⟩]

/-! ## Own values -/

section Own

variable {δ : Type} (P : InString δ)

/-- Each member of the table is what its key stands for in the object. -/
def OwnFields (fields : List Field) (o : JsonTree) (members : Members δ) : Prop :=
  ∀ f ∈ fields, (f.type.decode P (o.get f.key)).isSome ∧
    members f.member = f.type.decode P (o.get f.key)

/-- One row for each element of the array, with its own values. -/
def OwnRows (fields : List Field) (field : Option JsonTree) (rows : List (Members δ)) : Prop :=
  ∃ elems, arrayOf field = some elems ∧ List.Forall₂ (OwnFields P fields) elems rows

/-- The keys that are taken with `get_string` are strings. -/
def StringsGiven (fields : List Field) (o : JsonTree) : Prop :=
  ∀ f ∈ fields, f.type.ignoresError = true → (stringOf (o.get f.key)).isSome

def RowStringsGiven (fields : List Field) (field : Option JsonTree) : Prop :=
  ∀ elems, arrayOf field = some elems → ∀ elem ∈ elems, StringsGiven fields elem

variable [Zero δ]

/-- The key has its value, or it is left out and the member is that of a new object. -/
def OwnIfThere (f : Field) (o : JsonTree) (members : Members δ) : Prop :=
  (o.get f.key = none ∧ members f.member = initialMembers f.member) ∨
    ((f.type.decode P (o.get f.key)).isSome ∧
      members f.member = f.type.decode P (o.get f.key))

/-- The object has its values, or it is left out and the members are those of a new one. -/
def OwnObject (fields : List Field) (field : Option JsonTree) (members : Members δ) : Prop :=
  match field with
  | none => ∀ f ∈ fields, members f.member = initialMembers f.member
  | some o => OwnFields P fields o members

/-- The payload of an event has the values of the message. -/
def OwnPayload (doc : JsonTree) (payload : Payload δ) : EventType → Prop
  | .ACCOUNT_UPDATE =>
      ∃ obj, doc.get "a".toList = some obj ∧ OwnFields P documentedAccount obj payload.members ∧
        OwnRows P documentedAsset (obj.get "B".toList) payload.assets ∧
        match obj.get "P".toList with
        | none => payload.positions = []
        | some field => OwnRows P documentedPosition (some field) payload.positions
  | .MARGIN_CALL =>
      OwnFields P documentedMarginCall doc payload.members ∧
        OwnRows P documentedMarginPosition (doc.get "p".toList) payload.positions
  | .ORDER_UPDATE =>
      ∃ obj, doc.get "o".toList = some obj ∧ OwnFields P documentedOrder obj payload.members ∧
        ∀ f ∈ documentedTrailingStop, OwnIfThere P f obj payload.members
  | .TRADE_LITE => OwnFields P documentedTradeLite doc payload.members
  | .ACCOUNT_CONFIG_UPDATE =>
      OwnFields P documentedTime doc payload.members ∧
        OwnObject P documentedLeverage (doc.get "ac".toList) payload.members ∧
        OwnObject P documentedMultiAsset (doc.get "ai".toList) payload.members
  | .STRATEGY_UPDATE =>
      OwnFields P documentedTime doc payload.members ∧
        ∃ obj, doc.get "su".toList = some obj ∧ OwnFields P documentedStrategy obj payload.members
  | .GRID_UPDATE =>
      OwnFields P documentedTime doc payload.members ∧
        ∃ obj, doc.get "gu".toList = some obj ∧ OwnFields P documentedGrid obj payload.members
  | .CONDITIONAL_ORDER_REJECT =>
      OwnFields P documentedTime doc payload.members ∧
        ∃ obj, doc.get "or".toList = some obj ∧ OwnFields P documentedReject obj payload.members
  | .ALGO_UPDATE | .LISTEN_KEY_EXPIRED | .UNKNOWN => False

/-- The event is the one announced, at its own time and with its own payload. -/
def OwnEvent (doc : JsonTree) (ev : UserDataStream δ) : Prop :=
  ev.event = eventOf doc ∧ (doc.get "E".toList).bind JsonTree.getInt64 = some ev.timestamp ∧
    ∃ payload, ev.payload = some payload ∧ OwnPayload P doc payload ev.event

/-! ## Messages in which nothing can be missed

The condition is read off the message alone: for each event, which of its keys are taken with an
ignored error, and which are read in one case and documented in another. -/

def IsTrailingStop (obj : JsonTree) : Prop :=
  (name returnOrderType).decode P (obj.get "o".toList) =
    some (.basic (.orderType .TRAILING_STOP_MARKET))

/-- The key is left out, or it says what a new object has. -/
def SaysNothing (f : Field) (o : JsonTree) : Prop :=
  o.get f.key = none ∨ f.type.decode P (o.get f.key) = initialMembers f.member

/-- Every key of the event that is taken with `get_string` is a string; an account update has no
position, an order that is no trailing stop has no value for its two keys, and an update of the
leverage none for the multi-assets mode. -/
def Unmistakable (doc : JsonTree) : EventType → Prop
  | .ACCOUNT_UPDATE =>
      ∀ obj, doc.get "a".toList = some obj → StringsGiven documentedAccount obj ∧
        RowStringsGiven documentedAsset (obj.get "B".toList) ∧
        ∀ field, obj.get "P".toList = some field → field.getArray = some []
  | .MARGIN_CALL => RowStringsGiven documentedMarginPosition (doc.get "p".toList)
  | .ORDER_UPDATE =>
      ∀ obj, doc.get "o".toList = some obj → StringsGiven documentedOrder obj ∧
        (¬ IsTrailingStop P obj → ∀ f ∈ documentedTrailingStop, SaysNothing P f obj)
  | .TRADE_LITE => StringsGiven documentedTradeLite doc
  | .ACCOUNT_CONFIG_UPDATE =>
      ∀ ac, doc.get "ac".toList = some ac → StringsGiven documentedLeverage ac ∧
        ∀ ai, doc.get "ai".toList = some ai → ∀ f ∈ documentedMultiAsset,
          f.type.decode P (ai.get f.key) = initialMembers f.member
  | .STRATEGY_UPDATE =>
      ∀ obj, doc.get "su".toList = some obj → StringsGiven documentedStrategy obj
  | .GRID_UPDATE => ∀ obj, doc.get "gu".toList = some obj → StringsGiven documentedGrid obj
  | .CONDITIONAL_ORDER_REJECT =>
      ∀ obj, doc.get "or".toList = some obj → StringsGiven documentedReject obj
  | .ALGO_UPDATE | .LISTEN_KEY_EXPIRED | .UNKNOWN => True

end Own

/-! ## The tables and the parsers -/

theorem documentedOrder_eq : documentedOrder = orderFieldsBefore ++ orderFieldsAfter := by
  decide

theorem documentedPosition_perm :
    documentedPosition.Perm (⟨.realizedPNL, "cr".toList, fixed⟩ :: positionFields) := by
  decide

section Fields

variable {δ : Type} {P : InString δ} {scratch : Member → Scratch} {fields : List Field}
  {o : JsonTree} {members : Members δ} {s s' : State Member Scratch Str (Value δ)} {m : Member}

theorem reader_own (f : Field) (scratch : Member → Scratch) (o : JsonTree) :
    (f.reader P scratch).own o = f.type.decode P (o.get f.key) := by
  rcases f with ⟨m, key, type⟩
  cases type <;> rfl

theorem reader_given_iff (f : Field) :
    (f.reader P scratch).Given o ↔
      (f.type.ignoresError = true → (stringOf (o.get f.key)).isSome) := by
  rcases f with ⟨m, key, type⟩
  cases type <;> simp [Field.reader, Reader.Given, FieldType.ignoresError]

theorem own_readsOf_iff :
    Own (readsOf P scratch fields) o members ↔ OwnFields P fields o members := by
  simp only [Own, readsOf, List.forall_mem_map, reader_own, OwnFields]

theorem allGiven_readsOf_iff (P : InString δ) (scratch : Member → Scratch) (fields : List Field)
    (o : JsonTree) : AllGiven (readsOf P scratch fields) o ↔ StringsGiven fields o := by
  simp only [AllGiven, readsOf, List.forall_mem_map, reader_given_iff, StringsGiven]

theorem readsOf_members : (readsOf P scratch fields).map Prod.fst = fields.map Field.member := by
  rw [readsOf, List.map_map]
  rfl

theorem fields_frame (h : readAll o (readsOf P scratch fields) s = some s')
    (hm : m ∉ fields.map Field.member) : s'.members m = s.members m :=
  readAll_frame h (by rwa [readsOf_members])

/-- **One object.** Its members are its own exactly when every string was given. -/
theorem fields_own_iff (hnodup : (fields.map Field.member).Nodup)
    (h : readAll o (readsOf P scratch fields) s = some s') :
    OwnFields P fields o s'.members ↔ StringsGiven fields o := by
  rw [← own_readsOf_iff, ← allGiven_readsOf_iff P scratch]
  exact readAll_own_iff (by rwa [readsOf_members]) h

/-- **One array.** -/
theorem rows_own_iff {elems : List JsonTree} {rows : List (Members δ)}
    (hnodup : (fields.map Field.member).Nodup)
    (h : readEach (readsOf P scratch fields) elems s = some rows) :
    List.Forall₂ (OwnFields P fields) elems rows ↔ ∀ elem ∈ elems, StringsGiven fields elem := by
  have hown : (OwnFields P fields : JsonTree → Members δ → Prop) =
      Own (readsOf P scratch fields) := by
    funext o members
    exact propext own_readsOf_iff.symm
  rw [hown, readEach_own_iff (by rwa [readsOf_members]) h]
  exact forall₂_congr fun elem _ => allGiven_readsOf_iff P scratch fields elem

theorem ownFields_congr {members' : Members δ}
    (h : ∀ m ∈ fields.map Field.member, members' m = members m) :
    OwnFields P fields o members' ↔ OwnFields P fields o members := by
  refine forall₂_congr fun f hf => ?_
  rw [h f.member (List.mem_map_of_mem hf)]

/-- A table without strings. -/
theorem stringsGiven_of_strict (h : ∀ f ∈ fields, f.type.ignoresError = false) :
    StringsGiven fields o := by
  intro f hf hignores
  rw [h f hf] at hignores
  cases hignores

/-- The table of a class without strings is its own. -/
theorem own_of_strict (hnodup : (fields.map Field.member).Nodup)
    (hstrict : ∀ f ∈ fields, f.type.ignoresError = false)
    (h : readAll o (readsOf P scratch fields) s = some s') : OwnFields P fields o s'.members :=
  (fields_own_iff hnodup h).mpr (stringsGiven_of_strict hstrict)

/-- What is read of a trailing stop, or nothing. -/
theorem readTrailingStop_cases (h : OrderUpdate.readTrailingStop P o s = some s') :
    (s.members .orderType = some (.basic (.orderType .TRAILING_STOP_MARKET)) ∧
        readFields P trailingStopFields o s = some s') ∨
      (s.members .orderType ≠ some (.basic (.orderType .TRAILING_STOP_MARKET)) ∧ s' = s) := by
  unfold OrderUpdate.readTrailingStop at h
  split at h
  · rename_i htype
    exact Or.inl ⟨htype, h⟩
  · rename_i hother
    exact Or.inr ⟨hother, (Option.some.inj h).symm⟩

theorem readTrailingStop_frame (h : OrderUpdate.readTrailingStop P o s = some s')
    (hm : m ∉ trailingStopFields.map Field.member) : s'.members m = s.members m := by
  rcases readTrailingStop_cases h with ⟨-, hread⟩ | ⟨-, rfl⟩
  · exact fields_frame hread hm
  · rfl

/-- The members read before the trailing stop are not written again. -/
theorem order_before {s₁ s₂ s₃ : State Member Scratch Str (Value δ)}
    (hs₂ : OrderUpdate.readTrailingStop P o s₁ = some s₂)
    (hs₃ : readFields P orderFieldsAfter o s₂ = some s₃) :
    ∀ m ∈ orderFieldsBefore.map Field.member, s₃.members m = s₁.members m := by
  have hdisjoint : ∀ m ∈ orderFieldsBefore.map Field.member,
      m ∉ orderFieldsAfter.map Field.member ∧ m ∉ trailingStopFields.map Field.member := by
    decide
  intro m hm
  calc s₃.members m = s₂.members m := fields_frame hs₃ (hdisjoint m hm).1
    _ = s₁.members m := readTrailingStop_frame hs₂ (hdisjoint m hm).2

end Fields

/-! ## The events

An event is put together from objects and arrays as in its `parseFields`, and its equivalence from
theirs. An account update and an update of an order need more: the one for the position member that
is never assigned, the other for the keys of a trailing stop. -/

section Events

variable {δ : Type} [Zero δ] {P : InString δ} {doc : JsonTree} {payload : Payload δ}

theorem objectOf_eq_some {field : Option JsonTree} {obj : JsonTree}
    (h : objectOf field = some obj) : field = some obj := (Option.filter_eq_some_iff.mp h).1

/-- A position never has a value for `realizedPNL`. -/
theorem positions_own_iff {elems : List JsonTree} {positions : List (Members δ)}
    (h : readEach (readsOf P positionScratch positionFields) elems initial = some positions) :
    List.Forall₂ (OwnFields P documentedPosition) elems positions ↔ elems = [] := by
  cases elems with
  | nil =>
      obtain rfl := Option.some.inj h
      exact iff_of_true .nil rfl
  | cons elem rest =>
      refine iff_of_false (fun hown => ?_) (List.cons_ne_nil elem rest)
      obtain ⟨t, tail, ht, -, rfl⟩ := readEach_cons h
      have hnone : t.members .realizedPNL = none := fields_frame ht (by decide)
      have hmem : (⟨.realizedPNL, "cr".toList, fixed⟩ : Field) ∈ documentedPosition :=
        documentedPosition_perm.mem_iff.mpr (List.mem_cons_self ..)
      obtain ⟨hsome, hvalue⟩ := (List.forall₂_cons.mp hown).1 _ hmem
      rw [← hvalue, hnone] at hsome
      cases hsome

theorem accountUpdate_own_iff (h : AccountUpdate.parseFields P doc = some payload) :
    OwnPayload P doc payload .ACCOUNT_UPDATE ↔ Unmistakable P doc .ACCOUNT_UPDATE := by
  obtain ⟨obj, hobj, h⟩ := Option.bind_eq_some_iff.mp h
  obtain ⟨s, hs, h⟩ := Option.bind_eq_some_iff.mp h
  obtain ⟨elems, helems, h⟩ := Option.bind_eq_some_iff.mp h
  obtain ⟨assets, hassets, h⟩ := Option.bind_eq_some_iff.mp h
  have hhead := fields_own_iff (by decide) hs
  have hrows := rows_own_iff (by decide) hassets
  have hdoc := objectOf_eq_some hobj
  simp only [OwnPayload, Unmistakable, hdoc, Option.some.injEq, exists_eq_left', forall_eq',
    OwnRows, RowStringsGiven, helems]
  rcases hfield : obj.get "P".toList with - | field
  · rw [hfield] at h
    obtain rfl := Option.some.inj h
    refine and_congr hhead (and_congr hrows (iff_of_true rfl ?_))
    intro field hsome
    cases hsome
  · rw [hfield] at h
    obtain ⟨positionArray, harray, h⟩ := Option.bind_eq_some_iff.mp h
    obtain ⟨positions, hpositions, h⟩ := Option.bind_eq_some_iff.mp h
    obtain rfl := Option.some.inj h
    refine and_congr hhead (and_congr hrows ?_)
    have hown := positions_own_iff hpositions
    have harray' : arrayOf (some field) = some positionArray := harray
    simp only [harray', Option.some.injEq, exists_eq_left', forall_eq', hown]
    rw [harray, Option.some.injEq]

theorem marginCall_own_iff (h : MarginCall.parseFields P doc = some payload) :
    OwnPayload P doc payload .MARGIN_CALL ↔ Unmistakable P doc .MARGIN_CALL := by
  obtain ⟨s, hs, h⟩ := Option.bind_eq_some_iff.mp h
  obtain ⟨elems, helems, h⟩ := Option.bind_eq_some_iff.mp h
  obtain ⟨positions, hpositions, h⟩ := Option.bind_eq_some_iff.mp h
  obtain rfl := Option.some.inj h
  have hhead : OwnFields P documentedMarginCall doc s.members :=
    own_of_strict (by decide) (by decide) hs
  have hrows := rows_own_iff (by decide) hpositions
  simp only [OwnPayload, Unmistakable, OwnRows, RowStringsGiven, helems, Option.some.injEq,
    exists_eq_left', forall_eq']
  exact (and_iff_right hhead).trans hrows

theorem tradeLite_own_iff (h : TradeLite.parseFields P doc = some payload) :
    OwnPayload P doc payload .TRADE_LITE ↔ Unmistakable P doc .TRADE_LITE := by
  obtain ⟨s, hs, h⟩ := Option.bind_eq_some_iff.mp h
  obtain rfl := Option.some.inj h
  exact fields_own_iff (by decide) hs

/-- The classes that read the time and then one object. -/
theorem parseTimed_own_iff {key : Str} {fields : List Field}
    (hnodup : (fields.map Field.member).Nodup) (htime : .timestamp ∉ fields.map Field.member)
    (h : parseTimed P key fields doc = some payload) :
    (OwnFields P documentedTime doc payload.members ∧
        ∃ obj, doc.get key = some obj ∧ OwnFields P fields obj payload.members) ↔
      ∀ obj, doc.get key = some obj → StringsGiven fields obj := by
  obtain ⟨s, hs, h⟩ := Option.bind_eq_some_iff.mp h
  obtain ⟨obj, hobj, h⟩ := Option.bind_eq_some_iff.mp h
  obtain ⟨s', hs', h⟩ := Option.bind_eq_some_iff.mp h
  obtain rfl := Option.some.inj h
  have hown : OwnFields P documentedTime doc s.members :=
    own_of_strict (by decide) (by decide) hs
  have hkept : OwnFields P documentedTime doc s'.members := by
    refine (ownFields_congr fun m hm => ?_).mpr hown
    obtain rfl : m = .timestamp := List.mem_singleton.mp hm
    exact fields_frame hs' htime
  rw [and_iff_right hkept, objectOf_eq_some hobj]
  simp only [Option.some.injEq, exists_eq_left', forall_eq']
  exact fields_own_iff hnodup hs'

/-- The members that a new object has, as long as nobody reads them. -/
theorem initial_frame {fields others : List Field} {scratch : Member → Scratch} {o : JsonTree}
    {s s' : State Member Scratch Str (Value δ)}
    (hs : ∀ f ∈ others, s.members f.member = initialMembers f.member)
    (hdisjoint : ∀ f ∈ others, f.member ∉ fields.map Field.member)
    (h : readAll o (readsOf P scratch fields) s = some s') :
    ∀ f ∈ others, s'.members f.member = initialMembers f.member := by
  intro f hf
  rw [fields_frame h (hdisjoint f hf), hs f hf]

/-- The multi-assets mode that is not read is that of a new object. -/
theorem unreadMode_own_iff {ai : JsonTree} {members : Members δ}
    (hnew : ∀ f ∈ documentedMultiAsset, members f.member = initialMembers f.member) :
    OwnFields P documentedMultiAsset ai members ↔
      ∀ f ∈ documentedMultiAsset, f.type.decode P (ai.get f.key) = initialMembers f.member := by
  refine forall₂_congr fun f hf => ?_
  rw [hnew f hf]
  obtain rfl := List.mem_singleton.mp hf
  constructor
  · exact fun hvalue => hvalue.2.symm
  · intro hvalue
    rw [hvalue]
    exact ⟨rfl, rfl⟩

theorem accountConfigUpdate_own_iff (h : AccountConfigUpdate.parseFields P doc = some payload) :
    OwnPayload P doc payload .ACCOUNT_CONFIG_UPDATE ↔
      Unmistakable P doc .ACCOUNT_CONFIG_UPDATE := by
  obtain ⟨s, hs, h⟩ := Option.bind_eq_some_iff.mp h
  have hown : OwnFields P documentedTime doc s.members :=
    own_of_strict (by decide) (by decide) hs
  have hnew : ∀ fields : List Field, (∀ f ∈ fields, f.member ∉ timestampFields.map Field.member) →
      ∀ f ∈ fields, s.members f.member = initialMembers f.member := fun fields hdisjoint =>
    initial_frame (fun f _ => rfl) hdisjoint hs
  have htime : ∀ m ∈ documentedTime.map Field.member, m = .timestamp := fun m hm =>
    List.mem_singleton.mp hm
  unfold OwnPayload Unmistakable
  rcases hac : doc.get "ac".toList with - | ac
  · -- the multi-assets mode, which has no strings
    rw [hac] at h
    obtain ⟨ai, hai, h⟩ := Option.bind_eq_some_iff.mp h
    obtain ⟨s', hs', h⟩ := Option.bind_eq_some_iff.mp h
    obtain rfl := Option.some.inj h
    rw [objectOf_eq_some hai]
    refine iff_of_true ⟨(ownFields_congr fun m hm => ?_).mpr hown, ?_, ?_⟩ (fun ac hsome => ?_)
    · exact fields_frame hs' (by rw [htime m hm]; decide)
    · exact initial_frame (hnew documentedLeverage (by decide)) (by decide) hs'
    · exact own_of_strict (by decide) (by decide) hs'
    · cases hsome
  · rw [hac] at h
    obtain ⟨obj, hobj, h⟩ := Option.bind_eq_some_iff.mp h
    obtain ⟨s', hs', h⟩ := Option.bind_eq_some_iff.mp h
    obtain rfl := Option.some.inj h
    obtain rfl : ac = obj := Option.some.inj (objectOf_eq_some hobj)
    have hkept : OwnFields P documentedTime doc s'.members :=
      (ownFields_congr fun m hm => fields_frame hs' (by rw [htime m hm]; decide)).mpr hown
    have hmode := initial_frame (hnew documentedMultiAsset (by decide)) (by decide) hs'
    have hleverage : OwnFields P documentedLeverage ac s'.members ↔
        StringsGiven documentedLeverage ac := fields_own_iff (by decide) hs'
    simp only [Option.some.injEq, forall_eq', OwnObject]
    refine (and_iff_right hkept).trans (and_congr hleverage ?_)
    rcases doc.get "ai".toList with - | ai
    · refine iff_of_true hmode (fun ai hsome => ?_)
      cases hsome
    · simp only [Option.some.injEq, forall_eq']
      exact unreadMode_own_iff hmode

/-- A member that was never read, where the key may be left out. -/
theorem ownIfThere_iff {f : Field} {o : JsonTree} {members : Members δ}
    (hnew : members f.member = initialMembers f.member)
    (hsome : (initialMembers f.member : Option (Value δ)).isSome) :
    OwnIfThere P f o members ↔ SaysNothing P f o := by
  rw [OwnIfThere, SaysNothing, hnew]
  constructor
  · rintro (⟨hnone, -⟩ | ⟨-, hvalue⟩)
    · exact Or.inl hnone
    · exact Or.inr hvalue.symm
  · rintro (hnone | hvalue)
    · exact Or.inl ⟨hnone, rfl⟩
    · exact Or.inr ⟨by rw [hvalue]; exact hsome, hvalue.symm⟩

section OrderUpdate

variable {obj : JsonTree} {s₁ s₂ s₃ : State Member Scratch Str (Value δ)}

theorem order_fields_own_iff (hs₁ : readFields P orderFieldsBefore obj initial = some s₁)
    (hs₂ : OrderUpdate.readTrailingStop P obj s₁ = some s₂)
    (hs₃ : readFields P orderFieldsAfter obj s₂ = some s₃) :
    OwnFields P documentedOrder obj s₃.members ↔ StringsGiven documentedOrder obj := by
  have hown₁ := fields_own_iff (by decide) hs₁
  have hown₃ := fields_own_iff (by decide) hs₃
  have happend : OwnFields P (orderFieldsBefore ++ orderFieldsAfter) obj s₃.members ↔
      OwnFields P orderFieldsBefore obj s₃.members ∧
        OwnFields P orderFieldsAfter obj s₃.members := List.forall_mem_append
  have hgiven : StringsGiven (orderFieldsBefore ++ orderFieldsAfter) obj ↔
      StringsGiven orderFieldsBefore obj ∧ StringsGiven orderFieldsAfter obj :=
    List.forall_mem_append
  rw [documentedOrder_eq, happend, hgiven, ownFields_congr (order_before hs₂ hs₃), hown₁, hown₃]

/-- The two keys of a trailing stop, after a type that is the one of the message. -/
theorem trailingStop_own_iff (hs₁ : readFields P orderFieldsBefore obj initial = some s₁)
    (hs₂ : OrderUpdate.readTrailingStop P obj s₁ = some s₂)
    (hs₃ : readFields P orderFieldsAfter obj s₂ = some s₃)
    (htype : s₁.members .orderType = (name returnOrderType).decode P (obj.get "o".toList)) :
    (∀ f ∈ documentedTrailingStop, OwnIfThere P f obj s₃.members) ↔
      (¬ IsTrailingStop P obj → ∀ f ∈ documentedTrailingStop, SaysNothing P f obj) := by
  have hafter : ∀ f ∈ trailingStopFields, s₃.members f.member = s₂.members f.member := by
    have hdisjoint : ∀ f ∈ trailingStopFields, f.member ∉ orderFieldsAfter.map Field.member := by
      decide
    exact fun f hf => fields_frame hs₃ (hdisjoint f hf)
  rcases readTrailingStop_cases hs₂ with ⟨htrailing, hread⟩ | ⟨hother, rfl⟩
  · have hown : OwnFields P trailingStopFields obj s₂.members :=
      own_of_strict (by decide) (by decide) hread
    rw [htype] at htrailing
    refine iff_of_true (fun f hf => Or.inr ?_) (fun hno => absurd htrailing hno)
    rw [hafter f hf]
    exact hown f hf
  · rw [htype] at hother
    have hno : ¬ IsTrailingStop P obj := hother
    have hnew : ∀ f ∈ trailingStopFields, s₂.members f.member = initialMembers f.member :=
      initial_frame (fun f _ => rfl) (by decide) hs₁
    have hsome : ∀ f ∈ trailingStopFields,
        (initialMembers f.member : Option (Value δ)).isSome := by
      intro f hf
      rcases List.mem_pair.mp hf with rfl | rfl <;> rfl
    rw [imp_iff_right hno]
    refine forall₂_congr fun f hf => ownIfThere_iff ?_ (hsome f hf)
    rw [hafter f hf, hnew f hf]

end OrderUpdate

theorem orderUpdate_own_iff (h : OrderUpdate.parseFields P doc = some payload) :
    OwnPayload P doc payload .ORDER_UPDATE ↔ Unmistakable P doc .ORDER_UPDATE := by
  obtain ⟨obj, hobj, h⟩ := Option.bind_eq_some_iff.mp h
  obtain ⟨s₁, hs₁, h⟩ := Option.bind_eq_some_iff.mp h
  obtain ⟨s₂, hs₂, h⟩ := Option.bind_eq_some_iff.mp h
  obtain ⟨s₃, hs₃, h⟩ := Option.bind_eq_some_iff.mp h
  obtain rfl := Option.some.inj h
  have hfields := order_fields_own_iff hs₁ hs₂ hs₃
  rw [OwnPayload, Unmistakable, objectOf_eq_some hobj]
  simp only [Option.some.injEq, exists_eq_left', forall_eq']
  rw [hfields]
  refine and_congr_right fun hgiven => trailingStop_own_iff hs₁ hs₂ hs₃ ?_
  -- the type is a string, so it is the one of this message
  have hmem : (⟨.orderType, "o".toList, name returnOrderType⟩ : Field) ∈ documentedOrder := by
    decide
  have hvalue := (hfields.mpr hgiven _ hmem).2
  rwa [order_before hs₂ hs₃ .orderType (by decide)] at hvalue

theorem withEventTime_own_iff {event : EventType} {parsed : Option (Payload δ)}
    {ev : UserDataStream δ} (hevent : eventOf doc = event)
    (h : withEventTime event doc parsed = some ev)
    (hown : ∀ payload, parsed = some payload →
      (OwnPayload P doc payload event ↔ Unmistakable P doc event)) :
    OwnEvent P doc ev ↔ Unmistakable P doc event := by
  obtain ⟨eventTime, htime, h⟩ := Option.bind_eq_some_iff.mp h
  obtain ⟨payload, hpayload, h⟩ := Option.bind_eq_some_iff.mp h
  obtain rfl := Option.some.inj h
  rw [← hown payload hpayload, OwnEvent, hevent, htime]
  simp

end Events

/-- **When an event carries its own fields.** If a message gives an event with a payload, then the
payload has, for every documented key and every element of its arrays, the value of that key in this
message, with only the optional keys left out, if and only if the message is unmistakable: the keys
that are taken with `get_string` are strings, an account update has no position, and the optional
keys that are not looked at have nothing to say. A key that is missing otherwise makes it throw. -/
theorem own_fields_iff {δ : Type} [Zero δ] (P : InString δ) (doc : JsonTree)
    (ev : UserDataStream δ) (hparse : parseUserDataStream P doc = some ev)
    (hpayload : ev.payload.isSome) :
    OwnEvent P doc ev ↔ Unmistakable P doc (eventOf doc) := by
  unfold parseUserDataStream at hparse
  cases hevent : eventOf doc with
  | ACCOUNT_UPDATE =>
      rw [hevent] at hparse
      exact withEventTime_own_iff hevent hparse fun payload h => accountUpdate_own_iff h
  | MARGIN_CALL =>
      rw [hevent] at hparse
      exact withEventTime_own_iff hevent hparse fun payload h => marginCall_own_iff h
  | ORDER_UPDATE =>
      rw [hevent] at hparse
      exact withEventTime_own_iff hevent hparse fun payload h => orderUpdate_own_iff h
  | TRADE_LITE =>
      rw [hevent] at hparse
      exact withEventTime_own_iff hevent hparse fun payload h => tradeLite_own_iff h
  | ACCOUNT_CONFIG_UPDATE =>
      rw [hevent] at hparse
      exact withEventTime_own_iff hevent hparse fun payload h => accountConfigUpdate_own_iff h
  | STRATEGY_UPDATE =>
      rw [hevent] at hparse
      exact withEventTime_own_iff hevent hparse fun payload h =>
        parseTimed_own_iff (by decide) (by decide) h
  | GRID_UPDATE =>
      rw [hevent] at hparse
      exact withEventTime_own_iff hevent hparse fun payload h =>
        parseTimed_own_iff (by decide) (by decide) h
  | CONDITIONAL_ORDER_REJECT =>
      rw [hevent] at hparse
      exact withEventTime_own_iff hevent hparse fun payload h =>
        parseTimed_own_iff (by decide) (by decide) h
  | ALGO_UPDATE | LISTEN_KEY_EXPIRED | UNKNOWN =>
      rw [hevent] at hparse
      obtain rfl := Option.some.inj hparse
      cases hpayload

/-- Nothing here is a number in a string. -/
def noNumbers : InString Int := ⟨fun _ => none, fun _ => none⟩

def tradeLiteMessage : JsonTree :=
  .obj [("e".toList, .str "TRADE_LITE".toList), ("E".toList, .int 1721895408092),
    ("T".toList, .int 1721895408214), ("s".toList, .str "BTCUSDT".toList),
    ("q".toList, .str "0.001".toList), ("p".toList, .str "0".toList), ("m".toList, .bool false),
    ("c".toList, .str "z8hc".toList), ("S".toList, .str "BUY".toList),
    ("L".toList, .str "64089.20".toList), ("l".toList, .str "0.040".toList),
    ("t".toList, .int 109100866), ("i".toList, .int 8886774)]

theorem own_fields_iff_tradeLite :
    ∃ ev, parseUserDataStream noNumbers tradeLiteMessage = some ev ∧
      OwnEvent noNumbers tradeLiteMessage ev := by
  refine ⟨_, rfl, (own_fields_iff noNumbers tradeLiteMessage _ rfl rfl).mpr ?_⟩
  have hgiven : ∀ f ∈ documentedTradeLite, f.type.ignoresError = true →
      (stringOf (tradeLiteMessage.get f.key)).isSome := by
    decide
  exact hgiven

/-- An account update whose second balance has no asset. -/
def secondAssetMissing : JsonTree :=
  .obj [("e".toList, .str "ACCOUNT_UPDATE".toList), ("E".toList, .int 1564745798939),
    ("a".toList, .obj [("m".toList, .str "ORDER".toList),
      ("B".toList, .arr [
        .obj [("a".toList, .str "USDT".toList), ("wb".toList, .str "5".toList),
          ("cw".toList, .str "1".toList), ("bc".toList, .str "0".toList)],
        .obj [("wb".toList, .str "7".toList), ("cw".toList, .str "2".toList),
          ("bc".toList, .str "0".toList)]]),
      ("P".toList, .arr [
        .obj [("s".toList, .str "BTCUSDT".toList), ("pa".toList, .str "0".toList),
          ("ep".toList, .str "0".toList), ("bep".toList, .str "0".toList),
          ("cr".toList, .str "200".toList), ("up".toList, .str "0".toList),
          ("mt".toList, .str "isolated".toList), ("iw".toList, .str "0".toList),
          ("ps".toList, .str "BOTH".toList)]])])]

/-- The second balance is reported for the asset of the first, and the realized profit of the
position is never assigned. -/
theorem second_asset_inherited :
    ∃ ev payload, parseUserDataStream noNumbers secondAssetMissing = some ev ∧
      ev.payload = some payload ∧
      payload.assets.map (· .asset) = [some (.basic (.text "USDT".toList)),
        some (.basic (.text "USDT".toList))] ∧
      payload.positions.map (· .realizedPNL) = [none] ∧
      ¬ OwnEvent noNumbers secondAssetMissing ev := by
  refine ⟨_, _, rfl, rfl, rfl, rfl, ?_⟩
  rintro ⟨-, -, payload, -, obj, hobj, -, ⟨elems, helems, hrows⟩, -⟩
  obtain rfl := Option.some.inj hobj
  obtain rfl := Option.some.inj helems
  obtain ⟨_, rows, -, hrest, -⟩ := List.forall₂_cons_left_iff.mp hrows
  obtain ⟨row, _, hsecond, -, -⟩ := List.forall₂_cons_left_iff.mp hrest
  have hasset := (hsecond ⟨.asset, "a".toList, text⟩ (List.mem_cons_self ..)).1
  cases hasset

end AstraConnect.UserData
