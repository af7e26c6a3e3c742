import AstraConnect.Order.RequestHistory

set_option autoImplicit false

/-! # When a request does not depend on the calls before it

Two histories lead to the same parameters for the same next call exactly when what they left in the
fields that the call does not write is the same (`SameRequest`).
-/

namespace AstraConnect.Order

open RequestParameter Transition

variable {HMAC : Str → Str → List UInt8} {cred : Credentials} {h : List Call} {r : RequestState}

/-! ## The parameters of each call -/

/-- The value a call sends: its own, or the last one written before it. -/
def sent (f : Call → Option Str) (h : List Call) (c : Call) : Str := (f c).getD (lastWritten f h)

theorem quote_notMem_sent {f : Call → Option Str} (hf : ∀ c t, f c = some t → '"' ∉ t)
    (h : List Call) (c : Call) : '"' ∉ sent f h c := by
  rw [sent, ← lastWritten_concat]
  exact quote_notMem_lastWritten hf _

/-- The parameters of a new order in front of its type. -/
def newFront (apiKey positionSide timeInForce price quantity side symbol timestamp : Str) :
    List RequestParameter :=
  [⟨"apiKey".toList, apiKey, false⟩, ⟨"positionSide".toList, positionSide, false⟩,
    ⟨"price".toList, price, false⟩, ⟨"quantity".toList, quantity, false⟩,
    ⟨"side".toList, side, false⟩, ⟨"symbol".toList, symbol, false⟩,
    ⟨"timeInForce".toList, timeInForce, false⟩, ⟨"timestamp".toList, timestamp, false⟩]

/-- The parameters of a new order. -/
def newParams (apiKey positionSide timeInForce typeName type price quantity side symbol
    timestamp : Str) : List RequestParameter :=
  newFront apiKey positionSide timeInForce price quantity side symbol timestamp ++
    [⟨typeName, type, false⟩]

/-- The parameters of a modification. -/
def modifyParams (apiKey orderId positionSide type price priceMatch quantity side symbol
    timestamp : Str) : List RequestParameter :=
  [⟨"apiKey".toList, apiKey, false⟩, ⟨"orderId".toList, orderId, false⟩,
    ⟨"origType".toList, type, false⟩, ⟨"positionSide".toList, positionSide, false⟩,
    ⟨"price".toList, price, false⟩, ⟨"priceMatch".toList, priceMatch, false⟩,
    ⟨"quantity".toList, quantity, false⟩, ⟨"side".toList, side, false⟩,
    ⟨"symbol".toList, symbol, false⟩, ⟨"timestamp".toList, timestamp, false⟩]

theorem params_new (hl : Leftover cred h r) (now : Int) {c : Call} {posSide : PositionSide}
    {orderSide : OrderSide} {tif : TimeInForce} {orderType : OrderType} {pair : Str}
    {px qty : Fixed} (hc : c = .sendNewOrder posSide orderSide tif orderType pair px qty) :
    (r.generateParamsForOrder HMAC now c).2
      = signedResult HMAC cred.privateKey (newParams cred.apiKey (sent Call.positionSide h c)
          (sent Call.timeInForce h c) (typeField h) (sent Call.orderType h c) (formatPx px)
          (formatPx qty) orderSide.text pair (to_string now)) := by
  subst hc
  obtain ⟨price, quantity, side, symbol, timestamp, priceMatch, hp⟩ := hl.placeOrder
  simp only [RequestState.generateParamsForOrder, RequestState.generateParamsForNew]
  rw [signedParams_snd]
  · rw [hl.privateKey, hl.APIKey, hp]
    rfl
  · exact hl.HMACKey

theorem params_modify (hl : Leftover cred h r) (now : Int) {c : Call} {posSide : PositionSide}
    {orderSide : OrderSide} {mode : PriceMatchMode} {orderType : OrderType} {pair : Str}
    {px qty : Fixed} {binanceId : Str}
    (hc : c = .sendModifyOrder posSide orderSide mode orderType pair px qty binanceId) :
    (r.generateParamsForOrder HMAC now c).2
      = signedResult HMAC cred.privateKey (modifyParams cred.apiKey binanceId
          (sent Call.positionSide h c) (sent Call.orderType h c) (formatPx px) (mode.text.getD [])
          (formatPx qty) orderSide.text pair (to_string now)) := by
  subst hc
  obtain ⟨price, quantity, side, symbol, timestamp, priceMatch, hp⟩ := hl.placeOrder
  obtain ⟨v, hid⟩ := hl.orderId
  obtain ⟨t, ht, -⟩ := mode.text_isSome
  simp only [RequestState.generateParamsForOrder, RequestState.generateParamsForModify]
  rw [signedParams_snd]
  · rw [hl.privateKey, hl.APIKey, hid, hp]
    simp only [PlaceOrderParameters.prepareModify, ht]
    rfl
  · exact hl.HMACKey

theorem params_id (hl : Leftover cred h r) (now : Int) (binanceId pair : Str) :
    (r.generateParamsForId HMAC now binanceId pair).2
      = signedResult HMAC cred.privateKey
          [⟨"apiKey".toList, cred.apiKey, false⟩, ⟨"orderId".toList, binanceId, false⟩,
            ⟨"symbol".toList, pair, false⟩, ⟨"timestamp".toList, to_string now, false⟩] := by
  obtain ⟨v, hid⟩ := hl.orderId
  simp only [RequestState.generateParamsForId]
  rw [signedParams_snd]
  · rw [hl.privateKey, hl.APIKey, hid]
    rfl
  · exact hl.HMACKey

theorem params_account (hl : Leftover cred h r) (now : Int) :
    (r.generateParamsForAccount HMAC now).2
      = signedResult HMAC cred.privateKey
          [⟨"apiKey".toList, cred.apiKey, false⟩, ⟨"timestamp".toList, to_string now, false⟩] := by
  simp only [RequestState.generateParamsForAccount]
  rw [signedParams_snd _ hl.HMACKey, hl.privateKey, hl.APIKey]

/-! ## Reading the values back

Two texts of the same call differ at most in the three values and the name that a history can
leave. These have no quotes, so they can be read back from the text, and equal texts have equal
ones. -/

theorem formatPx_ne_nil (v : Fixed) : formatPx v ≠ [] := by
  obtain ⟨d, hd, hf, -⟩ := Utils.exists_format v.2
  have hwhole : d.whole ≠ [] := hf.whole_ne_nil
  rw [formatPx, hd, Option.getD_some, Decimal.DecimalText.render, Decimal.DecimalText.body]
  simp [hwhole]

theorem quote_notMem_typeField (h : List Call) : '"' ∉ typeField h := by
  unfold typeField
  split_ifs <;> decide

theorem isRawParam_typeField (h : List Call) (v : Str) :
    isRawParam ⟨typeField h, v, false⟩ = false := by
  unfold typeField
  split_ifs <;> rfl

section Inj

variable {apiKey id pos pos' tif tif' type type' price mode quantity side symbol ts x x' : Str}
  {h h' : List Call}

theorem newParams_inj (hpos : '"' ∉ pos) (hpos' : '"' ∉ pos') (htif : '"' ∉ tif)
    (htif' : '"' ∉ tif') (htype : '"' ∉ type) (htype' : '"' ∉ type')
    (heq : members isRawParam
          (newParams apiKey pos tif (typeField h) type price quantity side symbol ts) ++ x
      = members isRawParam
          (newParams apiKey pos' tif' (typeField h') type' price quantity side symbol ts) ++ x') :
    pos = pos' ∧ tif = tif' ∧ typeField h = typeField h' ∧ type = type' := by
  unfold newParams newFront at heq
  obtain ⟨hposeq, hrest⟩ :=
    members_cons_inj (members_cons_cancel heq) rfl rfl (by decide) hpos hpos'
  obtain ⟨htifeq, hlast⟩ := members_cons_inj (members_cons_cancel (members_cons_cancel
    (members_cons_cancel (members_cons_cancel hrest)))) rfl rfl (by decide) htif htif'
  have hmember := members_cons_cancel hlast
  rw [members, members, isRawParam_typeField, isRawParam_typeField] at hmember
  obtain ⟨hname, htypeeq, -⟩ := member_append_inj (quote_notMem_typeField h)
    (quote_notMem_typeField h') htype htype' hmember
  exact ⟨hposeq, htifeq, hname, htypeeq⟩

theorem modifyParams_inj (hpos : '"' ∉ pos) (hpos' : '"' ∉ pos') (htype : '"' ∉ type)
    (htype' : '"' ∉ type')
    (heq : members isRawParam
          (modifyParams apiKey id pos type price mode quantity side symbol ts) ++ x
      = members isRawParam
          (modifyParams apiKey id pos' type' price mode quantity side symbol ts) ++ x') :
    pos = pos' ∧ type = type' := by
  unfold modifyParams at heq
  obtain ⟨htypeeq, hrest⟩ := members_cons_inj (members_cons_cancel (members_cons_cancel heq))
    rfl rfl (by decide) htype htype'
  obtain ⟨hposeq, -⟩ := members_cons_inj hrest rfl rfl (by decide) hpos hpos'
  exact ⟨hposeq, htypeeq⟩

end Inj

/-! ## The name of the order type -/

/-- The parameters end with the order type under the name `type`, and the signature. -/
def CarriesType (orderType : OrderType) (json : Str) : Prop :=
  ∃ pre type mac, '"' ∉ type ∧ '"' ∉ mac ∧ (∀ t, orderType.text = some t → type = t) ∧
    json = pre ++ ", \"type\": \"".toList ++ type ++ "\", \"signature\": \"".toList ++ mac ++
      "\"\x7d".toList

/-- What is asked of the parameters of a new order, when there are any. -/
def TypeNamed : Call → Option RequestParameter → Prop
  | .sendNewOrder _ _ _ orderType _ _ _, some params => CarriesType orderType params.request
  | _, _ => True

section TypeName

variable {key name type : Str} {ps : List RequestParameter} {orderType : OrderType}

theorem carriesType_concat (hps : ps ≠ []) (htype : '"' ∉ type)
    (hown : ∀ t, orderType.text = some t → type = t) :
    CarriesType orderType (signedText HMAC key (ps ++ [⟨"type".toList, type, false⟩])) := by
  refine ⟨"\x7b".toList ++ members isRawParam ps, type,
    signatureOf HMAC key (ps ++ [⟨"type".toList, type, false⟩]), htype,
    quote_notMem_signatureOf _ _ _, hown, ?_⟩
  rw [signedText_concat hps rfl]
  simp

/-- Read from its end, the text gives the name of the order type. -/
theorem name_of_carriesType (hps : ps ≠ []) (hname : '"' ∉ name) (htype : '"' ∉ type)
    (hraw : isRawParam ⟨name, type, false⟩ = false)
    (hc : CarriesType orderType (signedText HMAC key (ps ++ [⟨name, type, false⟩]))) :
    name = "type".toList := by
  obtain ⟨pre, type', mac, htype', hmac, -, heq⟩ := hc
  rw [signedText_concat hps hraw] at heq
  have htext := List.append_cancel_right heq
  have hbefore := (quote_append_inj
    (x := "\x7b".toList ++ members isRawParam ps ++ ", \"".toList ++ name ++ "\": \"".toList ++
      type ++
      "\", \"signature\": ".toList)
    (y := pre ++ ", \"type\": \"".toList ++ type' ++ "\", \"signature\": ".toList)
    (quote_notMem_signatureOf _ _ _) hmac (by simpa using htext)).1
  have hvalue := (quote_append_inj
    (x := "\x7b".toList ++ members isRawParam ps ++ ", \"".toList ++ name ++ "\": ".toList)
    (y := pre ++ ", \"type\": ".toList) htype htype'
    (by simpa using List.append_cancel_right hbefore)).1
  have hcut : "\x7b".toList ++ members isRawParam ps ++ ", \"".toList ++ name ++ "\": ".toList
      = pre ++ ", \"type".toList ++ "\": ".toList := by simpa using hvalue
  exact (quote_append_inj (x := "\x7b".toList ++ members isRawParam ps ++ ", ".toList)
    (y := pre ++ ", ".toList) hname (by decide)
    (by simpa using List.append_cancel_right hcut)).2

theorem typeField_eq_type_iff : typeField h = "type".toList ↔ ∀ c ∈ h, c.isModify = false := by
  unfold typeField
  split_ifs with hany
  · obtain ⟨c, hc, hmod⟩ := List.any_eq_true.mp hany
    exact ⟨fun hstr => absurd hstr (by decide), fun hall => absurd (hall c hc) (by simp [hmod])⟩
  · refine ⟨fun _ c hc => ?_, fun _ => rfl⟩
    by_contra hmod
    exact hany (List.any_eq_true.mpr ⟨c, hc, by simpa using hmod⟩)

end TypeName

/-! ## The histories that lead to the same request

Of a history four things can show in a request: the last position side, the last time in force and
the last order type that were written, and the name under which the order type is sent.
`SameRequest` compares those that the call sends and does not write. -/

/-- A value that the call has to send is missing, so that its parameters cannot be signed. -/
def LacksValue (h : List Call) (c : Call) : Prop :=
  match c with
  | .sendNewOrder _ _ _ _ pair _ _ =>
      pair = [] ∨ sent Call.positionSide h c = [] ∨ sent Call.timeInForce h c = [] ∨
        sent Call.orderType h c = []
  | .sendModifyOrder _ _ _ _ pair _ _ binanceId =>
      pair = [] ∨ binanceId = [] ∨ sent Call.positionSide h c = [] ∨ sent Call.orderType h c = []
  | .sendCancelOrder pair binanceId => pair = [] ∨ binanceId = []
  | .sendQueryOrder pair binanceId => pair = [] ∨ binanceId = []
  | .sendAccountInfoRequest => False

/-- The histories `h₁` and `h₂` lead to the same request for the call `c`. -/
def SameRequest (h₁ h₂ : List Call) (c : Call) : Prop :=
  (LacksValue h₁ c ∧ LacksValue h₂ c) ∨
  match c with
  | .sendNewOrder .. =>
      (∀ c' ∈ h₁, c'.isModify = false) ∧ (∀ c' ∈ h₂, c'.isModify = false) ∧
        sent Call.positionSide h₁ c = sent Call.positionSide h₂ c ∧
        sent Call.timeInForce h₁ c = sent Call.timeInForce h₂ c ∧
        sent Call.orderType h₁ c = sent Call.orderType h₂ c
  | .sendModifyOrder .. =>
      sent Call.positionSide h₁ c = sent Call.positionSide h₂ c ∧
        sent Call.orderType h₁ c = sent Call.orderType h₂ c
  | _ => True

theorem lacksValue_new (h : List Call) {c : Call} {posSide : PositionSide} {orderSide : OrderSide}
    {tif : TimeInForce} {orderType : OrderType} {pair : Str} {px qty : Fixed}
    (hc : c = .sendNewOrder posSide orderSide tif orderType pair px qty) :
    LacksValue h c ↔ pair = [] ∨ sent Call.positionSide h c = [] ∨
      sent Call.timeInForce h c = [] ∨ sent Call.orderType h c = [] := by
  rw [hc]
  rfl

theorem lacksValue_modify (h : List Call) {c : Call} {posSide : PositionSide}
    {orderSide : OrderSide} {mode : PriceMatchMode} {orderType : OrderType} {pair : Str}
    {px qty : Fixed} {binanceId : Str}
    (hc : c = .sendModifyOrder posSide orderSide mode orderType pair px qty binanceId) :
    LacksValue h c ↔ pair = [] ∨ binanceId = [] ∨ sent Call.positionSide h c = [] ∨
      sent Call.orderType h c = [] := by
  rw [hc]
  rfl

/-- The parameters of a new order can be signed exactly when no value is missing. -/
theorem newParams_present_iff (cred : Credentials) (h : List Call) (now : Int) {c : Call}
    {posSide : PositionSide} {orderSide : OrderSide} {tif : TimeInForce} {orderType : OrderType}
    {pair : Str} {px qty : Fixed}
    (hc : c = .sendNewOrder posSide orderSide tif orderType pair px qty) :
    (∀ p ∈ newParams cred.apiKey (sent Call.positionSide h c) (sent Call.timeInForce h c)
        (typeField h) (sent Call.orderType h c) (formatPx px) (formatPx qty) orderSide.text pair
        (to_string now), p.Present) ↔ ¬ LacksValue h c := by
  have hname : typeField h ≠ [] := by unfold typeField; split_ifs <;> decide
  simp only [lacksValue_new h hc, newParams, newFront, List.forall_mem_append,
    List.forall_mem_cons, Present,
    ne_eq, cred.apiKey_ne_nil, formatPx_ne_nil, orderSide.text_ne_nil, to_string_ne_nil, hname,
    not_or]
  simp
  tauto

theorem modifyParams_present_iff (cred : Credentials) (h : List Call) (now : Int) {c : Call}
    {posSide : PositionSide} {orderSide : OrderSide} {mode : PriceMatchMode}
    {orderType : OrderType} {pair : Str} {px qty : Fixed} {binanceId : Str}
    (hc : c = .sendModifyOrder posSide orderSide mode orderType pair px qty binanceId) :
    (∀ p ∈ modifyParams cred.apiKey binanceId (sent Call.positionSide h c)
        (sent Call.orderType h c) (formatPx px) (mode.text.getD []) (formatPx qty) orderSide.text
        pair (to_string now), p.Present) ↔ ¬ LacksValue h c := by
  obtain ⟨t, ht, hne⟩ := mode.text_isSome
  simp only [lacksValue_modify h hc, modifyParams, List.forall_mem_cons, Present, ne_eq,
    cred.apiKey_ne_nil,
    formatPx_ne_nil, orderSide.text_ne_nil, to_string_ne_nil, ht, Option.getD_some, hne, not_or]
  simp
  tauto

section SameRequest

variable {h₁ h₂ : List Call} {r₁ r₂ : RequestState}

/-- The next call is a new order. -/
theorem new_iff (hl₁ : Leftover cred h₁ r₁) (hl₂ : Leftover cred h₂ r₂) (now : Int) {c : Call}
    {posSide : PositionSide} {orderSide : OrderSide} {tif : TimeInForce} {orderType : OrderType}
    {pair : Str} {px qty : Fixed}
    (hc : c = .sendNewOrder posSide orderSide tif orderType pair px qty) :
    ((r₁.generateParamsForOrder HMAC now c).2 = (r₂.generateParamsForOrder HMAC now c).2 ∧
      TypeNamed c (r₁.generateParamsForOrder HMAC now c).2 ∧
      TypeNamed c (r₂.generateParamsForOrder HMAC now c).2) ↔ SameRequest h₁ h₂ c := by
  have hpos := quote_notMem_sent Call.quote_notMem_positionSide
  have htif := quote_notMem_sent Call.quote_notMem_timeInForce
  have htype := quote_notMem_sent Call.quote_notMem_orderType
  have hown : ∀ h t, orderType.text = some t → sent Call.orderType h c = t := by
    intro h t ht
    rw [sent, hc, Call.orderType, ht, Option.getD_some]
  have hsame : SameRequest h₁ h₂ c ↔ (LacksValue h₁ c ∧ LacksValue h₂ c) ∨
      (∀ c' ∈ h₁, c'.isModify = false) ∧ (∀ c' ∈ h₂, c'.isModify = false) ∧
        sent Call.positionSide h₁ c = sent Call.positionSide h₂ c ∧
        sent Call.timeInForce h₁ c = sent Call.timeInForce h₂ c ∧
        sent Call.orderType h₁ c = sent Call.orderType h₂ c := by rw [hc]; rfl
  have hnamed : ∀ params, TypeNamed c params ↔
      ∀ p, params = some p → CarriesType orderType p.request := by
    intro params
    rw [hc]
    cases params <;> simp [TypeNamed]
  rw [params_new hl₁ now hc, params_new hl₂ now hc, hsame, hnamed, hnamed, signedResult_eq_iff,
    newParams_present_iff cred h₁ now hc, newParams_present_iff cred h₂ now hc]
  simp only [signedResult_eq_some_iff, newParams_present_iff cred _ now hc, not_not, and_imp,
    forall_eq_apply_imp_iff]
  -- the type is carried exactly when no modification has renamed the field
  constructor
  · rintro ⟨hlack | ⟨hok₁, hok₂, htext⟩, hcarries₁, hcarries₂⟩
    · exact .inl hlack
    · obtain ⟨hposeq, htifeq, -, htypeeq⟩ := newParams_inj (hpos h₁ c) (hpos h₂ c) (htif h₁ c)
        (htif h₂ c) (htype h₁ c) (htype h₂ c) (members_eq_of_signedText htext)
      have hname₁ := name_of_carriesType (List.cons_ne_nil _ _) (quote_notMem_typeField h₁)
        (htype h₁ c) (isRawParam_typeField h₁ _) (hcarries₁ hok₁)
      have hname₂ := name_of_carriesType (List.cons_ne_nil _ _) (quote_notMem_typeField h₂)
        (htype h₂ c) (isRawParam_typeField h₂ _) (hcarries₂ hok₂)
      exact .inr ⟨typeField_eq_type_iff.mp hname₁, typeField_eq_type_iff.mp hname₂, hposeq,
        htifeq, htypeeq⟩
  · rintro (hlack | ⟨hmod₁, hmod₂, hposeq, htifeq, htypeeq⟩)
    · exact ⟨.inl hlack, fun hok => absurd hlack.1 hok, fun hok => absurd hlack.2 hok⟩
    · have hlackeq : LacksValue h₁ c ↔ LacksValue h₂ c := by
        rw [lacksValue_new h₁ hc, lacksValue_new h₂ hc, hposeq, htifeq, htypeeq]
      rw [typeField_eq_type_iff.mpr hmod₁, typeField_eq_type_iff.mpr hmod₂, hposeq, htifeq,
        htypeeq, hlackeq]
      refine ⟨?_, fun _ => carriesType_concat (List.cons_ne_nil _ _) (htype h₂ c) (hown h₂),
        fun _ => carriesType_concat (List.cons_ne_nil _ _) (htype h₂ c) (hown h₂)⟩
      by_cases hok : LacksValue h₂ c
      · exact .inl ⟨hok, hok⟩
      · exact .inr ⟨hok, hok, rfl⟩

/-- The next call is a modification. -/
theorem modify_iff (hl₁ : Leftover cred h₁ r₁) (hl₂ : Leftover cred h₂ r₂) (now : Int) {c : Call}
    {posSide : PositionSide} {orderSide : OrderSide} {mode : PriceMatchMode}
    {orderType : OrderType} {pair : Str} {px qty : Fixed} {binanceId : Str}
    (hc : c = .sendModifyOrder posSide orderSide mode orderType pair px qty binanceId) :
    (r₁.generateParamsForOrder HMAC now c).2 = (r₂.generateParamsForOrder HMAC now c).2 ↔
      SameRequest h₁ h₂ c := by
  have hpos := quote_notMem_sent Call.quote_notMem_positionSide
  have htype := quote_notMem_sent Call.quote_notMem_orderType
  have hsame : SameRequest h₁ h₂ c ↔ (LacksValue h₁ c ∧ LacksValue h₂ c) ∨
      sent Call.positionSide h₁ c = sent Call.positionSide h₂ c ∧
        sent Call.orderType h₁ c = sent Call.orderType h₂ c := by rw [hc]; rfl
  rw [params_modify hl₁ now hc, params_modify hl₂ now hc, hsame, signedResult_eq_iff,
    modifyParams_present_iff cred h₁ now hc, modifyParams_present_iff cred h₂ now hc, not_not,
    not_not]
  constructor
  · rintro (hlack | ⟨hok₁, hok₂, htext⟩)
    · exact .inl hlack
    · exact .inr (modifyParams_inj (hpos h₁ c) (hpos h₂ c) (htype h₁ c) (htype h₂ c)
        (members_eq_of_signedText htext))
  · rintro (hlack | ⟨hposeq, htypeeq⟩)
    · exact .inl hlack
    · have hlackeq : LacksValue h₁ c ↔ LacksValue h₂ c := by
        rw [lacksValue_modify h₁ hc, lacksValue_modify h₂ hc, hposeq, htypeeq]
      rw [hposeq, htypeeq, hlackeq]
      by_cases hok : LacksValue h₂ c
      · exact .inl ⟨hok, hok⟩
      · exact .inr ⟨hok, hok, rfl⟩

/-- **Two histories and one call.** -/
theorem sameRequest_iff (hl₁ : Leftover cred h₁ r₁) (hl₂ : Leftover cred h₂ r₂) (now : Int)
    (c : Call) :
    ((r₁.generateParamsForOrder HMAC now c).2 = (r₂.generateParamsForOrder HMAC now c).2 ∧
      TypeNamed c (r₁.generateParamsForOrder HMAC now c).2 ∧
      TypeNamed c (r₂.generateParamsForOrder HMAC now c).2) ↔ SameRequest h₁ h₂ c := by
  cases hc : c with
  | sendNewOrder => exact new_iff hl₁ hl₂ now rfl
  | sendModifyOrder =>
      rw [← modify_iff hl₁ hl₂ now rfl]
      exact and_iff_left ⟨trivial, trivial⟩
  | sendCancelOrder pair binanceId =>
      refine iff_of_true ⟨?_, trivial, trivial⟩ (.inr trivial)
      exact (params_id hl₁ now binanceId pair).trans (params_id hl₂ now binanceId pair).symm
  | sendQueryOrder pair binanceId =>
      refine iff_of_true ⟨?_, trivial, trivial⟩ (.inr trivial)
      exact (params_id hl₁ now binanceId pair).trans (params_id hl₂ now binanceId pair).symm
  | sendAccountInfoRequest =>
      refine iff_of_true ⟨?_, trivial, trivial⟩ (.inr trivial)
      exact (params_account hl₁ now).trans (params_account hl₂ now).symm

end SameRequest

/-- **When a request does not depend on the calls before it.** After two histories on streams with
the same credentials, the same call at the same time and with the same request id is given the same
parameters, a new order with its type under the name `type`, exactly when the histories left the
same in what the call does not write. -/
theorem params_eq_iff (HMAC : Str → Str → List UInt8) (cred : Credentials)
    (as₁ as₂ : List OrderStream.Action) (s₁ s₂ : OrderStream)
    (hrun₁ : runFrom (OrderStream.step HMAC) (OrderStream.construct cred) as₁ = some s₁)
    (hrun₂ : runFrom (OrderStream.step HMAC) (OrderStream.construct cred) as₂ = some s₂)
    (c : Call) (now : Int) (id : Str) :
    (((s₁.generateID id).generateParamsForOrder HMAC now c).2
        = ((s₂.generateID id).generateParamsForOrder HMAC now c).2 ∧
      TypeNamed c ((s₁.generateID id).generateParamsForOrder HMAC now c).2 ∧
      TypeNamed c ((s₂.generateID id).generateParamsForOrder HMAC now c).2) ↔
      SameRequest (calls as₁) (calls as₂) c := by
  have hl₁ := (Leftover.construct cred).run hrun₁
  have hl₂ := (Leftover.construct cred).run hrun₂
  exact sameRequest_iff (hl₁.generateID id) (hl₂.generateID id) now c

/-- Keys and a response for runs on fixed inputs. -/
def sampleKeys : Credentials := ⟨"key".toList, "secret".toList, by decide, by decide⟩

def sampleEnv (uuid : String) (reply : Option JsonTree) : Env := ⟨5, uuid.toList, 0, reply⟩

/-- Two units of `10^-8`. -/
def twoUnits : Fixed := ⟨2, by decide⟩

def limitOrder : Call := .sendNewOrder .LONG .BUY .GTC .LIMIT "BTCUSDT".toList twoUnits twoUnits

def limitModify : Call :=
  .sendModifyOrder .LONG .BUY .NONE .LIMIT "BTCUSDT".toList twoUnits twoUnits "7".toList

theorem params_eq_iff_afterCancel :
    (((OrderStream.construct sampleKeys).generateID "u".toList).generateParamsForOrder
        (fun _ _ => [1]) 5 limitOrder).2
      = ((((OrderStream.construct sampleKeys).send (fun _ _ => [1]) (sampleEnv "" none)
          (.sendCancelOrder "BTCUSDT".toList "7".toList)).1.generateID
            "u".toList).generateParamsForOrder (fun _ _ => [1]) 5 limitOrder).2 :=
  ((params_eq_iff (fun _ _ => [1]) sampleKeys []
    [.call (.sendCancelOrder "BTCUSDT".toList "7".toList) (sampleEnv "" none)] _ _ rfl rfl
    limitOrder
    5 "u".toList).mpr (.inr ⟨by decide, by decide, rfl, rfl, rfl⟩)).1

/-- After a modification a new order is sent with its type under the name `origType`. -/
theorem params_afterModify :
    ∃ s, runFrom (OrderStream.step (fun _ _ => [1])) (OrderStream.construct sampleKeys)
        [.call limitModify (sampleEnv "" none)] = some s ∧
      (((OrderStream.construct sampleKeys).generateID "u".toList).generateParamsForOrder
          (fun _ _ => [1]) 5 limitOrder).2.map (·.request)
        = some ("\x7b\"apiKey\": \"key\", \"positionSide\": \"LONG\", \"price\": \"0.00000002\"," ++
            " \"quantity\": \"0.00000002\", \"side\": \"BUY\", \"symbol\": \"BTCUSDT\"," ++
            " \"timeInForce\": \"GTC\", \"timestamp\": 5, \"type\": \"LIMIT\"," ++
            " \"signature\": \"01\"\x7d").toList ∧
      ((s.generateID "u".toList).generateParamsForOrder (fun _ _ => [1]) 5
          limitOrder).2.map (·.request)
        = some ("\x7b\"apiKey\": \"key\", \"positionSide\": \"LONG\", \"price\": \"0.00000002\"," ++
            " \"quantity\": \"0.00000002\", \"side\": \"BUY\", \"symbol\": \"BTCUSDT\"," ++
            " \"timeInForce\": \"GTC\", \"timestamp\": 5, \"origType\": \"LIMIT\"," ++
            " \"signature\": \"01\"\x7d").toList := by
  refine ⟨_, rfl, ?_, ?_⟩
  · decide +kernel
  · decide +kernel

end AstraConnect.Order
