import AstraConnect.Order.HistoryIndependence

set_option autoImplicit false

/-! # The frames on the wire

A frame is complete when its id, its method and its parameters are not empty. Only new orders and
account infos draw an id, so which frames repeat an id or have none is decided by the order of the
calls: `Disciplined`.
-/

namespace AstraConnect.Order

open RequestParameter Transition

/-! ## Frames -/

/-- `{"id": "id", "method": "method", "params": params}` -/
def frame (id method params : Str) : Str :=
  "\x7b\"id\": \"".toList ++ id ++ "\", \"method\": \"".toList ++ method ++
    "\", \"params\": ".toList ++ params ++ "\x7d".toList

/-- A complete request with the given id. -/
def CompleteFrame (payload id : Str) : Prop :=
  ∃ method params, id ≠ [] ∧ '"' ∉ id ∧ method ≠ [] ∧ params ≠ [] ∧ payload = frame id method params

/-- Every payload is a complete request, and no two have the same id. -/
def FreshFrames (wire : List Str) : Prop :=
  ∃ ids : List Str, List.Forall₂ CompleteFrame wire ids ∧ ids.Nodup

theorem frame_eq (id method params : Str) :
    frame id method params = "\x7b\"id\": \"".toList ++ (id ++ '"' :: (", \"method\": \"".toList ++
      method ++ "\", \"params\": ".toList ++ params ++ "\x7d".toList)) := by
  unfold frame
  simp only [List.append_assoc]
  rfl

/-- A frame has one id. -/
theorem CompleteFrame.id_unique {payload id id' : Str} (h : CompleteFrame payload id)
    (h' : CompleteFrame payload id') : id = id' := by
  obtain ⟨method, params, -, hq, -, -, heq⟩ := h
  obtain ⟨method', params', -, hq', -, -, heq'⟩ := h'
  have hframe := heq.symm.trans heq'
  rw [frame_eq, frame_eq] at hframe
  exact (append_quote_inj hq hq' (List.append_cancel_left hframe)).1

variable {HMAC : Str → Str → List UInt8} {cred : Credentials} {h : List Call} {r : RequestState}

theorem Call.method_spec (c : Call) :
    ∃ name, name ≠ [] ∧ c.method = ⟨"method".toList, name, false⟩ := by
  cases c <;> exact ⟨_, by decide, rfl⟩

theorem signedResult_spec (HMAC : Str → Str → List UInt8) (key : Str)
    (ps : List RequestParameter) :
    (¬ (∀ p ∈ ps, p.Present) ∧ signedResult HMAC key ps = none) ∨
      ((∀ p ∈ ps, p.Present) ∧ ∃ text, text ≠ [] ∧
        signedResult HMAC key ps = some ⟨"params".toList, text, true⟩) := by
  unfold signedResult
  split_ifs with hps
  · refine .inr ⟨hps, _, ?_, rfl⟩
    rw [signedText]
    exact List.cons_ne_nil _ _
  · exact .inl ⟨hps, rfl⟩

theorem idParams_present_iff (cred : Credentials) (now : Int) (binanceId pair : Str) :
    (∀ p ∈ [(⟨"apiKey".toList, cred.apiKey, false⟩ : RequestParameter),
        ⟨"orderId".toList, binanceId, false⟩, ⟨"symbol".toList, pair, false⟩,
        ⟨"timestamp".toList, to_string now, false⟩], p.Present) ↔
      ¬ (pair = [] ∨ binanceId = []) := by
  simp only [List.forall_mem_cons, Present, ne_eq, cred.apiKey_ne_nil, to_string_ne_nil, not_or]
  simp
  tauto

theorem accountParams_present_iff (cred : Credentials) (now : Int) :
    (∀ p ∈ [(⟨"apiKey".toList, cred.apiKey, false⟩ : RequestParameter),
        ⟨"timestamp".toList, to_string now, false⟩], p.Present) ↔ ¬ False := by
  simp [Present, cred.apiKey_ne_nil, to_string_ne_nil]

/-- The parameters of a call: none exactly when a value is missing. -/
theorem params_spec (HMAC : Str → Str → List UInt8) (hl : Leftover cred h r) (now : Int)
    (c : Call) :
    (LacksValue h c ∧ (r.generateParamsForOrder HMAC now c).2 = none) ∨
      (¬ LacksValue h c ∧ ∃ text, text ≠ [] ∧
        (r.generateParamsForOrder HMAC now c).2 = some ⟨"params".toList, text, true⟩) := by
  obtain ⟨ps, hps, heq⟩ : ∃ ps, ((∀ p ∈ ps, p.Present) ↔ ¬ LacksValue h c) ∧
      (r.generateParamsForOrder HMAC now c).2 = signedResult HMAC cred.privateKey ps := by
    cases c with
    | sendNewOrder => exact ⟨_, newParams_present_iff cred h now rfl, params_new hl now rfl⟩
    | sendModifyOrder =>
        exact ⟨_, modifyParams_present_iff cred h now rfl, params_modify hl now rfl⟩
    | sendCancelOrder pair binanceId =>
        exact ⟨_, idParams_present_iff cred now binanceId pair, params_id hl now binanceId pair⟩
    | sendQueryOrder pair binanceId =>
        exact ⟨_, idParams_present_iff cred now binanceId pair, params_id hl now binanceId pair⟩
    | sendAccountInfoRequest => exact ⟨_, accountParams_present_iff cred now, params_account hl now⟩
  rw [heq, ← hps]
  rcases signedResult_spec HMAC cred.privateKey ps with ⟨hnot, hnone⟩ | hsome
  · exact .inl ⟨not_not.mp (mt hps.mpr hnot), hnone⟩
  · exact .inr hsome

theorem makeRequest_frame {id method params : Str} (hid : id ≠ []) (hmethod : method ≠ [])
    (hparams : params ≠ []) :
    makeRequestFromRequestParameters [⟨"id".toList, id, false⟩, ⟨"method".toList, method, false⟩,
      ⟨"params".toList, params, true⟩] = frame id method params := by
  unfold makeRequestFromRequestParameters frame
  rw [object_of_present]
  · simp only [members, member, Bool.false_eq_true, if_false, if_true, List.append_assoc]
    rfl
  · simp [Present, hid, hmethod, hparams]

theorem makeRequest_noId (method params : RequestParameter) :
    makeRequestFromRequestParameters [⟨"id".toList, [], false⟩, method, params] = [] := by
  unfold makeRequestFromRequestParameters
  rw [object_eq_nil_iff]
  intro hall
  exact (hall _ (List.mem_cons_self ..)).2 rfl

/-- **The payload of a call**: none when a value is missing, the empty string when there is no id,
and else a complete frame with the current id. -/
theorem payload_spec (HMAC : Str → Str → List UInt8) {s : OrderStream}
    (hl : Leftover cred h s.toRequestState) (env : Env)
    (c : Call) :
    (LacksValue h c ∧ s.payload HMAC env c = none) ∨
      (¬ LacksValue h c ∧ ∃ payload, s.payload HMAC env c = some payload ∧
        ((s.identified env c).requestId.request = [] → payload = []) ∧
        ((s.identified env c).requestId.request ≠ [] →
          '"' ∉ (s.identified env c).requestId.request →
          CompleteFrame payload (s.identified env c).requestId.request)) := by
  have hid := hl.identified env c
  obtain ⟨id, hrequest⟩ := hid.requestId
  obtain ⟨method, hmethod, heq⟩ := c.method_spec
  unfold OrderStream.payload
  rcases params_spec HMAC hid env.now c with ⟨hlack, hnone⟩ | ⟨hok, text, htext, hsome⟩
  · exact .inl ⟨hlack, by rw [hnone]; rfl⟩
  · refine .inr ⟨hok, _, by rw [hsome]; rfl, ?_, ?_⟩
    · rw [hrequest]
      rintro rfl
      exact makeRequest_noId _ _
    · rw [hrequest, heq]
      intro hne hquote
      exact ⟨method, text, hne, hquote, hmethod, htext, makeRequest_frame hne hmethod htext⟩

/-! ## The order of the calls

A new order or an account info draws an id, and the first payload after that may carry it. `spare`
is true while it has not been carried, so a history is disciplined exactly when every payload finds
a spare id or draws one. -/

/-- Every payload of the calls has an id of its own. `h` are the calls before them, and `spare` says
that an id has been drawn that no payload carries yet: a call may send when it draws an id or there
is a spare one, and an id is spare after a call that sends nothing. -/
def Disciplined (h : List Call) (spare : Prop) : List Call → Prop
  | [] => True
  | c :: cs =>
      (c.drawsId = true ∨ LacksValue h c ∨ spare) ∧
        Disciplined (h ++ [c]) (LacksValue h c ∧ (c.drawsId = true ∨ spare)) cs

/-- What holds after the calls `h`, with the ids `ds` drawn and the ids `ids` on the wire. -/
structure Frames (cred : Credentials) (h : List Call) (spare : Prop) (ds ids : List Str)
    (s : OrderStream) : Prop where
  leftover : Leftover cred h s.toRequestState
  wire : List.Forall₂ CompleteFrame s.wire ids
  nodup : ids.Nodup
  ids_drawn : ∀ id ∈ ids, id ∈ ds
  unused : spare → s.requestId.request ∈ ds ∧ s.requestId.request ∉ ids
  used : ¬ spare → s.requestId.request = [] ∨ s.requestId.request ∈ ids

theorem Frames.construct (cred : Credentials) :
    Frames cred [] False [] [] (OrderStream.construct cred) :=
  ⟨.construct cred, .nil, .nil, nofun, nofun, fun _ => .inl rfl⟩

theorem FreshFrames.ids_eq {wire ids ids' : List Str} (hids : List.Forall₂ CompleteFrame wire ids)
    (hids' : List.Forall₂ CompleteFrame wire ids') : ids = ids' :=
  List.right_unique_forall₂' (fun _ _ _ h₁ h₂ => h₁.id_unique h₂) hids hids'

/-- The last frame has an id that none before it has. -/
theorem FreshFrames.last {wire ids : List Str} {payload : Str}
    (hf : FreshFrames (wire ++ [payload])) (hids : List.Forall₂ CompleteFrame wire ids) :
    ∃ id, CompleteFrame payload id ∧ id ∉ ids := by
  obtain ⟨ids', hids', hnodup⟩ := hf
  have htake := List.forall₂_take wire.length hids'
  have hdrop := List.forall₂_drop wire.length hids'
  rw [List.take_left] at htake
  rw [List.drop_left, List.forall₂_cons_left_iff] at hdrop
  obtain ⟨id, rest, hid, -, hlast⟩ := hdrop
  rw [← List.take_append_drop wire.length ids', hlast, List.nodup_append] at hnodup
  refine ⟨id, hid, fun hmem => ?_⟩
  rw [FreshFrames.ids_eq hids htake] at hmem
  exact hnodup.2.2 id hmem id (List.mem_cons_self ..) rfl

section Step

variable {spare : Prop} {ds ids : List Str} {s : OrderStream} {env : Env} {c : Call}

/-- The ids drawn after a call. -/
def drawnBy (env : Env) (c : Call) (ds : List Str) : List Str :=
  if c.drawsId then env.uuid :: ds else ds

/-- A call with a drawn or a spare id has an id that no payload carries. -/
theorem Frames.current (hf : Frames cred h spare ds ids s)
    (huuid : c.drawsId = true → env.uuid ∉ ds) (hid : c.drawsId = true ∨ spare) :
    (s.identified env c).requestId.request ∈ drawnBy env c ds ∧
      (s.identified env c).requestId.request ∉ ids := by
  unfold OrderStream.identified drawnBy
  by_cases hdraws : c.drawsId = true
  · rw [if_pos hdraws, if_pos hdraws]
    exact ⟨List.mem_cons_self .., fun hmem => huuid hdraws (hf.ids_drawn _ hmem)⟩
  · rw [if_neg hdraws, if_neg hdraws]
    exact hf.unused (hid.resolve_left hdraws)

theorem mem_drawnBy {d : Str} (hd : d ∈ ds) : d ∈ drawnBy env c ds := by
  unfold drawnBy
  split_ifs
  · exact List.mem_cons_of_mem _ hd
  · exact hd

theorem send_requestId (HMAC : Str → Str → List UInt8) (s : OrderStream) (env : Env) (c : Call) :
    (s.send HMAC env c).1.requestId = (s.identified env c).requestId := by
  rw [(OrderStream.send_spec HMAC s env c).1]
  exact OrderStream.generateParams_requestId HMAC _ env.now c

theorem Frames.leftover_send (HMAC : Str → Str → List UInt8) (hf : Frames cred h spare ds ids s)
    (env : Env) (c : Call) :
    Leftover cred (h ++ [c]) (s.send HMAC env c).1.toRequestState := by
  rw [(OrderStream.send_spec HMAC s env c).1]
  exact (hf.leftover.identified env c).generateParams env.now c

/-- A call that may send leaves complete frames with different ids. -/
theorem Frames.call (HMAC : Str → Str → List UInt8) (hf : Frames cred h spare ds ids s)
    (huuid : c.drawsId = true → env.uuid ∉ ds)
    (hds : ∀ d ∈ drawnBy env c ds, d ≠ [] ∧ '"' ∉ d)
    (hok : c.drawsId = true ∨ LacksValue h c ∨ spare) :
    ∃ ids', Frames cred (h ++ [c]) (LacksValue h c ∧ (c.drawsId = true ∨ spare))
      (drawnBy env c ds) ids' (s.send HMAC env c).1 := by
  have hleft := hf.leftover_send HMAC env c
  have hwire := (OrderStream.send_spec HMAC s env c).2
  have hreq := send_requestId HMAC s env c
  rcases payload_spec HMAC hf.leftover env c with
    ⟨hlack, hnone⟩ | ⟨hsends, payload, hpayload, -, hframe⟩
  · -- nothing is sent: a drawn id stays spare
    rw [hnone, Option.toList_none, List.append_nil] at hwire
    refine ⟨ids, hleft, by rw [hwire]; exact hf.wire, hf.nodup,
      fun id hid => mem_drawnBy (hf.ids_drawn id hid), ?_, ?_⟩
    · rintro ⟨-, hid⟩
      rw [hreq]
      exact hf.current huuid hid
    · intro hnot
      rw [hreq, OrderStream.identified, if_neg (fun hdraws => hnot ⟨hlack, .inl hdraws⟩)]
      exact hf.used (fun hspare => hnot ⟨hlack, .inr hspare⟩)
  · have hid : c.drawsId = true ∨ spare :=
      hok.imp_right (fun hor => hor.resolve_left hsends)
    obtain ⟨hmem, hfresh⟩ := hf.current huuid hid
    obtain ⟨hne, hquote⟩ := hds _ hmem
    rw [hpayload, Option.toList_some] at hwire
    refine ⟨ids ++ [(s.identified env c).requestId.request], hleft, ?_, ?_, ?_, ?_, ?_⟩
    · rw [hwire]
      exact List.rel_append hf.wire (.cons (hframe hne hquote) .nil)
    · exact List.Nodup.append hf.nodup (List.nodup_singleton _) (by simpa using hfresh)
    · intro id hid
      rcases List.mem_append.mp hid with hid | hid
      · exact mem_drawnBy (hf.ids_drawn id hid)
      · rw [List.mem_singleton.mp hid]
        exact hmem
    · exact fun hspare => absurd hspare.1 hsends
    · intro _
      rw [hreq]
      exact .inr (List.mem_append_right _ (List.mem_singleton_self _))

theorem Frames.getLastOrderId {s' : OrderStream} (hf : Frames cred h spare ds ids s)
    (hs : s.step HMAC .getLastOrderId = some s') : Frames cred h spare ds ids s' := by
  simp only [OrderStream.step] at hs
  split at hs
  · simp at hs
  · simp only [Option.ite_none_left_eq_some, Option.some.injEq] at hs
    rw [← hs.2]
    exact ⟨hf.leftover, hf.wire, hf.nodup, hf.ids_drawn, hf.unused, hf.used⟩

end Step

end AstraConnect.Order
