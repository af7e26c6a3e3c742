import AstraConnect.Order.ResponseGetters

set_option autoImplicit false

/-! # The balances of an account (`sendAccountInfoRequest`, `getAccountInfo`)

The search for the USDT balance writes the asset of every element and the numbers of the first
element that it does not pass over. A catch-all hides whatever goes wrong, so the call returns
`SUCCESS` also without numbers.
-/

namespace AstraConnect.Order

/-! ## The call and its result -/

/-- `OrderTracker::map`, as far as it leads to the wrapper of an order. -/
abbrev Wrappers := Str → Option OrderResponsePtrWrapper

/-- `if (accountInfo) return accountInfo->…; return …;` -/
def OrderResponsePtrWrapper.getAccount (w : OrderResponsePtrWrapper) (m : Member)
    (default : Value) : Option Value :=
  (w.response .ACCOUNT_INFO).elim (some default) (fun accountInfo => accountInfo m)

/-- A value is `none` when it is indeterminate. -/
structure AccountInfoLite where
  asset : Option Value
  balance : Option Value
  crossWalletBalance : Option Value
  availableBalance : Option Value
  updateTime : Option Value

section Call

variable (isDouble : Str → Bool) (HMAC : Str → Str → List UInt8)

/-- `registerOrderResponse(id, type, doc)` -/
def registerWrapper (map : Wrappers) (id : Str) (kind : ResponseKind) (doc : JsonTree) :
    Exec Wrappers := do
  let wrapper ← constructWrapper isDouble kind doc
  let _ ← valueOf (statusOf doc)
  return Function.update map id (some wrapper)

/-- What `sendAccountInfoRequest` does with a response. -/
def answerAccountInfo (map : Wrappers) (id : Str) (doc : JsonTree) :
    Wrappers × Option RequestStatus :=
  match statusOf doc with
  | none => (map, some .FAIL)
  | some status =>
      if status = 200 then
        match registerWrapper isDouble map id .ACCOUNT_INFO doc with
        | .error .throws => (map, some .FAIL)
        | .error .waits => (map, none)
        | .ok map => (map, some .SUCCESS)
      else if OrderStream.IsRejection status then (map, some .FAIL)
      else (map, some .UNKNOWN)

/-- `sendAccountInfoRequest(orderID)`, where `orderID` becomes the id that is drawn. -/
def sendAccountInfoRequest (s : OrderStream) (map : Wrappers) (env : Env) :
    Wrappers × Option RequestStatus :=
  match (s.generateID env.uuid).generateParamsForOrder HMAC env.now .sendAccountInfoRequest with
  | (_, none) => (map, some .FAIL)
  | (_, some _) =>
      match env.reply with
      | none => (map, some .FAIL)
      | some doc => answerAccountInfo isDouble map env.uuid doc

end Call

/-- `getAccountInfo(id, out)` of a registered id. -/
def getAccountInfo (map : Wrappers) (id : Str) : Option AccountInfoLite :=
  (map id).map fun w =>
    { balance := w.getAccount .balance (.fixed 0)
      availableBalance := w.getAccount .availableBalance (.fixed 0)
      asset := w.getAccount .asset (.text [])
      crossWalletBalance := w.getAccount .crossWalletBalance (.fixed 0)
      updateTime := w.getAccount .updateTime (.int64 0) }

/-! ## What should be reported

All five values of one element, and none from another. The condition is read off the array of the
response: the first element that the search does not pass over decides. -/

/-- The element has the asset USDT and a value for each key that is reported. -/
def CompleteBalance (elem : JsonTree) : Prop :=
  stringOf (elem.get "asset".toList) = some "USDT".toList ∧
    ∀ k ∈ [("balance".toList, FieldReader.fixed), ("availableBalance".toList, .fixed),
      ("crossWalletBalance".toList, .fixed), ("updateTime".toList, .int64)],
      (k.2.decode (elem.get k.1)).isSome

/-- All that is reported are the values of one complete element of `result`. -/
def AccountInfoLite.Reports (out : AccountInfoLite) (doc : JsonTree) : Prop :=
  out.asset = some (.text "USDT".toList) ∧
    ∃ elems elem, (resultOf doc).getArray = some elems ∧ elem ∈ elems ∧ CompleteBalance elem ∧
      out.balance = FieldReader.fixed.decode (elem.get "balance".toList) ∧
      out.availableBalance = FieldReader.fixed.decode (elem.get "availableBalance".toList) ∧
      out.crossWalletBalance = FieldReader.fixed.decode (elem.get "crossWalletBalance".toList) ∧
      out.updateTime = FieldReader.int64.decode (elem.get "updateTime".toList)

/-- The search goes on after an object whose own asset is not USDT. -/
def PassedOver (elem : JsonTree) : Prop :=
  elem.getObject.isSome ∧ stringOf (elem.get "asset".toList) ≠ some "USDT".toList

instance (elem : JsonTree) : Decidable (PassedOver elem) := inferInstanceAs (Decidable (_ ∧ _))

/-- The first element that is not passed over. -/
def searched (doc : JsonTree) : Option JsonTree :=
  (resultOf doc).getArray.bind (·.find? (fun elem => ¬ PassedOver elem))

/-- The search ends at an element with asset USDT, and all the seven keys that `parseFields` reads
from it can be read, also those that are not reported. -/
def SearchSucceeds (doc : JsonTree) : Prop :=
  ∃ elem, searched doc = some elem ∧
    stringOf (elem.get "asset".toList) = some "USDT".toList ∧
    ∀ m key reader, .field m key reader ∈ balanceAssigns → (reader.decode (elem.get key)).isSome

/-! ## When a list of assignments ends normally -/

section Assigned

variable {isDouble : Str → Bool} {obj : JsonTree} {m : Member} {key : Str} {reader : FieldReader}
  {r : Reading} {assigns : List Assign}

variable (isDouble m r) in
theorem run_ok_of_decode (h : (reader.decode (obj.get key)).isSome) :
    ∃ r', (Assign.field m key reader).run isDouble obj r = (r', .ok ()) := by
  obtain ⟨v, hv⟩ := Option.isSome_iff_exists.mp h
  cases reader with
  | text => exact ⟨_, Assign.run_text isDouble obj r m key⟩
  | name names =>
      cases hs : stringOf (obj.get key) with
      | none => simp [FieldReader.decode, hs] at hv
      | some text =>
          have hconvert : names.convert text = some v := by simpa [FieldReader.decode, hs] using hv
          simp only [Assign.run, hs, Option.getD_some, hconvert]
          exact ⟨_, rfl⟩
  | _ => exact ⟨r.set m v, by rw [Assign.run, hv]; all_goals simp⟩

variable (isDouble obj assigns r) in
/-- If every key can be decoded, all the assignments are made. -/
theorem assignAll_ok_of_decode
    (h : ∀ a ∈ assigns, ∃ m key reader, a = .field m key reader ∧
      (reader.decode (obj.get key)).isSome) :
    ∃ r', assignAll isDouble obj assigns r = (r', .ok ()) := by
  induction assigns generalizing r with
  | nil => exact ⟨r, rfl⟩
  | cons a rest ih =>
      obtain ⟨m, key, reader, rfl, hdecode⟩ := h _ (List.mem_cons_self ..)
      obtain ⟨r', hrun⟩ := run_ok_of_decode isDouble m r hdecode
      rw [assignAll_cons_ok hrun]
      exact ih r' (fun a ha => h a (List.mem_cons_of_mem _ ha))

theorem assignAll_append (obj : JsonTree) (front rest : List Assign) (r : Reading) :
    assignAll isDouble obj (front ++ rest) r =
      match assignAll isDouble obj front r with
      | (r', .ok _) => assignAll isDouble obj rest r'
      | stopped => stopped := by
  induction front generalizing r with
  | nil => rfl
  | cons a front ih =>
      rcases hp : a.run isDouble obj r with ⟨r', stop | ok⟩
      · rw [List.cons_append, assignAll_cons_error hp, assignAll_cons_error hp]
      · rw [List.cons_append, assignAll_cons_ok hp, assignAll_cons_ok hp, ih]

/-- When the member of the last assignment has got a value, none has thrown. -/
theorem ok_of_last_assigned {front : List Assign}
    (hfront : m ∉ front.flatMap Assign.writes) (hreader : reader.ignoresError = false)
    (hnone : r.members m = none)
    (hsome : (assignAll isDouble obj (front ++ [.field m key reader]) r).1.members m ≠ none) :
    ∃ r', assignAll isDouble obj (front ++ [.field m key reader]) r = (r', .ok ()) := by
  have hframe := assignAll_frame isDouble obj r hfront
  rw [assignAll_append] at hsome ⊢
  rcases hp : assignAll isDouble obj front r with ⟨r', stop | ok⟩
  · -- a stop in front leaves the member as it was
    rw [hp] at hsome hframe
    exact absurd (hframe.trans hnone) hsome
  · rw [hp] at hsome hframe
    by_cases hdecode : (reader.decode (obj.get key)).isSome
    · obtain ⟨r'', hrun⟩ := run_ok_of_decode isDouble m r' hdecode
      exact ⟨r'', assignAll_cons_ok hrun⟩
    · rw [Option.not_isSome_iff_eq_none] at hdecode
      have hrun : (Assign.field m key reader).run isDouble obj r' = (r', .error .throws) := by
        cases reader with
        | text => cases hreader
        | name names => cases hreader
        | _ => rw [Assign.run, hdecode]; all_goals simp
      replace hsome : (assignAll isDouble obj [.field m key reader] r').1.members m ≠ none := hsome
      rw [assignAll_cons_error hrun] at hsome
      exact absurd (hframe.trans hnone) hsome

end Assigned

/-! ## The search

`asset` is one variable for all elements, so an element without an asset is searched under the name
of the one before. As long as no element was USDT, that changes nothing. -/

section Search

variable (isDouble : Str → Bool)

/-- The names of an element: its own asset, or the one of the element before. -/
theorem asset_of_assetAssigns (elem : JsonTree) (r : Reading) :
    (assignAll isDouble elem assetAssigns r).1.members .asset =
      ((stringOf (elem.get "asset".toList)).map .text).or (r.members .asset) := by
  rw [assignAll_asset, setText_members_self, setText_members_of_ne _ _ (by decide)]

theorem assetAssigns_frame (elem : JsonTree) (r : Reading) {m : Member} (halias : m ≠ .accountAlias)
    (hasset : m ≠ .asset) :
    (assignAll isDouble elem assetAssigns r).1.members m = r.members m := by
  rw [assignAll_asset, setText_members_of_ne _ _ hasset, setText_members_of_ne _ _ halias]

/-- An object is passed over exactly when the asset that stands after it is not USDT, as long as
the asset before it is not. -/
theorem passedOver_iff {elem : JsonTree} {r : Reading} (hobj : elem.getObject.isSome)
    (hasset : r.members .asset ≠ some (.text "USDT".toList)) :
    PassedOver elem ↔
      (assignAll isDouble elem assetAssigns r).1.members .asset ≠ some (.text "USDT".toList) := by
  rw [asset_of_assetAssigns, PassedOver, and_iff_right hobj]
  cases stringOf (elem.get "asset".toList) with
  | none => simpa using hasset
  | some asset => simp

/-- An object at which the search ends has the asset USDT. -/
theorem usdt_of_not_passedOver {elem : JsonTree} (hobj : elem.getObject.isSome)
    (h : ¬ PassedOver elem) : stringOf (elem.get "asset".toList) = some "USDT".toList := by
  by_contra hne
  exact h ⟨hobj, hne⟩

/-- The elements that are passed over change the names only, and the asset never to USDT. -/
theorem readElements_eq (elems : List JsonTree) (r : Reading)
    (hasset : r.members .asset ≠ some (.text "USDT".toList)) :
    ∃ r', r'.buffer = r.buffer ∧
      (∀ m, m ≠ .accountAlias → m ≠ .asset → r'.members m = r.members m) ∧
      r'.members .asset ≠ some (.text "USDT".toList) ∧
      readElements isDouble elems r =
        (elems.find? (fun elem => ¬ PassedOver elem)).elim (r', .ok ()) (fun elem =>
          if elem.getObject.isSome then
            assignAll isDouble elem balanceAssigns (assignAll isDouble elem assetAssigns r').1
          else (r', .error .throws)) := by
  induction elems generalizing r with
  | nil => exact ⟨r, rfl, fun _ _ _ => rfl, hasset, rfl⟩
  | cons elem rest ih =>
      by_cases hpass : PassedOver elem
      · -- the search goes on, with the names of this element
        have hnamed := (passedOver_iff isDouble hpass.1 hasset).mp hpass
        obtain ⟨r', hbuffer, hframe, hasset', heq⟩ := ih _ hnamed
        refine ⟨r', ?_, fun m halias hm => ?_, hasset', ?_⟩
        · rw [hbuffer, assignAll_asset, setText_buffer, setText_buffer]
        · rw [hframe m halias hm, assetAssigns_frame isDouble elem r halias hm]
        · rw [readElements, if_pos hpass.1, List.find?_cons_of_neg (by simp [hpass]), ← heq]
          exact if_pos hnamed
      · -- the search ends here
        refine ⟨r, rfl, fun _ _ _ => rfl, hasset, ?_⟩
        rw [readElements, List.find?_cons_of_pos (by simp [hpass]), Option.elim_some]
        by_cases hobj : elem.getObject.isSome
        · have hnamed := (passedOver_iff isDouble hobj hasset).not.mp hpass
          rw [if_pos hobj, if_pos hobj]
          exact if_neg hnamed
        · rw [if_neg hobj, if_neg hobj]

variable {isDouble} {doc : JsonTree} {members : Members}

/-- The members of an account response start from the head, which writes none of these. -/
theorem members_of_account (hstatus : statusOf doc = some 200)
    (h : constructResponse isDouble .ACCOUNT_INFO doc = .ok members) :
    ∃ r : Reading, (∀ m, m ≠ .id → m ≠ .status → r.members m = Reading.initial.members m) ∧
      members = ((resultOf doc).getArray.elim r
        (fun elems => (readElements isDouble elems r).1)).members := by
  obtain ⟨rfl, -⟩ := members_of_construct h
  rcases hp : assignAll isDouble doc headAssigns .initial with ⟨r, stop | ok⟩
  · obtain ⟨-, hnone⟩ := of_head_error hp
    rw [hnone] at hstatus
    cases hstatus
  · obtain ⟨-, hmembers, -⟩ := of_head_ok hp
    refine ⟨r, hmembers, ?_⟩
    simp only [readBefore, hp]
    cases (resultOf doc).getArray <;> rfl

/-- The assignment throws when its key is not of the type that is read. -/
def Assign.throwsOnError : Assign → Bool
  | .field _ _ reader => ! reader.ignoresError
  | .trailingStop => false

theorem balanceAssigns_throwOnError : ∀ a ∈ balanceAssigns, a.throwsOnError = true := by decide

theorem ignoresError_of_balance {m : Member} {key : Str} {reader : FieldReader}
    (h : .field m key reader ∈ balanceAssigns) : reader.ignoresError = false := by
  simpa [Assign.throwsOnError] using balanceAssigns_throwOnError _ h

theorem getObject_isSome_of_get {j : JsonTree} {key s : Str}
    (h : stringOf (j.get key) = some s) : j.getObject.isSome := by
  cases hobj : j.getObject with
  | none => simp [stringOf, JsonTree.get, hobj] at h
  | some fields => rfl

/-- When all the assignments of an element have been made, its numbers are the members. -/
theorem members_of_balance {elem : JsonTree} {r r' : Reading}
    (hrun : assignAll isDouble elem balanceAssigns r = (r', .ok ())) {m : Member} {key : Str}
    {reader : FieldReader} (hmem : .field m key reader ∈ balanceAssigns) :
    (reader.decode (elem.get key)).isSome ∧ r'.members m = reader.decode (elem.get key) :=
  assignAll_own hrun (by decide) hmem
    (fun hignores => absurd (ignoresError_of_balance hmem) (by simp [hignores]))

theorem initial_asset : Reading.initial.members .asset ≠ some (.text "USDT".toList) := by decide

/-- After a search that succeeds the members are the values of its element. -/
theorem members_of_search (hstatus : statusOf doc = some 200)
    (h : constructResponse isDouble .ACCOUNT_INFO doc = .ok members) {elem : JsonTree}
    (hsearch : searched doc = some elem)
    (hasset : stringOf (elem.get "asset".toList) = some "USDT".toList)
    (hdecode : ∀ m key reader, .field m key reader ∈ balanceAssigns →
      (reader.decode (elem.get key)).isSome) :
    members .asset = some (.text "USDT".toList) ∧
      ∀ m key reader, .field m key reader ∈ balanceAssigns →
        members m = reader.decode (elem.get key) := by
  obtain ⟨r, hr, rfl⟩ := members_of_account hstatus h
  obtain ⟨elems, helems, hfind⟩ := Option.bind_eq_some_iff.mp hsearch
  have hinit : r.members .asset ≠ some (.text "USDT".toList) := by
    rw [hr .asset (by decide) (by decide)]
    exact initial_asset
  obtain ⟨r', -, -, -, heq⟩ := readElements_eq isDouble elems r hinit
  rw [hfind, Option.elim_some, if_pos (getObject_isSome_of_get hasset)] at heq
  obtain ⟨r'', hrun⟩ := assignAll_ok_of_decode isDouble elem
    (assignAll isDouble elem assetAssigns r').1 balanceAssigns (by
      intro a ha
      cases a with
      | field m key reader => exact ⟨m, key, reader, rfl, hdecode m key reader ha⟩
      | trailingStop => exact absurd (balanceAssigns_throwOnError _ ha) (by decide))
  have hmembers : ((resultOf doc).getArray.elim r
      (fun elems => (readElements isDouble elems r).1)).members = r''.members := by
    rw [helems, Option.elim_some, heq, hrun]
  rw [hmembers]
  refine ⟨?_, fun m key reader hmem => (members_of_balance hrun hmem).2⟩
  have hframe : (assignAll isDouble elem balanceAssigns _).1.members .asset = _ :=
    assignAll_frame isDouble elem (assignAll isDouble elem assetAssigns r').1 (by decide)
  rw [hrun] at hframe
  rw [hframe, asset_of_assetAssigns, hasset]
  rfl

/-- A USDT asset with an update time comes from a search that succeeds. -/
theorem search_of_members (hstatus : statusOf doc = some 200)
    (h : constructResponse isDouble .ACCOUNT_INFO doc = .ok members)
    (hasset : members .asset = some (.text "USDT".toList))
    (htime : members .updateTime ≠ none) : SearchSucceeds doc := by
  obtain ⟨r, hr, rfl⟩ := members_of_account hstatus h
  have hinit : r.members .asset ≠ some (.text "USDT".toList) := by
    rw [hr .asset (by decide) (by decide)]
    exact initial_asset
  cases helems : (resultOf doc).getArray with
  | none =>
      rw [helems] at hasset
      exact absurd hasset hinit
  | some elems =>
      rw [helems, Option.elim_some] at hasset htime
      obtain ⟨r', -, hframe, hasset', heq⟩ := readElements_eq isDouble elems r hinit
      cases hfind : elems.find? (fun elem => ¬ PassedOver elem) with
      | none =>
          rw [heq, hfind] at hasset
          exact absurd hasset hasset'
      | some elem =>
          rw [heq, hfind, Option.elim_some] at hasset htime
          by_cases hobj : elem.getObject.isSome
          · rw [if_pos hobj] at hasset htime
            have hpass : ¬ PassedOver elem := by simpa using List.find?_some hfind
            have husdt := usdt_of_not_passedOver hobj hpass
            have hnone :
                (assignAll isDouble elem assetAssigns r').1.members .updateTime = none := by
              rw [assetAssigns_frame isDouble elem r' (by decide) (by decide),
                hframe _ (by decide) (by decide), hr _ (by decide) (by decide)]
              rfl
            -- `updateTime` is assigned last, so nothing has thrown in front of it
            have hlast : balanceAssigns = balanceAssigns.dropLast ++
                [.field .updateTime "updateTime".toList .int64] := rfl
            rw [hlast] at htime
            obtain ⟨r'', hrun⟩ := ok_of_last_assigned (by decide) rfl hnone htime
            rw [← hlast] at hrun
            refine ⟨elem, ?_, husdt, fun m key reader hmem => (members_of_balance hrun hmem).1⟩
            rw [searched, helems]
            exact hfind
          · rw [if_neg hobj] at hasset
            exact absurd hasset hasset'

end Search

/-! ## What is reported

The members start from those of a new object, in which the asset is empty, and every exception is
caught. So what is reported is complete exactly when the search got to its end. -/

section Report

variable {isDouble : Str → Bool} {HMAC : Str → Str → List UInt8} {s : OrderStream} {map : Wrappers}
  {env : Env} {doc : JsonTree}

/-- The status that is returned is the one that the stream's call returns. -/
theorem answerAccountInfo_status (s : OrderStream) (map : Wrappers) (id : Str) (doc : JsonTree) :
    (answerAccountInfo isDouble map id doc).2 = (s.handleAccountInfo doc).2 := by
  unfold answerAccountInfo OrderStream.handleAccountInfo
  cases hst : statusOf doc with
  | none => rfl
  | some status =>
      by_cases h200 : status = 200
      · have hend := orderResponsePtrWrapper_eq isDouble .ACCOUNT_INFO doc
        simp only [h200, if_true, registerWrapper, OrderTracker.registerOrderResponse, hend, hst,
          OrderTypeSent.kind]
        rcases constructWrapper isDouble .ACCOUNT_INFO doc with (_ | _) | w <;> rfl
      · simp only [if_neg h200]
        split <;> rfl

theorem sendAccountInfoRequest_status :
    (sendAccountInfoRequest isDouble HMAC s map env).2 =
      (s.send HMAC env .sendAccountInfoRequest).2 := by
  simp only [sendAccountInfoRequest, OrderStream.send, OrderStream.exchange]
  rcases (s.generateID env.uuid).generateParamsForOrder HMAC env.now .sendAccountInfoRequest
    with ⟨r, _ | params⟩
  · rfl
  · cases env.reply with
    | none => rfl
    | some doc => exact answerAccountInfo_status _ map env.uuid doc

theorem answer_of_success {id : Str}
    (h : (answerAccountInfo isDouble map id doc).2 = some .SUCCESS) :
    statusOf doc = some 200 ∧ ∃ w, constructWrapper isDouble .ACCOUNT_INFO doc = .ok w ∧
      (answerAccountInfo isDouble map id doc).1 = Function.update map id (some w) := by
  cases hst : statusOf doc with
  | none => simp [answerAccountInfo, hst] at h
  | some status =>
      by_cases h200 : status = 200
      · subst h200
        simp only [answerAccountInfo, registerWrapper, hst, if_true] at h ⊢
        rcases hw : constructWrapper isDouble .ACCOUNT_INFO doc with (_ | _) | w
        · rw [hw] at h
          cases h
        · rw [hw] at h
          cases h
        · exact ⟨trivial, w, rfl, rfl⟩
      · simp only [answerAccountInfo, hst, if_neg h200] at h
        split at h <;> simp at h

/-- A call that returns `SUCCESS` has registered its response. -/
theorem registered_of_success (hreply : env.reply = some doc)
    (hsuccess : (sendAccountInfoRequest isDouble HMAC s map env).2 = some .SUCCESS) :
    statusOf doc = some 200 ∧ ∃ w, constructWrapper isDouble .ACCOUNT_INFO doc = .ok w ∧
      (sendAccountInfoRequest isDouble HMAC s map env).1
        = Function.update map env.uuid (some w) := by
  have hsend : sendAccountInfoRequest isDouble HMAC s map env = (map, some .FAIL) ∨
      sendAccountInfoRequest isDouble HMAC s map env
        = answerAccountInfo isDouble map env.uuid doc := by
    simp only [sendAccountInfoRequest, hreply]
    rcases (s.generateID env.uuid).generateParamsForOrder HMAC env.now .sendAccountInfoRequest
      with ⟨r, _ | params⟩
    · exact Or.inl rfl
    · exact Or.inr rfl
  rcases hsend with hsend | hsend
  · rw [hsend] at hsuccess
    cases hsuccess
  · rw [hsend] at hsuccess ⊢
    exact answer_of_success hsuccess

/-- **The balances of one USDT entry.** After a call that returned `SUCCESS` the account info is
that of one complete entry, and there is such an entry, exactly when the search succeeds. -/
theorem accountInfo_reported_iff (isDouble : Str → Bool) (HMAC : Str → Str → List UInt8)
    (s : OrderStream) (map : Wrappers) (env : Env) (doc : JsonTree) (hreply : env.reply = some doc)
    (hsuccess : (sendAccountInfoRequest isDouble HMAC s map env).2 = some .SUCCESS) :
    ((∃ out, getAccountInfo (sendAccountInfoRequest isDouble HMAC s map env).1 env.uuid = some out ∧
        out.Reports doc) ∧
      ∃ elems elem, (resultOf doc).getArray = some elems ∧ elem ∈ elems ∧ CompleteBalance elem) ↔
    SearchSucceeds doc := by
  obtain ⟨hstatus, w, hw, hmap⟩ := registered_of_success hreply hsuccess
  obtain ⟨members, hmembers, hresponse⟩ := response_of_construct hstatus hw
  have haccount : ∀ m default, w.getAccount m default = members m := fun m default => by
    rw [OrderResponsePtrWrapper.getAccount, hresponse, Option.elim_some]
  have hout : getAccountInfo (sendAccountInfoRequest isDouble HMAC s map env).1 env.uuid =
      some ⟨members .asset, members .balance, members .crossWalletBalance,
        members .availableBalance, members .updateTime⟩ := by
    rw [hmap, getAccountInfo, Function.update_self]
    simp only [Option.map_some, haccount]
  rw [hout]
  constructor
  · rintro ⟨⟨out, hout, hasset, elems, elem, -, -, hcomplete, -, -, -, htime⟩, -⟩
    obtain rfl := Option.some.inj hout
    have hsome := hcomplete.2 ("updateTime".toList, .int64) (by simp)
    -- an unassigned `updateTime` says that the search has not come to its end
    refine search_of_members hstatus hmembers hasset fun hnone => ?_
    rw [← htime, hnone] at hsome
    cases hsome
  · rintro ⟨elem, hsearch, husdt, hdecode⟩
    obtain ⟨hasset, hvalues⟩ := members_of_search hstatus hmembers hsearch husdt hdecode
    obtain ⟨elems, helems, hfind⟩ := Option.bind_eq_some_iff.mp hsearch
    have hmem : elem ∈ elems := List.mem_of_find?_eq_some hfind
    have hcomplete : CompleteBalance elem := by
      refine ⟨husdt, fun k hk => ?_⟩
      -- the four reported numbers are among the seven that are read
      obtain ⟨a, ha, hak⟩ : ∃ a ∈ balanceAssigns, a = .field .balance k.1 k.2 ∨
          a = .field .availableBalance k.1 k.2 ∨ a = .field .crossWalletBalance k.1 k.2 ∨
          a = .field .updateTime k.1 k.2 := by
        revert k
        decide
      rcases hak with rfl | rfl | rfl | rfl <;> exact hdecode _ _ _ ha
    exact ⟨⟨_, rfl, hasset, elems, elem, helems, hmem, hcomplete,
      hvalues .balance _ _ (by decide), hvalues .availableBalance _ _ (by decide),
      hvalues .crossWalletBalance _ _ (by decide), hvalues .updateTime _ _ (by decide)⟩,
      elems, elem, helems, hmem, hcomplete⟩

end Report

/-! ## Two responses -/

/-- A response with these balances, and a first call that it answers. -/
def accountDoc (elems : List JsonTree) : JsonTree :=
  .obj [("id".toList, .str "a".toList), ("status".toList, .int 200),
    ("result".toList, .arr elems), ("rateLimits".toList, .arr [])]

def accountCall (elems : List JsonTree) : Wrappers × Option RequestStatus :=
  sendAccountInfoRequest (fun _ => true) (fun _ _ => [1]) (.construct sampleKeys) (fun _ => none)
    (sampleEnv "a" (some (accountDoc elems)))

def bnbElement : JsonTree := .obj [("asset".toList, .str "BNB".toList)]

def usdtElement : JsonTree :=
  .obj [("accountAlias".toList, .str "SgsR".toList), ("asset".toList, .str "USDT".toList),
    ("balance".toList, .str "1.5".toList), ("crossWalletBalance".toList, .str "1".toList),
    ("crossUnPnl".toList, .str "0".toList), ("availableBalance".toList, .str "1".toList),
    ("maxWithdrawAmount".toList, .str "1".toList), ("marginAvailable".toList, .bool true),
    ("updateTime".toList, .int 7)]

theorem accountInfo_reported_usdt :
    ∃ out, getAccountInfo (accountCall [bnbElement, usdtElement]).1 "a".toList = some out ∧
      out.Reports (accountDoc [bnbElement, usdtElement]) := by
  refine ((accountInfo_reported_iff (fun _ => true) (fun _ _ => [1]) (.construct sampleKeys)
    (fun _ => none) (sampleEnv "a" (some (accountDoc [bnbElement, usdtElement]))) _ rfl rfl).mpr
    ⟨usdtElement, rfl, rfl, fun m key reader hmem => ?_⟩).1
  simp only [balanceAssigns, List.mem_cons, Assign.field.injEq, List.not_mem_nil, or_false] at hmem
  rcases hmem with ⟨-, rfl, rfl⟩ | ⟨-, rfl, rfl⟩ | ⟨-, rfl, rfl⟩ | ⟨-, rfl, rfl⟩ | ⟨-, rfl, rfl⟩ |
    ⟨-, rfl, rfl⟩ | ⟨-, rfl, rfl⟩ <;> rfl

/-- Without a USDT entry the call returns `SUCCESS` too, and the asset reported is the last one,
with indeterminate numbers. -/
theorem accountInfo_noUsdt :
    (∀ elem ∈ [bnbElement], ¬ CompleteBalance elem) ∧
      (accountCall [bnbElement]).2 = some .SUCCESS ∧
      ∃ out, getAccountInfo (accountCall [bnbElement]).1 "a".toList = some out ∧
        out.asset = some (.text "BNB".toList) ∧ out.balance = none ∧
        ¬ out.Reports (accountDoc [bnbElement]) := by
  refine ⟨fun elem hmem hcomplete => ?_, rfl, _, rfl, rfl, rfl, fun h => ?_⟩
  · rw [List.mem_singleton.mp hmem] at hcomplete
    exact absurd hcomplete.1 (by decide)
  · exact absurd h.1 (by decide)

end AstraConnect.Order
