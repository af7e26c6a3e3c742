import AstraConnect.Order.OrderResponse
import AstraConnect.Order.OwnResponse

set_option autoImplicit false

/-! # How reading a response ends

What an assignment does to the members, and how the parsers end; only the rate limits can make one
wait. The tracker follows only the reads of a response (`newOrderResponse`, `accountInfoResponse`);
these are the ends of the parsers modelled here. They look at `status` before it is narrowed to the
`int` of the member, as the source does (`doc["status"].get_int64().value() == 200`).
-/

namespace AstraConnect.Order

section Parse

variable (isDouble : Str → Bool)

/-! ## What an assignment does to the members -/

/-- A string into a member, or nothing. -/
def Reading.setText (r : Reading) (m : Member) (text : Option Str) : Reading :=
  text.elim r (fun s => r.set m (.text s))

section Members

variable (r : Reading) (m : Member)

@[simp] theorem set_buffer (v : Value) : (r.set m v).buffer = r.buffer := rfl

@[simp] theorem set_members_self (v : Value) : (r.set m v).members m = some v :=
  Function.update_self ..

@[simp] theorem set_members_of_ne {m' : Member} (h : m' ≠ m) (v : Value) :
    (r.set m v).members m' = r.members m' := Function.update_of_ne h ..

@[simp] theorem setText_buffer (text : Option Str) : (r.setText m text).buffer = r.buffer := by
  cases text <;> rfl

@[simp] theorem setText_members_self (text : Option Str) :
    (r.setText m text).members m = (text.map .text).or (r.members m) := by
  cases text <;> simp [Reading.setText]

@[simp] theorem setText_members_of_ne {m' : Member} (h : m' ≠ m) (text : Option Str) :
    (r.setText m text).members m' = r.members m' := by
  cases text <;> simp [Reading.setText, h]

end Members

/-! ## How an assignment ends -/

@[simp] theorem setValue_some (r : Reading) (m : Member) (v : Value) :
    r.setValue m (some v) = (r.set m v, .ok ()) := rfl

@[simp] theorem setValue_none (r : Reading) (m : Member) :
    r.setValue m none = (r, .error .throws) := rfl

theorem setValue_ne_waits (r : Reading) (m : Member) (v : Option Value) :
    (r.setValue m v).2 ≠ .error .waits := by
  cases v <;> simp

theorem Assign.run_text (obj : JsonTree) (r : Reading) (m : Member) (key : Str) :
    (Assign.field m key .text).run isDouble obj r =
      (r.setText m (stringOf (obj.get key)), .ok ()) := by
  simp only [Assign.run]
  cases stringOf (obj.get key) <;> rfl

theorem Assign.run_trailingStop (obj : JsonTree) (r : Reading)
    (h : r.members .type = some (.orderType .TRAILING_STOP_MARKET)) :
    Assign.trailingStop.run isDouble obj r =
      match FieldReader.fixed.decode (obj.get "activatePrice".toList) with
      | some v => (r.set .activatePrice v).setValue .priceRate
          (((stringOf (obj.get "priceRate".toList)).filter isDouble).map .double)
      | none => (r, .error .throws) := by
  simp only [Assign.run, if_pos h]
  cases FieldReader.fixed.decode (obj.get "activatePrice".toList) <;> rfl

theorem Assign.run_ne_waits (obj : JsonTree) (r : Reading) (a : Assign) :
    (a.run isDouble obj r).2 ≠ .error .waits := by
  cases a with
  | field m key reader =>
      cases reader with
      | text => simp [Assign.run_text]
      | _ => exact setValue_ne_waits _ _ _
  | trailingStop =>
      by_cases h : r.members .type = some (.orderType .TRAILING_STOP_MARKET)
      · rw [Assign.run_trailingStop isDouble obj r h]
        cases FieldReader.fixed.decode (obj.get "activatePrice".toList) with
        | none => simp
        | some v => exact setValue_ne_waits _ _ _
      · simp [Assign.run, h]

section Cons

variable {isDouble} {obj : JsonTree} {r r' : Reading} {a : Assign} {rest : List Assign}

theorem assignAll_cons_ok (h : a.run isDouble obj r = (r', .ok ())) :
    assignAll isDouble obj (a :: rest) r = assignAll isDouble obj rest r' := by
  simp only [assignAll, h]

theorem assignAll_cons_error {stop : Stop} (h : a.run isDouble obj r = (r', .error stop)) :
    assignAll isDouble obj (a :: rest) r = (r', .error stop) := by
  simp only [assignAll, h]

end Cons

theorem assignAll_ne_waits (obj : JsonTree) (assigns : List Assign) (r : Reading) :
    (assignAll isDouble obj assigns r).2 ≠ .error .waits := by
  induction assigns generalizing r with
  | nil => simp [assignAll]
  | cons a rest ih =>
      have hrun := Assign.run_ne_waits isDouble obj r a
      rcases h : a.run isDouble obj r with ⟨r', stop | ok⟩
      · rw [h] at hrun
        rwa [assignAll_cons_error h]
      · rw [assignAll_cons_ok h]
        exact ih r'

theorem readElements_ne_waits (elems : List JsonTree) (r : Reading) :
    (readElements isDouble elems r).2 ≠ .error .waits := by
  induction elems generalizing r with
  | nil => simp [readElements]
  | cons elem rest ih =>
      rw [readElements]
      split
      · dsimp only
        split
        · exact ih _
        · exact assignAll_ne_waits isDouble elem balanceAssigns _
      · simp

/-- Nothing in front of the rate limits waits. -/
theorem readBefore_ne_waits (doc : JsonTree) (kind : ResponseKind) :
    (readBefore isDouble doc kind).2 ≠ .error .waits := by
  have hhead := assignAll_ne_waits isDouble doc headAssigns .initial
  have hresult : ∀ assigns, (readResult isDouble assigns doc).2 ≠ .error .waits := by
    intro assigns
    unfold readResult
    rcases h : assignAll isDouble doc headAssigns .initial with ⟨r, stop | ok⟩
    · rwa [h] at hhead
    · dsimp only
      split
      · exact assignAll_ne_waits isDouble _ _ _
      · simp
  cases kind with
  | NEW => exact hresult _
  | MODIFY => exact hresult _
  | CANCEL => exact hresult _
  | QUERY => exact assignAll_ne_waits isDouble _ _ _
  | ACCOUNT_INFO =>
      unfold readBefore
      rcases h : assignAll isDouble doc headAssigns .initial with ⟨r, stop | ok⟩
      · rwa [h] at hhead
      · dsimp only
        cases (resultOf doc).getArray with
        | none => simp
        | some elems => exact readElements_ne_waits isDouble elems r

/-! ## When a response waits

The ring of the rate limits belongs to the response that is being built, so nobody can take from it
yet. It waits at the ninth entry, if it comes so far. -/

/-- The numbers of a rate limit are integers. -/
def RateNumbers (rate : JsonTree) : Prop :=
  ∀ key ∈ ["intervalNum".toList, "limit".toList, "count".toList],
    ((rate.get key).bind JsonTree.getInt64).isSome

/-- The array `rateLimits` has more entries than `rateLimitBuffer` holds, and the numbers of those
up to the ninth are integers. -/
def RatesOverflow (doc : JsonTree) : Prop :=
  ∃ rates, (doc.get "rateLimits".toList).bind JsonTree.getArray = some rates ∧
    rateLimitCapacity < rates.length ∧
    ∀ rate ∈ rates.take (rateLimitCapacity + 1), RateNumbers rate

theorem readInts_ok_iff (fields : List (Str × JsonTree)) (keys : List Str) (buffer : Str) :
    (∃ text, (keys.map FieldRead.int64).foldlM (FieldRead.run fields) buffer = .ok text) ↔
      ∀ key ∈ keys, ((JsonTree.findField fields key).bind JsonTree.getInt64).isSome := by
  induction keys with
  | nil => exact iff_of_true ⟨buffer, rfl⟩ (fun key h => by cases h)
  | cons key keys ih =>
      rw [List.map_cons, List.foldlM_cons, List.forall_mem_cons, ← ih, FieldRead.run]
      cases (JsonTree.findField fields key).bind JsonTree.getInt64 with
      | none =>
          refine iff_of_false ?_ (fun h => by cases h.1)
          rintro ⟨text, h⟩
          cases h
      | some n => exact (and_iff_right Option.isSome_some).symm

theorem readableRate_iff (rate : JsonTree) : ReadableRate rate ↔ RateNumbers rate := by
  have hfold : ∀ fields, readFields fields
      [.int64 "intervalNum".toList, .int64 "limit".toList, .int64 "count".toList] = .ok () ↔
        RateNumbers (.obj fields) := by
    intro fields
    refine Iff.trans ?_ (readInts_ok_iff fields
      ["intervalNum".toList, "limit".toList, "count".toList] [])
    rw [readFields, bind_eq_ok_iff]
    exact exists_congr (fun text => and_iff_left rfl)
  cases rate with
  | obj fields =>
      rw [← hfold fields, ReadableRate]
      simp [JsonTree.getObject]
  | _ =>
      refine iff_of_false (fun h => ?_) (fun h => ?_)
      · simp [ReadableRate, JsonTree.getObject] at h
      · have hfirst := h "intervalNum".toList (List.mem_cons_self ..)
        simp [JsonTree.get, JsonTree.getObject] at hfirst

theorem readRateLimits_waits_iff (doc : JsonTree) :
    readRateLimits doc = .error .waits ↔ RatesOverflow doc := by
  unfold readRateLimits RatesOverflow
  simp only [← readableRate_iff]
  rw [bind_eq_waits_iff, or_iff_right (valueOf_ne_waits _)]
  constructor
  · rintro ⟨rates, hrates, hwait⟩
    exact ⟨rates, valueOf_eq_ok_iff.mp hrates,
      (addRateLimits_waits_iff rates 0 (Nat.zero_le _)).mp hwait⟩
  · rintro ⟨rates, hrates, hover⟩
    exact ⟨rates, valueOf_eq_ok_iff.mpr hrates,
      (addRateLimits_waits_iff rates 0 (Nat.zero_le _)).mpr hover⟩

theorem constructResponse_waits_iff (kind : ResponseKind) (doc : JsonTree) :
    constructResponse isDouble kind doc = .error .waits ↔
      (readBefore isDouble doc kind).2 = .ok () ∧ RatesOverflow doc := by
  have hends : constructResponse isDouble kind doc = .error .waits ↔
      (parseFields isDouble kind doc).2 = .error .waits := by
    unfold constructResponse
    rcases parseFields isDouble kind doc with ⟨r, (_ | _) | _⟩
    · dsimp only
      cases kind.catches <;> simp
    · simp
    · simp
  have hbefore := readBefore_ne_waits isDouble doc kind
  rw [hends, parseFields, ← readRateLimits_waits_iff]
  rcases h : readBefore isDouble doc kind with ⟨r, stop | ok⟩
  · rw [h] at hbefore
    exact iff_of_false hbefore (fun h => absurd h.1 (by simp))
  · exact (and_iff_right rfl).symm

/-! ## The reads that the tracker follows

`OrderTracker.lean` has each parser as a list of reads without values. The assignments here end as
those reads do, and leave the same name in `intermediateString`. -/

/-- The read of an assignment that can throw. -/
def Assign.toRead : Assign → Option FieldRead
  | .field _ key .int64 => some (.int64 key)
  | .field _ key .bool => some (.bool key)
  | .field _ key .fixed => some (.fixed key)
  | .field _ _ .text => none
  | .field _ key (.name names) =>
      some (.name key (if names.fallback.isSome then none else some (names.table.map (·.1))))
  | .trailingStop => none

theorem convert_isSome_iff (names : Names) (text : Str) :
    (names.convert text).isSome ↔
      names.fallback.isSome ∨ Accepts (names.table.map (·.1)) text := by
  have hfind : (names.table.find? (fun e => text = e.1 ∨ text = e.1.map Char.toLower)).isSome ↔
      Accepts (names.table.map (·.1)) text := by
    rw [List.find?_isSome, Accepts, List.map_map]
    constructor
    · rintro ⟨e, hm, he⟩
      rcases of_decide_eq_true he with rfl | rfl
      · exact Or.inl (List.mem_map.mpr ⟨e, hm, rfl⟩)
      · exact Or.inr (List.mem_map.mpr ⟨e, hm, rfl⟩)
    · rintro (h | h)
      · obtain ⟨e, hm, rfl⟩ := List.mem_map.mp h
        exact ⟨e, hm, decide_eq_true (Or.inl rfl)⟩
      · obtain ⟨e, hm, rfl⟩ := List.mem_map.mp h
        exact ⟨e, hm, decide_eq_true (Or.inr rfl)⟩
  rw [← hfind, Names.convert]
  cases names.table.find? (fun e => text = e.1 ∨ text = e.1.map Char.toLower) <;> simp

/-- How an assignment ends, and the buffer it leaves. -/
def bufferOf (p : Reading × Exec Unit) : Exec Str := p.2.map (fun _ => p.1.buffer)

@[simp] theorem bufferOf_ok (r : Reading) : bufferOf (r, .ok ()) = .ok r.buffer := rfl

@[simp] theorem bufferOf_error (r : Reading) (stop : Stop) :
    bufferOf (r, .error stop) = .error stop := rfl

theorem bufferOf_setValue (r : Reading) (m : Member) (v : Option Value) :
    bufferOf (r.setValue m v) = (valueOf v).map (fun _ => r.buffer) := by
  cases v <;> rfl

/-- A field that is read with an exception ends as its read does, the others leave the buffer. -/
theorem bufferOf_run (fields : List (Str × JsonTree)) (r : Reading) (m : Member) (key : Str)
    (reader : FieldReader) :
    bufferOf ((Assign.field m key reader).run isDouble (.obj fields) r) =
      match (Assign.field m key reader).toRead with
      | some read => read.run fields r.buffer
      | none => .ok r.buffer := by
  have hget : (JsonTree.obj fields).get key = JsonTree.findField fields key := rfl
  -- one case for each kind of read; only the texts and the names touch the buffer
  cases reader with
  | int64 =>
      simp only [Assign.run, Assign.toRead, FieldRead.run, FieldReader.decode, hget,
        bufferOf_setValue]
      cases (JsonTree.findField fields key).bind JsonTree.getInt64 <;> rfl
  | bool =>
      simp only [Assign.run, Assign.toRead, FieldRead.run, FieldReader.decode, hget,
        bufferOf_setValue]
      cases (JsonTree.findField fields key).bind JsonTree.getBool <;> rfl
  | fixed =>
      have hread := valueOf_toOption (readFixed_ne_waits (JsonTree.findField fields key))
      simp only [Assign.run, Assign.toRead, FieldRead.run, FieldReader.decode, hget,
        bufferOf_setValue]
      rw [← hread]
      cases (readFixed (JsonTree.findField fields key)).toOption <;> rfl
  | text =>
      simp only [Assign.run, Assign.toRead, hget]
      cases stringOf (JsonTree.findField fields key) <;> rfl
  | name names =>
      simp only [Assign.run, Assign.toRead, FieldRead.run, hget, bufferOf_setValue, stringOf]
      set text := ((JsonTree.findField fields key).bind JsonTree.getString).getD r.buffer
      have hconvert := convert_isSome_iff names text
      have hall : (if names.fallback.isSome then none else some (names.table.map (·.1))).all
          (Accepts · text) = (names.convert text).isSome := by
        rw [Bool.eq_iff_iff, hconvert]
        cases names.fallback <;> simp
      rw [hall]
      cases names.convert text <;> rfl

/-- **The reads of the assignments end as the assignments do.** -/
theorem assignAll_reads (fields : List (Str × JsonTree)) (assigns : List Assign)
    (h : .trailingStop ∉ assigns) (r : Reading) :
    (assigns.filterMap Assign.toRead).foldlM (FieldRead.run fields) r.buffer
      = bufferOf (assignAll isDouble (.obj fields) assigns r) := by
  induction assigns generalizing r with
  | nil => rfl
  | cons a rest ih =>
      have hrest : .trailingStop ∉ rest := fun hm => h (List.mem_cons_of_mem _ hm)
      cases a with
      | trailingStop => exact absurd (List.mem_cons_self ..) h
      | field m key reader =>
          -- the reads go on with the buffer that the assignment leaves
          have hrun := bufferOf_run isDouble fields r m key reader
          rcases hp : (Assign.field m key reader).run isDouble (.obj fields) r with ⟨r', stop | ok⟩
          · rw [assignAll_cons_error hp]
            rw [hp] at hrun
            cases hread : (Assign.field m key reader).toRead with
            | none =>
                simp only [hread] at hrun
                exact absurd hrun (by simp [bufferOf, Except.map])
            | some read =>
                simp only [hread] at hrun
                rw [List.filterMap_cons_some hread, List.foldlM_cons, ← hrun]
                rfl
          · rw [assignAll_cons_ok hp, ← ih hrest r']
            rw [hp] at hrun
            cases hread : (Assign.field m key reader).toRead with
            | none =>
                simp only [hread] at hrun
                rw [List.filterMap_cons_none hread, ← Except.ok.inj hrun]
            | some read =>
                simp only [hread] at hrun
                rw [List.filterMap_cons_some hread, List.foldlM_cons, ← hrun]
                rfl

theorem newOrderReads_eq : newOrderReads = newOrderAssigns.filterMap Assign.toRead := rfl

theorem accountInfoReads_eq : accountInfoReads = balanceAssigns.filterMap Assign.toRead := rfl

section Head

variable {isDouble} {doc : JsonTree} {r : Reading}

theorem assignAll_head (doc : JsonTree) :
    assignAll isDouble doc headAssigns .initial =
      (Reading.initial.setText .id (stringOf (doc.get "id".toList))).setValue .status
        ((statusOf doc).map .int64) := by
  rw [headAssigns, assignAll_cons_ok (Assign.run_text ..)]
  simp only [assignAll, Assign.run, FieldReader.decode, statusOf]
  cases (doc.get "status".toList).bind JsonTree.getInt64 <;> rfl

/-- The head reads the status, and leaves the other members and `intermediateString`. -/
theorem of_head_ok (h : assignAll isDouble doc headAssigns .initial = (r, .ok ())) :
    r.buffer = [] ∧ (∀ m, m ≠ .id → m ≠ .status → r.members m = Reading.initial.members m) ∧
      ∃ status, statusOf doc = some status := by
  rw [assignAll_head] at h
  cases hst : statusOf doc with
  | none => rw [hst] at h; cases h
  | some status =>
      rw [hst] at h
      obtain ⟨rfl, -⟩ := Prod.mk.inj h
      exact ⟨by simp [Reading.initial], fun m hid hstatus => by simp [hid, hstatus], status, rfl⟩

theorem of_head_error {stop : Stop}
    (h : assignAll isDouble doc headAssigns .initial = (r, .error stop)) :
    stop = .throws ∧ statusOf doc = none := by
  rw [assignAll_head] at h
  cases hst : statusOf doc with
  | none =>
      rw [hst] at h
      exact ⟨(Except.error.inj (Prod.mk.inj h).2).symm, rfl⟩
  | some status => rw [hst] at h; cases h

end Head

theorem getObject_resultOf (doc : JsonTree) :
    (resultOf doc).getObject = (doc.get "result".toList).bind JsonTree.getObject := by
  rw [resultOf]
  cases doc.get "result".toList <;> rfl

theorem getArray_resultOf (doc : JsonTree) :
    (resultOf doc).getArray = (doc.get "result".toList).bind JsonTree.getArray := by
  rw [resultOf]
  cases doc.get "result".toList <;> rfl

theorem eq_obj_of_getObject {j : JsonTree} {fields : List (Str × JsonTree)}
    (h : j.getObject = some fields) : j = .obj fields := by
  cases j <;> simp_all [JsonTree.getObject]

/-- The assignments end as `readFields` does. -/
theorem assignAll_end (fields : List (Str × JsonTree)) (assigns : List Assign)
    (h : .trailingStop ∉ assigns) (r : Reading) (hbuffer : r.buffer = []) :
    (assignAll isDouble (.obj fields) assigns r).2 =
      readFields fields (assigns.filterMap Assign.toRead) := by
  rw [readFields, ← hbuffer, assignAll_reads isDouble fields assigns h r]
  rcases assignAll isDouble (.obj fields) assigns r with ⟨r', stop | ok⟩ <;> rfl

/-- How the parser of an object ends. -/
theorem readResult_end (assigns : List Assign) (h : .trailingStop ∉ assigns) (doc : JsonTree) :
    (readResult isDouble assigns doc).2 = (do
      let _ ← valueOf (statusOf doc)
      let obj ← valueOf ((doc.get "result".toList).bind JsonTree.getObject)
      readFields obj (assigns.filterMap Assign.toRead)) := by
  rw [← getObject_resultOf]
  rcases hp : assignAll isDouble doc headAssigns .initial with ⟨r, stop | ok⟩
  · obtain ⟨rfl, hst⟩ := of_head_error hp
    simp only [readResult, hp, hst]
    rfl
  · obtain ⟨hbuffer, hmembers, status, hst⟩ := of_head_ok hp
    simp only [readResult, hp, hst]
    cases hobj : (resultOf doc).getObject with
    | none => rfl
    | some obj =>
        -- the head has left the buffer empty, as `readFields` starts
        rw [eq_obj_of_getObject hobj]
        exact assignAll_end isDouble obj assigns h r hbuffer

theorem assignAll_asset (elem : JsonTree) (r : Reading) :
    assignAll isDouble elem assetAssigns r =
      ((r.setText .accountAlias (stringOf (elem.get "accountAlias".toList))).setText .asset
        (stringOf (elem.get "asset".toList)), .ok ()) := by
  rw [assetAssigns, assignAll_cons_ok (Assign.run_text ..), assignAll_cons_ok (Assign.run_text ..)]
  rfl

theorem readElements_end (elems : List JsonTree) (asset : Str) (r : Reading)
    (hasset : r.members .asset = some (.text asset)) (hbuffer : r.buffer = []) :
    (readElements isDouble elems r).2 = readBalances elems asset := by
  induction elems generalizing r asset with
  | nil => rfl
  | cons elem rest ih =>
      rw [readElements, readBalances]
      cases hobj : elem.getObject with
      | none => rfl
      | some fields =>
          obtain rfl := eq_obj_of_getObject hobj
          rw [assignAll_asset]
          -- the asset is the element's own, or the one of the element before
          set text := stringOf ((JsonTree.obj fields).get "asset".toList) with htext
          set named := (r.setText .accountAlias _).setText .asset text with hdef
          have hnamed : named.members .asset = some (.text (text.getD asset)) := by
            rw [hdef, setText_members_self, setText_members_of_ne _ _ (by decide), hasset]
            cases text <;> rfl
          have hbuf : named.buffer = [] := by simp [hdef, hbuffer]
          simp only [Option.isSome_some, if_true, hnamed]
          show _ = if text.getD asset ≠ "USDT".toList then readBalances rest (text.getD asset)
            else readFields fields accountInfoReads
          by_cases husdt : text.getD asset = "USDT".toList
          · rw [if_neg (by simp [husdt]), if_neg (by simp [husdt]), accountInfoReads_eq]
            exact assignAll_end isDouble fields balanceAssigns (by decide) named hbuf
          · rw [if_pos (by simpa using husdt), if_pos husdt]
            exact ih _ named hnamed hbuf

/-! ## The ends that the tracker follows -/

/-- The kind of a registered response. -/
def OrderTypeSent.kind : OrderTypeSent → ResponseKind
  | .NEW => .NEW
  | .ACCOUNT_INFO => .ACCOUNT_INFO

theorem parseFields_end (kind : ResponseKind) (doc : JsonTree) :
    (parseFields isDouble kind doc).2 = (do
      let _ ← (readBefore isDouble doc kind).2
      readRateLimits doc) := by
  unfold parseFields
  rcases readBefore isDouble doc kind with ⟨r, stop | ok⟩ <;> rfl

theorem constructResponse_end (kind : ResponseKind) (doc : JsonTree) :
    (constructResponse isDouble kind doc).map (fun _ => ()) =
      if kind.catches then catchAll (parseFields isDouble kind doc).2
      else (parseFields isDouble kind doc).2 := by
  unfold constructResponse
  rcases parseFields isDouble kind doc with ⟨r, (_ | _) | _⟩
  · cases kind.catches <;> rfl
  · cases kind.catches <;> rfl
  · cases kind.catches <;> rfl

theorem newOrderResponse_eq (doc : JsonTree) :
    newOrderResponse doc = (constructResponse isDouble .NEW doc).map (fun _ => ()) := by
  rw [constructResponse_end, parseFields_end, newOrderResponse]
  have hend := readResult_end isDouble newOrderAssigns (by decide) doc
  rw [← newOrderReads_eq] at hend
  show _ = catchAll (do let _ ← (readResult isDouble newOrderAssigns doc).2; readRateLimits doc)
  rw [hend]
  simp only [bind_assoc]

theorem accountInfoResponse_eq (doc : JsonTree) :
    accountInfoResponse doc = (constructResponse isDouble .ACCOUNT_INFO doc).map (fun _ => ()) := by
  rw [constructResponse_end, parseFields_end, accountInfoResponse, ← getArray_resultOf]
  have hend : (readBefore isDouble doc .ACCOUNT_INFO).2 = (do
      let _ ← valueOf (statusOf doc)
      let resultArray ← valueOf (resultOf doc).getArray
      readBalances resultArray []) := by
    rcases hp : assignAll isDouble doc headAssigns .initial with ⟨r, stop | ok⟩
    · obtain ⟨rfl, hst⟩ := of_head_error hp
      simp only [readBefore, hp, hst]
      rfl
    · obtain ⟨hbuffer, hmembers, status, hst⟩ := of_head_ok hp
      simp only [readBefore, hp, hst]
      cases (resultOf doc).getArray with
      | none => rfl
      | some elems =>
          exact readElements_end isDouble elems [] r (hmembers .asset (by decide) (by decide))
            hbuffer
  rw [hend]
  simp only [bind_assoc]
  rfl

theorem valueOf_some_bind {α β : Type} (a : α) (f : α → Exec β) :
    (valueOf (some a) >>= f) = f a := rfl

theorem constructWrapper_of_200 (kind : ResponseKind) {doc : JsonTree}
    (h : statusOf doc = some 200) :
    constructWrapper isDouble kind doc = (constructResponse isDouble kind doc).map
      (fun members => ⟨Function.update (fun _ => none) kind (some members), none⟩) := by
  rw [constructWrapper, h, valueOf_some_bind, if_pos rfl]
  cases constructResponse isDouble kind doc <;> rfl

theorem orderResponsePtrWrapper_of_200 (type : OrderTypeSent) {doc : JsonTree}
    (h : statusOf doc = some 200) :
    orderResponsePtrWrapper type doc =
      (constructResponse isDouble type.kind doc).map (fun _ => ()) := by
  unfold orderResponsePtrWrapper
  rw [h, valueOf_some_bind, if_pos rfl]
  cases type with
  | NEW => exact newOrderResponse_eq isDouble doc
  | ACCOUNT_INFO => exact accountInfoResponse_eq isDouble doc

/-- **The tracker follows the constructor of the wrapper.** -/
theorem orderResponsePtrWrapper_eq (type : OrderTypeSent) (doc : JsonTree) :
    orderResponsePtrWrapper type doc =
      (constructWrapper isDouble type.kind doc).map (fun _ => ()) := by
  by_cases h : statusOf doc = some 200
  · rw [orderResponsePtrWrapper_of_200 isDouble type h, constructWrapper_of_200 isDouble _ h]
    cases constructResponse isDouble type.kind doc <;> rfl
  · unfold orderResponsePtrWrapper constructWrapper
    cases hst : statusOf doc with
    | none => rfl
    | some status =>
        have hne : status ≠ 200 := fun he => h (by rw [hst, he])
        rw [valueOf_some_bind, valueOf_some_bind, if_neg hne, if_neg hne]
        cases (doc.get "error".toList).bind JsonTree.getObject with
        | none => rfl
        | some obj =>
            rw [valueOf_some_bind, valueOf_some_bind, readFields, List.foldlM_cons, FieldRead.run]
            cases (JsonTree.findField obj "code".toList).bind JsonTree.getInt64 <;> rfl

end Parse

end AstraConnect.Order
