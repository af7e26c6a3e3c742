import AstraConnect.Order.AccountBalance

set_option autoImplicit false

/-! # When the constructor of a response waits

A response can be read up to its rate limits when every key is of the type that is read and every
name is known; a name that is no string stands for the last one in front of it. Then the ninth rate
limit waits for room in a ring that nobody else can reach yet.
-/

namespace AstraConnect.Order

/-! ## What can be read

That every assignment can be made is a condition on the object alone: the name that is converted is
known from the names in front of it. -/

/-- The name that an assignment reads, if it stands in the object. -/
def Assign.nameIn (obj : JsonTree) : Assign → Option Str
  | .field _ key (.name _) => stringOf (obj.get key)
  | _ => none

/-- The last name that stands in front. -/
def lastName (obj : JsonTree) (front : List Assign) : Str :=
  (front.filterMap (Assign.nameIn obj)).getLast?.getD []

section Readable

variable (isDouble : Str → Bool) (obj : JsonTree)

/-- The assignment can be made after those in `front`. The keys of a trailing stop are read when the
type, which is the name in front of them, says so. -/
def Assign.Readable (front : List Assign) : Assign → Prop
  | .field _ key (.name names) =>
      (names.convert ((stringOf (obj.get key)).getD (lastName obj front))).isSome
  | .field _ _ .text => True
  | .field _ key reader => (reader.decode (obj.get key)).isSome
  | .trailingStop =>
      returnOrderType.convert (lastName obj front) = some (.orderType .TRAILING_STOP_MARKET) →
        (FieldReader.fixed.decode (obj.get "activatePrice".toList)).isSome ∧
          ((stringOf (obj.get "priceRate".toList)).filter isDouble).isSome

/-- All the assignments can be made, after those in `front`. -/
def AllReadable : List Assign → List Assign → Prop
  | _, [] => True
  | front, a :: rest => a.Readable isDouble obj front ∧ AllReadable (front ++ [a]) rest

end Readable

def typeAssign : Assign := .field .type "type".toList (.name returnOrderType)

/-- A trailing stop directly follows the type. -/
def stopFollowsType : Option Assign → List Assign → Bool
  | _, [] => true
  | prev, .trailingStop :: rest =>
      prev = some typeAssign && stopFollowsType (some .trailingStop) rest
  | _, a :: rest => stopFollowsType (some a) rest

section AssignAll

variable {isDouble : Str → Bool} {obj : JsonTree} {front assigns : List Assign} {a : Assign}
  {r r' : Reading}

theorem lastName_concat (obj : JsonTree) (front : List Assign) (a : Assign) :
    lastName obj (front ++ [a]) = (a.nameIn obj).getD (lastName obj front) := by
  rw [lastName, lastName, List.filterMap_append]
  cases h : a.nameIn obj with
  | none => simp [h]
  | some name => simp [h]

theorem setValue_buffer (r : Reading) (m : Member) (v : Option Value) :
    (r.setValue m v).1.buffer = r.buffer := by
  cases v <;> rfl

theorem setValue_ok_iff (r : Reading) (m : Member) (v : Option Value) :
    (r.setValue m v).2 = .ok () ↔ v.isSome := by
  cases v <;> simp

/-- An assignment leaves the name that it has read, or the one before it. -/
theorem Assign.run_buffer (hbuffer : r.buffer = lastName obj front) :
    (a.run isDouble obj r).1.buffer = lastName obj (front ++ [a]) := by
  rw [lastName_concat, ← hbuffer]
  cases a with
  | field m key reader =>
      cases reader with
      | text => rw [Assign.run_text]; exact setText_buffer r m _
      | _ => exact setValue_buffer _ m _
  | trailingStop =>
      by_cases h : r.members .type = some (.orderType .TRAILING_STOP_MARKET)
      · rw [Assign.run_trailingStop isDouble obj r h]
        cases FieldReader.fixed.decode (obj.get "activatePrice".toList) with
        | none => rfl
        | some v => exact setValue_buffer _ _ _
      · rw [Assign.run, if_neg h]
        rfl

theorem Assign.run_ok_iff (hbuffer : r.buffer = lastName obj front)
    (htype : a = .trailingStop → r.members .type = returnOrderType.convert r.buffer) :
    (a.run isDouble obj r).2 = .ok () ↔ a.Readable isDouble obj front := by
  cases a with
  | field m key reader =>
      cases reader with
      | text => rw [Assign.run_text]; exact iff_of_true rfl trivial
      | name names =>
          rw [Assign.Readable, ← hbuffer]
          exact setValue_ok_iff _ m _
      | _ => exact setValue_ok_iff _ m _
  | trailingStop =>
      rw [Assign.Readable, ← hbuffer, ← htype rfl]
      by_cases h : r.members .type = some (.orderType .TRAILING_STOP_MARKET)
      · rw [Assign.run_trailingStop isDouble obj r h, imp_iff_right h]
        cases FieldReader.fixed.decode (obj.get "activatePrice".toList) with
        | none => simp
        | some v =>
            rw [setValue_ok_iff]
            simp
      · rw [Assign.run, if_neg h]
        exact iff_of_true rfl (fun htrailing => absurd htrailing h)

/-- After the type has been assigned it is the one that the buffer names. -/
theorem typeAssign_run (h : typeAssign.run isDouble obj r = (r', .ok ())) :
    r'.members .type = returnOrderType.convert r'.buffer := by
  set text := (stringOf (obj.get "type".toList)).getD r.buffer with htext
  have hset : Reading.setValue { r with buffer := text } .type (returnOrderType.convert text)
      = (r', .ok ()) := h
  have hbuffer := setValue_buffer { r with buffer := text } .type (returnOrderType.convert text)
  rw [hset] at hbuffer
  rw [(setValue_eq_ok hset).2, hbuffer]

/-- **All the assignments are made exactly when all of them can be made.** -/
theorem assignAll_ok_iff (hfollows : stopFollowsType front.getLast? assigns = true)
    (hbuffer : r.buffer = lastName obj front)
    (htype : front.getLast? = some typeAssign →
      r.members .type = returnOrderType.convert r.buffer) :
    (assignAll isDouble obj assigns r).2 = .ok () ↔ AllReadable isDouble obj front assigns := by
  -- the induction carries the name in the buffer and, right behind the type, the type
  induction assigns generalizing front r with
  | nil => exact iff_of_true rfl trivial
  | cons a rest ih =>
      have hstop : a = .trailingStop → front.getLast? = some typeAssign := by
        rintro rfl
        rw [stopFollowsType, Bool.and_eq_true, decide_eq_true_eq] at hfollows
        exact hfollows.1
      have hrest : stopFollowsType (some a) rest = true := by
        cases a with
        | field m key reader => exact hfollows
        | trailingStop =>
            rw [stopFollowsType, Bool.and_eq_true] at hfollows
            exact hfollows.2
      have hrun : (a.run isDouble obj r).2 = .ok () ↔ a.Readable isDouble obj front :=
        Assign.run_ok_iff hbuffer (fun ha => htype (hstop ha))
      have hnext : (a.run isDouble obj r).1.buffer = lastName obj (front ++ [a]) :=
        Assign.run_buffer hbuffer
      rcases hp : a.run isDouble obj r with ⟨r', stop | ok⟩
      · rw [hp] at hrun
        rw [assignAll_cons_error hp]
        exact iff_of_false (by simp) (fun h => absurd (hrun.mpr h.1) (by simp))
      · rw [hp] at hrun hnext
        rw [assignAll_cons_ok hp, AllReadable, and_iff_right (hrun.mp rfl)]
        apply ih
        · rw [List.getLast?_concat]
          exact hrest
        · exact hnext
        · intro hlast
          rw [List.getLast?_concat] at hlast
          obtain rfl := Option.some.inj hlast
          exact typeAssign_run hp

end AssignAll

/-! ## The five classes -/

/-- The constructor comes to the rate limits: the status is an integer and everything in front of
them can be read. In an account response that is the element at which the search ends, if there is
one. -/
def ReadableBefore (isDouble : Str → Bool) (doc : JsonTree) : ResponseKind → Prop
  | .QUERY => AllReadable isDouble (resultOf doc) [] queryOrderAssigns
  | .ACCOUNT_INFO =>
      (statusOf doc).isSome ∧ (resultOf doc).getArray.isSome ∧
        ∀ elem, searched doc = some elem →
          stringOf (elem.get "asset".toList) = some "USDT".toList ∧
            AllReadable isDouble elem [] balanceAssigns
  | kind =>
      (statusOf doc).isSome ∧ (resultOf doc).getObject.isSome ∧
        AllReadable isDouble (resultOf doc) [] kind.assigns

section Terminate

variable {isDouble : Str → Bool} {doc : JsonTree}

theorem assignAll_ok_iff_nil {obj : JsonTree} {assigns : List Assign} {r : Reading}
    (hfollows : stopFollowsType none assigns = true) (hbuffer : r.buffer = []) :
    (assignAll isDouble obj assigns r).2 = .ok () ↔ AllReadable isDouble obj [] assigns :=
  assignAll_ok_iff hfollows hbuffer (fun h => by cases h)

theorem readResult_ok_iff {assigns : List Assign} (h : stopFollowsType none assigns = true) :
    (readResult isDouble assigns doc).2 = .ok () ↔
      (statusOf doc).isSome ∧ (resultOf doc).getObject.isSome ∧
        AllReadable isDouble (resultOf doc) [] assigns := by
  rcases hp : assignAll isDouble doc headAssigns .initial with ⟨r, stop | ok⟩
  · obtain ⟨-, hst⟩ := of_head_error hp
    simp [readResult, hp, hst]
  · obtain ⟨hbuffer, -, status, hst⟩ := of_head_ok hp
    rw [hst, and_iff_right (Option.isSome_some)]
    simp only [readResult, hp]
    by_cases hobj : (resultOf doc).getObject.isSome
    · rw [if_pos hobj, and_iff_right hobj]
      exact assignAll_ok_iff_nil h hbuffer
    · rw [if_neg hobj]
      exact iff_of_false (by simp) (fun hr => hobj hr.1)

theorem readElements_ok_iff {elems : List JsonTree} {r : Reading} (hbuffer : r.buffer = [])
    (hasset : r.members .asset ≠ some (.text "USDT".toList)) :
    (readElements isDouble elems r).2 = .ok () ↔
      ∀ elem, elems.find? (fun elem => ¬ PassedOver elem) = some elem →
        stringOf (elem.get "asset".toList) = some "USDT".toList ∧
          AllReadable isDouble elem [] balanceAssigns := by
  obtain ⟨r', hbuffer', -, -, heq⟩ := readElements_eq isDouble elems r hasset
  rw [heq]
  cases hfind : elems.find? (fun elem => ¬ PassedOver elem) with
  | none => exact iff_of_true rfl (fun elem h => by cases h)
  | some elem =>
      have hpass : ¬ PassedOver elem := by simpa using List.find?_some hfind
      have hforall : (∀ e, some elem = some e →
          stringOf (e.get "asset".toList) = some "USDT".toList ∧
            AllReadable isDouble e [] balanceAssigns) ↔
          stringOf (elem.get "asset".toList) = some "USDT".toList ∧
            AllReadable isDouble elem [] balanceAssigns := by simp
      rw [hforall, Option.elim_some]
      by_cases hobj : elem.getObject.isSome
      · have hnamed : (assignAll isDouble elem assetAssigns r').1.buffer = [] := by
          rw [assignAll_asset, setText_buffer, setText_buffer, hbuffer', hbuffer]
        rw [if_pos hobj, and_iff_right (usdt_of_not_passedOver hobj hpass)]
        exact assignAll_ok_iff_nil (by decide) hnamed
      · rw [if_neg hobj]
        exact iff_of_false (by simp) (fun h => hobj (getObject_isSome_of_get h.1))

theorem readBefore_ok_iff (kind : ResponseKind) :
    (readBefore isDouble doc kind).2 = .ok () ↔ ReadableBefore isDouble doc kind := by
  cases kind with
  | NEW => exact readResult_ok_iff (by decide)
  | MODIFY => exact readResult_ok_iff (by decide)
  | CANCEL => exact readResult_ok_iff (by decide)
  | QUERY => exact assignAll_ok_iff_nil (by decide) rfl
  | ACCOUNT_INFO =>
      rcases hp : assignAll isDouble doc headAssigns .initial with ⟨r, stop | ok⟩
      · obtain ⟨-, hst⟩ := of_head_error hp
        simp [readBefore, ReadableBefore, hp, hst]
      · obtain ⟨hbuffer, hmembers, status, hst⟩ := of_head_ok hp
        have hasset : r.members .asset ≠ some (.text "USDT".toList) := by
          rw [hmembers .asset (by decide) (by decide)]
          exact initial_asset
        simp only [readBefore, ReadableBefore, hp, hst, searched]
        cases (resultOf doc).getArray with
        | none => simp
        | some elems =>
            rw [and_iff_right Option.isSome_some, and_iff_right Option.isSome_some]
            exact readElements_ok_iff hbuffer hasset

end Terminate

/-- **Parsing a response ends exactly while the rate limits fit.** The constructor of a response
ends, normally or with an exception, unless it comes to the rate limits and finds more than eight
entries of which the first nine can be read. -/
theorem response_ends_iff (isDouble : Str → Bool) (kind : ResponseKind) (doc : JsonTree) :
    constructResponse isDouble kind doc ≠ .error .waits ↔
      ¬ (ReadableBefore isDouble doc kind ∧ RatesOverflow doc) := by
  rw [Ne, constructResponse_waits_iff, readBefore_ok_iff]

/-- A balance response without balances and with nine rate limits. -/
theorem nineRateLimits_wait :
    let rate : JsonTree := .obj [("rateLimitType".toList, .str "ORDERS".toList),
      ("interval".toList, .str "MINUTE".toList), ("intervalNum".toList, .int 1),
      ("limit".toList, .int 1200), ("count".toList, .int 1)]
    let doc : JsonTree := .obj [("id".toList, .str "a".toList), ("status".toList, .int 200),
      ("result".toList, .arr []), ("rateLimits".toList, .arr (List.replicate 9 rate))]
    statusOf doc = some 200 ∧
      constructResponse (fun _ => true) .ACCOUNT_INFO doc = .error .waits :=
  ⟨rfl, rfl⟩

end AstraConnect.Order
