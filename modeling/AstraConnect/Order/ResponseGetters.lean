import AstraConnect.Order.ResponseReading

set_option autoImplicit false

/-! # The getters of a response report the response

Every member has one assignment, so after a parser has ended normally a member holds what its own
key stands for, unless the key is read with `get_string` and is not a string: then the member keeps
its initial value, or gets the name that `intermediateString` still holds. `closePosition` of a new
or of a modified order has no assignment at all.
-/

namespace AstraConnect.Order

/-! ## What a list of assignments leaves in a member

The members that the assignments of a class write are different ones, so a member is written once
at most and holds what that one assignment has read. -/

/-- The members that an assignment may write. -/
def Assign.writes : Assign → List Member
  | .field m _ _ => [m]
  | .trailingStop => [.activatePrice, .priceRate]

/-- The key is read with a `get_string` whose error is ignored. -/
def FieldReader.ignoresError : FieldReader → Bool
  | .text => true
  | .name _ => true
  | _ => false

section Assigned

variable {isDouble : Str → Bool} {obj : JsonTree} {m : Member} {key : Str} {reader : FieldReader}
  {r r' : Reading} {assigns : List Assign}

theorem setValue_frame {m' : Member} (h : m ≠ m') (v : Option Value) :
    (r.setValue m' v).1.members m = r.members m := by
  cases v with
  | none => rfl
  | some v => exact set_members_of_ne r m' h v

theorem setValue_eq_ok {v : Option Value} (h : r.setValue m v = (r', .ok ())) :
    v.isSome ∧ r'.members m = v := by
  cases v with
  | none => cases h
  | some v =>
      obtain ⟨rfl, -⟩ := Prod.mk.inj h
      exact ⟨rfl, set_members_self r m v⟩

variable (isDouble obj r) in
theorem Assign.run_frame {a : Assign} (h : m ∉ a.writes) :
    (a.run isDouble obj r).1.members m = r.members m := by
  cases a with
  | field m' key reader =>
      have hne : m ≠ m' := fun he => h (List.mem_singleton.mpr he)
      cases reader with
      | text => rw [Assign.run_text]; exact setText_members_of_ne r m' hne _
      | name names => exact setValue_frame hne _
      | _ => exact setValue_frame hne _
  | trailingStop =>
      have hactivate : m ≠ .activatePrice := fun he => h (by simp [he, Assign.writes])
      have hrate : m ≠ .priceRate := fun he => h (by simp [he, Assign.writes])
      by_cases htype : r.members .type = some (.orderType .TRAILING_STOP_MARKET)
      · rw [Assign.run_trailingStop isDouble obj r htype]
        cases FieldReader.fixed.decode (obj.get "activatePrice".toList) with
        | none => rfl
        | some v => exact (setValue_frame hrate _).trans (set_members_of_ne r _ hactivate v)
      · rw [Assign.run, if_neg htype]

variable (isDouble obj r) in
/-- A member that none of the assignments writes keeps its value, however they end. -/
theorem assignAll_frame (h : m ∉ assigns.flatMap Assign.writes) :
    (assignAll isDouble obj assigns r).1.members m = r.members m := by
  induction assigns generalizing r with
  | nil => rfl
  | cons a rest ih =>
      rw [List.flatMap_cons, List.mem_append, not_or] at h
      have hrun := Assign.run_frame isDouble obj r h.1
      rcases hp : a.run isDouble obj r with ⟨r', stop | ok⟩
      · rw [assignAll_cons_error hp, ← hrun, hp]
      · rw [assignAll_cons_ok hp, ih r' h.2, ← hrun, hp]

/-- An assignment that ends normally writes what its own key stands for, if the key is of the type
that is read. -/
theorem Assign.run_own (hrun : (Assign.field m key reader).run isDouble obj r = (r', .ok ()))
    (hstring : reader.ignoresError → (stringOf (obj.get key)).isSome) :
    (reader.decode (obj.get key)).isSome ∧ r'.members m = reader.decode (obj.get key) := by
  cases reader with
  | text =>
      rw [Assign.run_text] at hrun
      obtain ⟨rfl, -⟩ := Prod.mk.inj hrun
      obtain ⟨s, hs⟩ := Option.isSome_iff_exists.mp (hstring rfl)
      simp [FieldReader.decode, hs]
  | name names =>
      -- the string of the key itself goes into the buffer
      obtain ⟨s, hs⟩ := Option.isSome_iff_exists.mp (hstring rfl)
      simp only [Assign.run, hs, Option.getD_some] at hrun
      simpa [FieldReader.decode, hs] using setValue_eq_ok hrun
  | _ => exact setValue_eq_ok hrun

/-- **A member holds the value of its own key.** -/
theorem assignAll_own (hrun : assignAll isDouble obj assigns r = (r', .ok ()))
    (hnodup : (assigns.flatMap Assign.writes).Nodup) (hmem : .field m key reader ∈ assigns)
    (hstring : reader.ignoresError → (stringOf (obj.get key)).isSome) :
    (reader.decode (obj.get key)).isSome ∧ r'.members m = reader.decode (obj.get key) := by
  induction assigns generalizing r with
  | nil => cases hmem
  | cons a rest ih =>
      rw [List.flatMap_cons, List.nodup_append'] at hnodup
      rcases hp : a.run isDouble obj r with ⟨r₁, stop | ok⟩
      · rw [assignAll_cons_error hp] at hrun
        cases hrun
      · rw [assignAll_cons_ok hp] at hrun
        rcases List.mem_cons.mp hmem with rfl | hmem
        · -- the rest does not write the member again
          have hfresh : m ∉ rest.flatMap Assign.writes :=
            fun h => hnodup.2.2 (List.mem_singleton.mpr rfl) h
          have hframe := assignAll_frame isDouble obj r₁ hfresh
          rw [hrun] at hframe
          rw [hframe]
          exact Assign.run_own hp hstring
        · exact ih hrun hnodup.2.1 hmem

/-- What a key stands for that is read with `get_string` and is not a string. -/
theorem decode_of_not_string (hread : reader.ignoresError)
    (hstring : ¬ (stringOf (obj.get key)).isSome) : reader.decode (obj.get key) = none := by
  rw [Option.not_isSome_iff_eq_none] at hstring
  cases reader <;> simp_all [FieldReader.decode, FieldReader.ignoresError]

end Assigned

/-! ## What the getters should report -/

/-- The key that a getter is named after, and how the key is read. -/
def Getter.key : Getter → Str × FieldReader
  | .getOrderId => ("orderId".toList, .int64)
  | .getSymbol => ("symbol".toList, .text)
  | .getPrice => ("price".toList, .fixed)
  | .getOrigQty => ("origQty".toList, .fixed)
  | .getExecutedQty => ("executedQty".toList, .fixed)
  | .getCumQty => ("cumQty".toList, .fixed)
  | .getCumQuote => ("cumQuote".toList, .fixed)
  | .getAvgPrice => ("avgPrice".toList, .fixed)
  | .getOrderStatus => ("status".toList, .name returnOrderStatus)
  | .getTimeInForce => ("timeInForce".toList, .name returnTimeInForce)
  | .getOrderSide => ("side".toList, .name returnOrderSide)
  | .getPositionSide => ("positionSide".toList, .name returnPositionSide)
  | .getWorkingType => ("workingType".toList, .name returnWorkingType)
  | .getOrigType => ("origType".toList, .name returnOrderType)
  | .getPriceMatchMode => ("priceMatch".toList, .name returnPriceMatchMode)
  | .getSelfTradePreventionMode => ("selfTradePreventionMode".toList, .name returnSTPMode)
  | .getGoodTillDate => ("goodTillDate".toList, .int64)
  | .getReduceOnly => ("reduceOnly".toList, .bool)
  | .getClosePosition => ("closePosition".toList, .bool)
  | .getPriceProtect => ("priceProtect".toList, .bool)
  | .getUpdateTime => ("updateTime".toList, .int64)

/-- The key of `result` that a getter reports for the type. A query has no `cumQty` and no
`origType`: its `executedQty` and its `type` stand for them. -/
def Getter.ownKey (kind : ResponseKind) (g : Getter) : Option (Str × FieldReader) :=
  match kind, g with
  | .ACCOUNT_INFO, _ => none
  | .CANCEL, .getAvgPrice => none
  | .QUERY, .getCumQty => some ("executedQty".toList, .fixed)
  | .QUERY, .getOrigType => some ("type".toList, .name returnOrderType)
  | .QUERY, .getPriceMatchMode => none
  | .QUERY, .getSelfTradePreventionMode => none
  | .QUERY, .getGoodTillDate => none
  | _, g => some g.key

/-- The getter returns the decoded value of its own key of `result`, or its default when the type
has no such key. -/
def OrderResponsePtrWrapper.ReportsKey (w : OrderResponsePtrWrapper) (kind : ResponseKind)
    (doc : JsonTree) (g : Getter) : Prop :=
  ∃ v, w.get g kind = some v ∧
    (g.ownKey kind).elim (some g.default) (fun k => k.2.decode ((resultOf doc).get k.1)) = some v

/-- Every key of `result` that a getter of the type reads with `get_string` is a string. -/
def NamesAreStrings (kind : ResponseKind) (doc : JsonTree) : Prop :=
  ∀ g key reader, Getter.ownKey kind g = some (key, reader) → reader.ignoresError →
    (stringOf ((resultOf doc).get key)).isSome

/-! ## From the getter to the assignment

A getter takes the case of its type, which names a member, and the parser of that type has an
assignment for the member. Both tables are finite, and are compared entry by entry. -/

/-- The assignments of `result`. -/
def ResponseKind.assigns : ResponseKind → List Assign
  | .NEW => newOrderAssigns
  | .MODIFY => newOrderAssigns
  | .CANCEL => cancelOrderAssigns
  | .QUERY => queryOrderAssigns
  | .ACCOUNT_INFO => []

theorem nodup_assigns (kind : ResponseKind) : (kind.assigns.flatMap Assign.writes).Nodup := by
  cases kind <;> decide

/-- The case of the `switch` that a getter takes. -/
def Getter.caseOf (kind : ResponseKind) (g : Getter) : Option Member :=
  (g.cases.find? (·.1 = kind)).map (·.2)

theorem OrderResponsePtrWrapper.get_eq {w : OrderResponsePtrWrapper} {kind : ResponseKind}
    {members : Members} (h : w.response kind = some members) (g : Getter) :
    w.get g kind = (g.caseOf kind).elim (some g.default) members := by
  rw [get, Getter.caseOf]
  induction g.cases with
  | nil => rfl
  | cons c rest ih =>
      by_cases hc : c.1 = kind
      · rw [List.dropWhile_cons_of_neg (by simp [hc]), List.find?_cons_of_pos (by simp [hc])]
        simp [fallThrough, hc, h]
      · rw [List.dropWhile_cons_of_pos (by simp [hc]), List.find?_cons_of_neg (by simp [hc])]
        exact ih

/-- The parsers of a new and of a modified order leave out `closePosition`. -/
def Getter.Unassigned (kind : ResponseKind) (g : Getter) : Prop :=
  (kind = .NEW ∨ kind = .MODIFY) ∧ g = .getClosePosition

/-- The case of a getter and its key: the type has neither, or the key is assigned to the member
of the case, or nothing is. -/
theorem caseOf_ownKey (kind : ResponseKind) (hkind : kind ≠ .ACCOUNT_INFO) (g : Getter) :
    (g.caseOf kind = none ∧ g.ownKey kind = none) ∨
      (∃ m key reader, g.caseOf kind = some m ∧ g.ownKey kind = some (key, reader) ∧
        .field m key reader ∈ kind.assigns ∧ ¬ g.Unassigned kind) ∨
      (g.Unassigned kind ∧ g.caseOf kind = some .closePosition) := by
  have habsent : ∀ {kind}, g ≠ .getClosePosition → ¬ g.Unassigned kind := fun h hu => h hu.2
  cases kind with
  | ACCOUNT_INFO => exact absurd rfl hkind
  | NEW =>
      cases g with
      | getClosePosition => exact Or.inr (Or.inr ⟨⟨Or.inl rfl, rfl⟩, rfl⟩)
      | _ => exact Or.inr (Or.inl ⟨_, _, _, rfl, rfl, by decide, habsent (by decide)⟩)
  | MODIFY =>
      cases g with
      | getClosePosition => exact Or.inr (Or.inr ⟨⟨Or.inr rfl, rfl⟩, rfl⟩)
      | _ => exact Or.inr (Or.inl ⟨_, _, _, rfl, rfl, by decide, habsent (by decide)⟩)
  | CANCEL =>
      have hassigned : ¬ g.Unassigned .CANCEL := fun h => by simp [Getter.Unassigned] at h
      cases g with
      | getAvgPrice => exact Or.inl ⟨rfl, rfl⟩
      | _ => exact Or.inr (Or.inl ⟨_, _, _, rfl, rfl, by decide, hassigned⟩)
  | QUERY =>
      have hassigned : ¬ g.Unassigned .QUERY := fun h => by simp [Getter.Unassigned] at h
      cases g with
      | getPriceMatchMode => exact Or.inl ⟨rfl, rfl⟩
      | getSelfTradePreventionMode => exact Or.inl ⟨rfl, rfl⟩
      | getGoodTillDate => exact Or.inl ⟨rfl, rfl⟩
      | _ => exact Or.inr (Or.inl ⟨_, _, _, rfl, rfl, by decide, hassigned⟩)

/-! ## What a parser leaves -/

section Construct

variable {isDouble : Str → Bool} {kind : ResponseKind} {doc : JsonTree} {r : Reading}
  {members : Members}

/-- Up to the rate limits only the head and the assignments write members. -/
theorem readBefore_frame (hkind : kind ≠ .ACCOUNT_INFO) {m : Member}
    (hhead : m ∉ headAssigns.flatMap Assign.writes)
    (hassigns : m ∉ kind.assigns.flatMap Assign.writes) :
    (readBefore isDouble doc kind).1.members m = Reading.initial.members m := by
  have hresult : ∀ assigns, m ∉ assigns.flatMap Assign.writes →
      (readResult isDouble assigns doc).1.members m = Reading.initial.members m := by
    intro assigns h
    have hframe := assignAll_frame isDouble doc .initial hhead
    rcases hp : assignAll isDouble doc headAssigns .initial with ⟨r, stop | ok⟩
    · rw [readResult, hp, ← hframe, hp]
    · rw [hp] at hframe
      rw [readResult, hp]
      show (if _ then _ else _ : Reading × Exec Unit).1.members m = _
      split
      · exact (assignAll_frame isDouble _ _ h).trans hframe
      · exact hframe
  cases kind with
  | NEW => exact hresult _ hassigns
  | MODIFY => exact hresult _ hassigns
  | CANCEL => exact hresult _ hassigns
  | QUERY => exact assignAll_frame isDouble _ _ hassigns
  | ACCOUNT_INFO => exact absurd rfl hkind

/-- Up to the rate limits a parser that has not thrown has made its assignments. -/
theorem readBefore_ok (hkind : kind ≠ .ACCOUNT_INFO)
    (h : readBefore isDouble doc kind = (r, .ok ())) :
    ∃ r₀, assignAll isDouble (resultOf doc) kind.assigns r₀ = (r, .ok ()) := by
  have hresult : ∀ assigns, readResult isDouble assigns doc = (r, .ok ()) →
      ∃ r₀, assignAll isDouble (resultOf doc) assigns r₀ = (r, .ok ()) := by
    intro assigns h
    rcases hp : assignAll isDouble doc headAssigns .initial with ⟨r₀, stop | ok⟩
    · rw [readResult, hp] at h
      cases h
    · rw [readResult, hp] at h
      by_cases hobj : (resultOf doc).getObject.isSome
      · exact ⟨r₀, by simpa [hobj] using h⟩
      · simp [hobj] at h
  cases kind with
  | NEW => exact hresult _ h
  | MODIFY => exact hresult _ h
  | CANCEL => exact hresult _ h
  | QUERY => exact ⟨.initial, h⟩
  | ACCOUNT_INFO => exact absurd rfl hkind

/-- The rate limits write no member. -/
theorem parseFields_fst (kind : ResponseKind) (doc : JsonTree) :
    (parseFields isDouble kind doc).1 = (readBefore isDouble doc kind).1 := by
  unfold parseFields
  rcases readBefore isDouble doc kind with ⟨r, stop | ok⟩ <;> rfl

/-- The members of a response that was constructed. -/
theorem members_of_construct (h : constructResponse isDouble kind doc = .ok members) :
    members = (readBefore isDouble doc kind).1.members ∧
      (kind.catches = false → (readBefore isDouble doc kind).2 = .ok ()) := by
  rw [← parseFields_fst]
  have hend := parseFields_end isDouble kind doc
  unfold constructResponse at h
  rcases hp : parseFields isDouble kind doc with ⟨r, (_ | _) | _⟩
  · rw [hp] at h
    by_cases hc : kind.catches = true
    · simp only [hc, if_true] at h
      exact ⟨(Except.ok.inj h).symm, fun hfalse => absurd (hc.symm.trans hfalse) (by decide)⟩
    · simp [hc] at h
  · rw [hp] at h
    cases h
  · rw [hp] at h hend
    obtain ⟨_, hread, -⟩ := bind_eq_ok_iff.mp hend.symm
    exact ⟨(Except.ok.inj h).symm, fun _ => hread⟩

/-- A wrapper of a response with status 200 holds the response of its type. -/
theorem response_of_construct {w : OrderResponsePtrWrapper} (hstatus : statusOf doc = some 200)
    (hw : constructWrapper isDouble kind doc = .ok w) :
    ∃ members, constructResponse isDouble kind doc = .ok members ∧
      w.response kind = some members := by
  rw [constructWrapper_of_200 isDouble kind hstatus] at hw
  cases hmembers : constructResponse isDouble kind doc with
  | error stop => rw [hmembers] at hw; cases hw
  | ok members =>
      rw [hmembers] at hw
      obtain rfl := Except.ok.inj hw
      exact ⟨members, rfl, Function.update_self kind (some members) (fun _ => none)⟩

theorem closePosition_unassigned (hkind : kind = .NEW ∨ kind = .MODIFY)
    (h : constructResponse isDouble kind doc = .ok members) : members .closePosition = none := by
  obtain ⟨rfl, -⟩ := members_of_construct h
  rcases hkind with rfl | rfl
  · exact readBefore_frame (by decide) (by decide) (by decide)
  · exact readBefore_frame (by decide) (by decide) (by decide)

variable {w : OrderResponsePtrWrapper}

/-- A response that has been read reports a key that a parser assigns, if it is of the type read. -/
theorem reportsKey_iff (hkind : kind ≠ .ACCOUNT_INFO) (hw : w.response kind = some members)
    (hmembers : constructResponse isDouble kind doc = .ok members)
    (hread : (readBefore isDouble doc kind).2 = .ok ()) (g : Getter) :
    w.ReportsKey kind doc g ↔ ¬ g.Unassigned kind ∧
      ∀ key reader, g.ownKey kind = some (key, reader) → reader.ignoresError →
        (stringOf ((resultOf doc).get key)).isSome := by
  unfold OrderResponsePtrWrapper.ReportsKey
  rw [OrderResponsePtrWrapper.get_eq hw g]
  rcases caseOf_ownKey kind hkind g with ⟨hcase, hkey⟩ | ⟨m, key, reader, hcase, hkey, hmem, hg⟩ |
    ⟨hg, hcase⟩
  · -- the type has no such field: the default is returned
    have hg : ¬ g.Unassigned kind := fun hg => by
      obtain ⟨rfl | rfl, rfl⟩ := hg
      · cases hcase
      · cases hcase
    simp [hcase, hkey, hg]
  · rw [hcase, hkey]
    obtain ⟨r₀, hrun⟩ := readBefore_ok hkind (r := (readBefore isDouble doc kind).1)
      (Prod.ext rfl hread)
    have heq := (members_of_construct hmembers).1
    constructor
    · rintro ⟨v, -, hv⟩
      refine ⟨hg, fun key' reader' hkey' hignores => ?_⟩
      obtain ⟨rfl, rfl⟩ := Prod.mk.inj (Option.some.inj hkey')
      by_contra hstring
      have hnone : reader.decode ((resultOf doc).get key) = some v := hv
      rw [decode_of_not_string hignores hstring] at hnone
      cases hnone
    · rintro ⟨-, hstring⟩
      obtain ⟨hsome, hown⟩ := assignAll_own hrun (nodup_assigns kind) hmem (hstring key reader rfl)
      obtain ⟨v, hv⟩ := Option.isSome_iff_exists.mp hsome
      exact ⟨v, by rw [Option.elim_some, heq, hown, hv], hv⟩
  · have hnone := closePosition_unassigned hg.1 hmembers
    rw [hcase]
    constructor
    · rintro ⟨v, hv, -⟩
      rw [Option.elim_some, hnone] at hv
      cases hv
    · exact fun h => absurd hg h.1

/-- **The getters report the response exactly when every name is a string, and never after a
new or a modified order.** -/
theorem getters_report_iff (isDouble : Str → Bool) (kind : ResponseKind)
    (hkind : kind ≠ .ACCOUNT_INFO) (doc : JsonTree) (hstatus : statusOf doc = some 200)
    (w : OrderResponsePtrWrapper) (hw : constructWrapper isDouble kind doc = .ok w) :
    (∀ g, w.ReportsKey kind doc g) ↔
      (kind = .CANCEL ∨ kind = .QUERY) ∧ NamesAreStrings kind doc := by
  obtain ⟨members, hmembers, hresponse⟩ := response_of_construct hstatus hw
  have hreports := fun hread => reportsKey_iff hkind hresponse hmembers hread
  constructor
  · intro h
    -- the getter of `closePosition` tells the classes that leave it out
    have hassigned : ¬ (kind = .NEW ∨ kind = .MODIFY) := fun hnew => by
      obtain ⟨v, hv, -⟩ := h .getClosePosition
      rw [OrderResponsePtrWrapper.get_eq hresponse] at hv
      have hnone := closePosition_unassigned hnew hmembers
      rcases hnew with rfl | rfl
      · exact absurd (hnone.symm.trans hv) (by simp)
      · exact absurd (hnone.symm.trans hv) (by simp)
    have hclass : kind = .CANCEL ∨ kind = .QUERY := by
      cases kind <;> simp_all
    have hcatches : kind.catches = false := by rcases hclass with rfl | rfl <;> rfl
    exact ⟨hclass, fun g => ((hreports ((members_of_construct hmembers).2 hcatches) g).mp (h g)).2⟩
  · rintro ⟨hclass, hstrings⟩ g
    -- a parser that catches nothing has made all its assignments
    have hcatches : kind.catches = false := by rcases hclass with rfl | rfl <;> rfl
    have hassigned : ¬ g.Unassigned kind := fun hg => by
      rcases hclass with rfl | rfl <;> simp [Getter.Unassigned] at hg
    exact (hreports ((members_of_construct hmembers).2 hcatches) g).mpr ⟨hassigned, hstrings g⟩

end Construct

/-- A response with every key that the four types read. -/
def fullResponse : JsonTree :=
  .obj [("id".toList, .str "a".toList), ("status".toList, .int 200),
    ("result".toList, .obj [("orderId".toList, .int 7), ("symbol".toList, .str "BTCUSDT".toList),
      ("status".toList, .str "NEW".toList), ("clientOrderId".toList, .str "x".toList),
      ("price".toList, .str "10".toList), ("avgPrice".toList, .str "0.00".toList),
      ("origQty".toList, .str "1.5".toList), ("executedQty".toList, .str "0".toList),
      ("cumQty".toList, .str "0".toList), ("cumQuote".toList, .str "0".toList),
      ("timeInForce".toList, .str "GTC".toList), ("type".toList, .str "LIMIT".toList),
      ("reduceOnly".toList, .bool false), ("closePosition".toList, .bool false),
      ("side".toList, .str "BUY".toList), ("positionSide".toList, .str "LONG".toList),
      ("stopPrice".toList, .str "0".toList), ("workingType".toList, .str "MARK_PRICE".toList),
      ("priceProtect".toList, .bool false), ("origType".toList, .str "LIMIT".toList),
      ("priceMatch".toList, .str "NONE".toList),
      ("selfTradePreventionMode".toList, .str "NONE".toList), ("goodTillDate".toList, .int 0),
      ("time".toList, .int 1), ("updateTime".toList, .int 2)]),
    ("rateLimits".toList, .arr [])]

/-- As a query it is reported by every getter. -/
theorem getters_report_query : ∃ w, constructWrapper (fun _ => true) .QUERY fullResponse = .ok w ∧
    ∀ g, w.ReportsKey .QUERY fullResponse g := by
  have hw : ∃ w, constructWrapper (fun _ => true) .QUERY fullResponse = .ok w := ⟨_, rfl⟩
  obtain ⟨w, hw⟩ := hw
  refine ⟨w, hw, (getters_report_iff (fun _ => true) .QUERY (by decide) fullResponse rfl w hw).mpr
    ⟨Or.inr rfl, fun g key reader hkey hignores => ?_⟩⟩
  cases g <;> cases hkey <;> first | rfl | cases hignores

/-- As a new order its `closePosition` is not reported: the value that the getter returns is
indeterminate. -/
theorem closePosition_not_reported :
    ∃ w, constructWrapper (fun _ => true) .NEW fullResponse = .ok w ∧
      FieldReader.bool.decode ((resultOf fullResponse).get "closePosition".toList)
        = some (.bool false) ∧
      w.get .getClosePosition .NEW = none ∧ ¬ w.ReportsKey .NEW fullResponse .getClosePosition := by
  have hw : ∃ w, constructWrapper (fun _ => true) .NEW fullResponse = .ok w := ⟨_, rfl⟩
  obtain ⟨w, hw⟩ := hw
  obtain ⟨members, hmembers, hresponse⟩ := response_of_construct rfl hw
  have hnone : w.get .getClosePosition .NEW = none := by
    rw [OrderResponsePtrWrapper.get_eq hresponse]
    exact closePosition_unassigned (Or.inl rfl) hmembers
  refine ⟨w, hw, rfl, hnone, fun ⟨v, hv, _⟩ => ?_⟩
  rw [hnone] at hv
  cases hv

end AstraConnect.Order
