import AstraConnect.Orderbook.SlotOwnership

set_option autoImplicit false

/-! # What a depth message decodes to

`Sent` says which messages carry an event, and with which levels and ids. `decode` finds an event
exactly in these messages, and the decoder, run from any state that the two threads reach, queues
the event that was sent or gives its slot back.
-/

namespace AstraConnect.Orderbook

open Transition DepthDecoder OrderbookArrayHolder AstraConnect.Utils
open AstraConnect.Order (Exec Stop valueOf readFixed)

/-! ## The messages that carry an event

`Sent` is said of the message alone, without the decoder: two arrays of pairs that are not too
long, and three ids. A pair may have more than two fields, which are not looked at. -/

/-- A string that `parseFixed<int64_t>` accepts, and its value. -/
def FixedText (field : JsonTree) (value : Int) : Prop :=
  ∃ text, field = .str text ∧ parseFixed .int64 text 0 = some (true, value)

/-- An array of at least two fields, of which the first two are the price and the volume. -/
def SentPair (level : JsonTree) (entry : Entry) : Prop :=
  ∃ price volume more, level = .arr (price :: volume :: more) ∧
    FixedText price entry.price ∧ FixedText volume entry.volume

/-- A member that is an array of at most `DEPTH_EVENT_CAPACITY` pairs. -/
def SentSide (data : JsonTree) (name : List Char) (entries : List Entry) : Prop :=
  ∃ levels, data.get name = some (.arr levels) ∧ levels.length ≤ DEPTH_EVENT_CAPACITY ∧
    List.Forall₂ SentPair levels entries

/-- A member that is an unsigned integer, reduced to `int64_t`. -/
def SentId (data : JsonTree) (name : List Char) (value : Int) : Prop :=
  ∃ n, data.get name = some (.int n) ∧ 0 ≤ n ∧ n < 2 ^ 64 ∧ value = Int.bmod n (2 ^ 64)

/-- The message is an object whose `data` is an object with the levels and the ids. -/
def Sent (m : Message) (levels : Bool → List Entry) (ids : Int × Int × Int) : Prop :=
  ∃ doc fields, m = .document doc ∧ doc.get "data".toList = some (.obj fields) ∧
    SentSide (.obj fields) "b".toList (levels true) ∧
    SentSide (.obj fields) "a".toList (levels false) ∧
    SentId (.obj fields) "u".toList ids.1 ∧ SentId (.obj fields) "U".toList ids.2.1 ∧
    SentId (.obj fields) "pu".toList ids.2.2

theorem decimalOf_eq_some_iff {field : JsonTree} {value : Int} :
    decimalOf field = some value ↔ FixedText field value := by
  have hread : decimalOf field = some value ↔ readFixed (some field) = .ok value := by
    unfold decimalOf
    cases readFixed (some field) <;> simp [Except.toOption]
  rw [hread, readFixed, Order.bind_eq_ok_iff]
  constructor
  · rintro ⟨text, htext, hparse⟩
    have hstr := Order.valueOf_eq_ok_iff.mp htext
    rw [Option.bind_some] at hstr
    refine ⟨text, ?_, ?_⟩
    · cases field <;> simp [JsonTree.getString] at hstr
      rw [hstr]
    · split at hparse
      · rename_i v hv
        rw [hv, Except.ok.inj hparse]
      · cases hparse
  · rintro ⟨text, rfl, hparse⟩
    refine ⟨text, rfl, ?_⟩
    rw [hparse]

/-- What `readLevels` makes of a level, by the number of its fields. -/
theorem decoded_eq (garbage : Nat → Int) (level : JsonTree) :
    decoded garbage level =
      match level.getArray with
      | none => .error .throws
      | some [] => .ok none
      | some [x] => (valueOf (decimalOf x)).map fun _ => none
      | some (x :: y :: _) => do
          let price ← valueOf (decimalOf x)
          let volume ← valueOf (decimalOf y)
          return some ⟨price, volume⟩ := by
  unfold decoded readPair
  rcases level.getArray with - | fields
  · rfl
  -- only the first two fields are read as decimals
  rcases fields with - | ⟨x, fields⟩
  · rfl
  rcases fields with - | ⟨y, more⟩
  · show Except.map _ (readFields [x] 0 garbage) = (valueOf (decimalOf x)).map _
    rw [readFields, if_pos (by decide), readFixed_eq]
    cases decimalOf x <;> rfl
  · dsimp only
    show Except.map _ (readFields (x :: y :: more) 0 garbage) = _
    rw [readFields, if_pos (by decide), readFixed_eq]
    cases decimalOf x with
    | none => rfl
    | some price =>
        show Except.map _ (readFields (y :: more) 1 _) = _
        rw [readFields, if_pos (by decide), readFixed_eq]
        cases decimalOf y with
        | none => rfl
        | some volume =>
            show Except.map _ (readFields more 2 _) = _
            rw [readFields_rest more (le_refl 2)]
            show Except.ok (if 2 + more.length < 2 then none else _) = _
            rw [if_neg (by omega)]
            rfl

/-- What `readLevels` writes for a level is what was sent. -/
theorem decoded_eq_some_iff {garbage : Nat → Int} {level : JsonTree} {entry : Entry} :
    decoded garbage level = .ok (some entry) ↔ SentPair level entry := by
  have hthrows : ∀ {α : Type} (o : Option α) (e : Entry),
      (valueOf o).map (fun _ => (none : Option Entry)) ≠ .ok (some e) := by
    intro α o e h
    cases o <;> simp [valueOf, Except.map] at h
  rw [decoded_eq]
  constructor
  · intro h
    cases level with
    | arr fields =>
        rcases fields with - | ⟨x, - | ⟨y, more⟩⟩
        · simp [JsonTree.getArray] at h
        · exact absurd h (hthrows _ _)
        · obtain ⟨price, hprice, h⟩ := Order.bind_eq_ok_iff.mp h
          obtain ⟨volume, hvolume, h⟩ := Order.bind_eq_ok_iff.mp h
          obtain rfl := Option.some.inj (Except.ok.inj h)
          exact ⟨x, y, more, rfl, decimalOf_eq_some_iff.mp (Order.valueOf_eq_ok_iff.mp hprice),
            decimalOf_eq_some_iff.mp (Order.valueOf_eq_ok_iff.mp hvolume)⟩
    | _ => simp [JsonTree.getArray] at h
  · rintro ⟨x, y, more, rfl, hprice, hvolume⟩
    simp only [JsonTree.getArray, decimalOf_eq_some_iff.mpr hprice,
      decimalOf_eq_some_iff.mpr hvolume]
    rfl

/-! ## Whole sides -/

theorem readLevels_of_sent (garbage : Nat → Int) {levels : List JsonTree} {entries : List Entry}
    (h : List.Forall₂ SentPair levels entries) (out : List Entry)
    (hroom : out.length + levels.length ≤ DEPTH_EVENT_CAPACITY) :
    readLevels garbage levels out = (out ++ entries, .ok true) := by
  induction h generalizing out with
  | nil => rw [readLevels, List.append_nil]
  | @cons level entry levels entries hpair _ ih =>
      rw [List.length_cons] at hroom
      rw [readLevels_cons garbage level levels out (by omega), decoded_eq_some_iff.mpr hpair]
      dsimp only
      rw [ih (out ++ [entry]) (by rw [List.length_append, List.length_singleton]; omega),
        List.append_assoc, List.singleton_append]

theorem sent_of_readLevels {garbage : Nat → Int} {levels : List JsonTree} {out : List Entry}
    (h : (readLevels garbage levels out).2 = .ok true) :
    (∃ entries, List.Forall₂ SentPair levels entries) ∧
      (levels = [] ∨ out.length + levels.length ≤ DEPTH_EVENT_CAPACITY) := by
  induction levels generalizing out with
  | nil => exact ⟨⟨[], .nil⟩, .inl rfl⟩
  | cons level rest ih =>
      by_cases hroom : out.length < DEPTH_EVENT_CAPACITY
      · rw [readLevels_cons garbage level rest out hroom] at h
        rcases hd : decoded garbage level with stop | - | entry
        · rw [hd] at h
          cases h
        · rw [hd] at h
          cases Except.ok.inj h
        · rw [hd] at h
          obtain ⟨⟨entries, hall⟩, hlen⟩ := ih h
          refine ⟨⟨entry :: entries, .cons (decoded_eq_some_iff.mp hd) hall⟩, .inr ?_⟩
          rw [List.length_append, List.length_singleton] at hlen
          rw [List.length_cons]
          rcases hlen with rfl | hlen
          · rw [List.length_nil]
            omega
          · omega
      · rw [readLevels, if_pos (by omega)] at h
        cases Except.ok.inj h

/-- A side that is read whole. -/
theorem readSide_eq_true_iff {garbage : Nat → Int} {data : JsonTree} {name : List Char} :
    (readSide garbage data name).2 = true ↔
      SentSide data name (readSide garbage data name).1 := by
  unfold readSide SentSide
  constructor
  · intro h
    cases hget : (data.get name).bind JsonTree.getArray with
    | none =>
        rw [hget] at h
        cases h
    | some levels =>
        rw [hget] at h
        obtain ⟨value, hvalue, harray⟩ := Option.bind_eq_some_iff.mp hget
        have hok : (readLevels garbage levels []).2 = .ok true := by
          have := of_decide_eq_true h
          rcases hr : (readLevels garbage levels []).2 with stop | b
          · rw [hr] at this
            cases this
          · rw [hr] at this
            rw [Option.some.inj this]
        obtain ⟨⟨entries, hall⟩, hlen⟩ := sent_of_readLevels hok
        -- an empty array fits whatever stands in front of it
        have hcap : levels.length ≤ DEPTH_EVENT_CAPACITY := by
          rcases hlen with rfl | hlen
          · exact Nat.zero_le _
          · rwa [List.length_nil, Nat.zero_add] at hlen
        refine ⟨levels, ?_, hcap, ?_⟩
        · rw [hvalue]
          cases value <;> simp [JsonTree.getArray] at harray
          rw [harray]
        · dsimp only
          rw [readLevels_of_sent garbage hall [] (by rw [List.length_nil]; omega)]
          exact hall
  · rintro ⟨levels, hget, hcap, hall⟩
    rw [hget]
    show decide ((readLevels garbage levels []).2.toOption = some true) = true
    rw [readLevels_of_sent garbage hall [] (by rw [List.length_nil]; omega)]
    rfl

theorem readSide_of_sent {garbage : Nat → Int} {data : JsonTree} {name : List Char}
    {entries : List Entry} (h : SentSide data name entries) :
    readSide garbage data name = (entries, true) := by
  obtain ⟨levels, hget, hcap, hall⟩ := h
  unfold readSide
  rw [hget]
  show ((readLevels garbage levels []).1,
    decide ((readLevels garbage levels []).2.toOption = some true)) = _
  rw [readLevels_of_sent garbage hall [] (by rw [List.length_nil]; omega)]
  rfl

theorem readId_eq_some_iff {data : JsonTree} {name : List Char} {value : Int} :
    (data.get name).bind getUint64 = some value ↔ SentId data name value := by
  rw [Option.bind_eq_some_iff]
  constructor
  · rintro ⟨field, hget, hread⟩
    cases field with
    | int n =>
        obtain ⟨hrange, heq⟩ := Option.ite_none_right_eq_some.mp hread
        exact ⟨n, hget, hrange.1, hrange.2, (Option.some.inj heq).symm⟩
    | _ => cases hread
  · rintro ⟨n, hget, hpos, hlt, rfl⟩
    exact ⟨.int n, hget, if_pos ⟨hpos, hlt⟩⟩

/-! ## Whole messages -/

theorem decode_of_sent (garbage : Nat → Int) {m : Message} {levels : Bool → List Entry}
    {ids : Int × Int × Int} (h : Sent m levels ids) :
    decode garbage m = ⟨levels, some ids⟩ := by
  obtain ⟨doc, fields, rfl, hdata, hbids, hasks, hu, hU, hpu⟩ := h
  have hobj : (doc.get "data".toList).bind JsonTree.getObject = some fields := by
    rw [hdata]
    rfl
  have hlevels : (fun side => if side then levels true else levels false) = levels := by
    funext side
    cases side <;> rfl
  unfold decode
  simp only [hobj, readSide_of_sent hbids, readSide_of_sent hasks, if_true,
    readId_eq_some_iff.mpr hu, readId_eq_some_iff.mpr hU, readId_eq_some_iff.mpr hpu, hlevels]
  rfl

/-- **`decode` finds an event exactly in the messages that carry one**, with the levels and the
ids that were sent. -/
theorem decode_ids_iff (garbage : Nat → Int) (m : Message) (ids : Int × Int × Int) :
    (decode garbage m).ids = some ids ↔ Sent m (decode garbage m).levels ids := by
  constructor
  · intro h
    cases m with
    | broken levels => cases h
    | document doc =>
        unfold decode at h
        dsimp only at h
        -- each test that fails leaves no ids
        split at h
        · cases h
        · rename_i fields hdata
          split at h
          · rename_i hbids
            split at h
            · rename_i hasks
              obtain ⟨data, hget, hobj⟩ := Option.bind_eq_some_iff.mp hdata
              have hdoc : doc.get "data".toList = some (.obj fields) := by
                rw [hget]
                cases data <;> simp [JsonTree.getObject] at hobj
                rw [hobj]
              obtain ⟨u, hu, h⟩ := Option.bind_eq_some_iff.mp h
              obtain ⟨U, hU, h⟩ := Option.bind_eq_some_iff.mp h
              obtain ⟨pu, hpu, h⟩ := Option.bind_eq_some_iff.mp h
              obtain rfl := Option.some.inj h
              have hlevels : (decode garbage (.document doc)).levels = fun side =>
                  if side then (readSide garbage (.obj fields) "b".toList).1
                  else (readSide garbage (.obj fields) "a".toList).1 := by
                unfold decode
                simp only [hdata, hbids, hasks, if_true]
              rw [hlevels]
              exact ⟨doc, fields, rfl, hdoc, readSide_eq_true_iff.mp hbids,
                readSide_eq_true_iff.mp hasks, readId_eq_some_iff.mp hu,
                readId_eq_some_iff.mp hU, readId_eq_some_iff.mp hpu⟩
            · cases h
          · cases h
  · intro h
    rw [decode_of_sent garbage h]

/-- What is written fits the arrays of the slot. -/
theorem length_readLevels_le (garbage : Nat → Int) (levels : List JsonTree) {out : List Entry}
    (hout : out.length ≤ DEPTH_EVENT_CAPACITY) :
    (readLevels garbage levels out).1.length ≤ DEPTH_EVENT_CAPACITY := by
  induction levels generalizing out with
  | nil => exact hout
  | cons level rest ih =>
      by_cases hroom : out.length < DEPTH_EVENT_CAPACITY
      · rw [readLevels_cons garbage level rest out hroom]
        rcases decoded garbage level with stop | - | entry
        · exact hout
        · exact hout
        · refine ih ?_
          rw [List.length_append, List.length_singleton]
          omega
      · rw [readLevels, if_pos (by omega)]
        exact hout

theorem length_readSide_le (garbage : Nat → Int) (data : JsonTree) (name : List Char) :
    (readSide garbage data name).1.length ≤ DEPTH_EVENT_CAPACITY := by
  unfold readSide
  split
  · exact Nat.zero_le _
  · exact length_readLevels_le garbage _ (Nat.zero_le _)

/-- What a broken text has left in the arrays has gone through `readLevels` too. -/
def Readable (garbage : Nat → Int) : Message → Prop
  | .document _ => True
  | .broken levels => ∀ side, ∃ read, levels side = (readLevels garbage read []).1

theorem length_decode_le {garbage : Nat → Int} {m : Message} (h : Readable garbage m)
    (side : Bool) : ((decode garbage m).levels side).length ≤ DEPTH_EVENT_CAPACITY := by
  cases m with
  | broken levels =>
      obtain ⟨read, hread⟩ := h side
      show (levels side).length ≤ _
      rw [hread]
      exact length_readLevels_le garbage read (Nat.zero_le _)
  | document doc =>
      unfold decode
      dsimp only
      split
      · exact Nat.zero_le _
      · rename_i fields _
        have hb := length_readSide_le garbage (.obj fields) "b".toList
        have ha := length_readSide_le garbage (.obj fields) "a".toList
        split
        · split <;> cases side <;> assumption
        · cases side
          · exact Nat.zero_le _
          · exact hb

/-! ## The writes

The levels are written one at a time while the other thread runs, into cells that are all
different. So the order of the writes does not matter for what is there at the end. -/

/-- One `assignValues`. -/
def assign (slot : Int) (arrays : Int → Bool → Nat → Entry) (w : Bool × Nat × Entry) :
    Int → Bool → Nat → Entry :=
  Function.update arrays slot
    (Function.update (arrays slot) w.1 (Function.update (arrays slot w.1) w.2.1 w.2.2))

/-- A cell is changed by a write to it only. -/
theorem assign_of_ne {slot s : Int} {arrays : Int → Bool → Nat → Entry} {w : Bool × Nat × Entry}
    {side : Bool} {i : Nat} (h : s = slot → (side, i) ≠ (w.1, w.2.1)) :
    assign slot arrays w s side i = arrays s side i := by
  unfold assign
  rcases eq_or_ne s slot with rfl | hs
  · rw [Function.update_self]
    rcases eq_or_ne side w.1 with rfl | hside
    · rw [Function.update_self, Function.update_of_ne]
      rintro rfl
      exact h rfl rfl
    · rw [Function.update_of_ne hside]
  · rw [Function.update_of_ne hs]

theorem foldl_assign_of_notMem {slot s : Int} {side : Bool} {i : Nat}
    (ws : List (Bool × Nat × Entry)) (arrays : Int → Bool → Nat → Entry)
    (h : s = slot → ∀ e, (side, i, e) ∉ ws) :
    ws.foldl (assign slot) arrays s side i = arrays s side i := by
  induction ws generalizing arrays with
  | nil => rfl
  | cons w ws ih =>
      rw [List.foldl_cons, ih _ (fun hs e hm => h hs e (List.mem_cons_of_mem _ hm))]
      refine assign_of_ne (fun hs heq => h hs w.2.2 ?_)
      obtain ⟨rfl, rfl⟩ := Prod.mk.inj heq
      exact List.mem_cons_self ..

/-- A cell that is written once holds what was written. -/
theorem foldl_assign_of_mem {slot : Int} {side : Bool} {i : Nat} {e : Entry}
    {ws : List (Bool × Nat × Entry)} (arrays : Int → Bool → Nat → Entry)
    (hnd : (ws.map (fun w => (w.1, w.2.1))).Nodup) (h : (side, i, e) ∈ ws) :
    ws.foldl (assign slot) arrays slot side i = e := by
  induction ws generalizing arrays with
  | nil => cases h
  | cons w ws ih =>
      rw [List.map_cons, List.nodup_cons] at hnd
      rw [List.foldl_cons]
      rcases List.mem_cons.mp h with rfl | hm
      · rw [foldl_assign_of_notMem ws _ (fun _ e' hm => hnd.1 (List.mem_map.mpr ⟨_, hm, rfl⟩))]
        simp [assign]
      · exact ih _ hnd.2 hm

theorem mem_writes {d : Decoded} {side : Bool} {i : Nat} {e : Entry} :
    (side, i, e) ∈ d.writes ↔ (d.levels side)[i]? = some e := by
  unfold Decoded.writes
  rw [List.mem_append, List.mem_map, List.mem_map]
  constructor
  · rintro (⟨⟨e', j⟩, hm, heq⟩ | ⟨⟨e', j⟩, hm, heq⟩)
    · obtain ⟨rfl, rfl, rfl⟩ : true = side ∧ j = i ∧ e' = e := by simpa using heq
      simpa using List.mk_mem_zipIdx_iff_getElem?.mp hm
    · obtain ⟨rfl, rfl, rfl⟩ : false = side ∧ j = i ∧ e' = e := by simpa using heq
      simpa using List.mk_mem_zipIdx_iff_getElem?.mp hm
  · intro h
    cases side with
    | true => exact .inl ⟨(e, i), List.mk_mem_zipIdx_iff_getElem?.mpr h, rfl⟩
    | false => exact .inr ⟨(e, i), List.mk_mem_zipIdx_iff_getElem?.mpr h, rfl⟩

/-- No cell is written twice. -/
theorem nodup_writes (d : Decoded) : (d.writes.map (fun w => (w.1, w.2.1))).Nodup := by
  have hside : ∀ (side : Bool) (l : List Entry),
      (l.zipIdx.map (fun e => (side, e.2))).Nodup := by
    intro side l
    have hmap : l.zipIdx.map (fun e => (side, e.2))
        = (l.zipIdx.map Prod.snd).map (Prod.mk side) := by
      rw [List.map_map]
      rfl
    rw [hmap, List.zipIdx_map_snd]
    exact List.Nodup.map (fun _ _ h => (Prod.mk.inj h).2) (List.nodup_range' 1)
  unfold Decoded.writes
  rw [List.map_append, List.map_map, List.map_map, List.nodup_append]
  refine ⟨hside true _, hside false _, ?_⟩
  intro x hx y hy hxy
  obtain ⟨e, _, rfl⟩ := List.mem_map.mp hx
  obtain ⟨e', _, rfl⟩ := List.mem_map.mp hy
  cases (Prod.mk.inj hxy).1

/-- After the writes the arrays hold the levels, and nothing else has changed. -/
theorem writes_stored (d : Decoded) (slot : Int) (arrays : Int → Bool → Nat → Entry)
    (side : Bool) :
    (List.range (d.levels side).length).map (d.writes.foldl (assign slot) arrays slot side)
      = d.levels side := by
  refine List.ext_getElem (by simp) (fun i hi hi' => ?_)
  rw [List.getElem_map, List.getElem_range]
  exact foldl_assign_of_mem arrays (nodup_writes d)
    (mem_writes.mpr (List.getElem?_eq_getElem hi'))

theorem writes_frame {d : Decoded} {slot s : Int} {arrays : Int → Bool → Nat → Entry} {side : Bool}
    {i : Nat} (h : d.writes.foldl (assign slot) arrays s side i ≠ arrays s side i) :
    s = slot ∧ i < (d.levels side).length := by
  by_contra hno
  refine h (foldl_assign_of_notMem _ _ (fun hs e hm => hno ⟨hs, ?_⟩))
  exact (List.getElem?_eq_some_iff.mp (mem_writes.mp hm)).1

/-! ## The call

The steps of one call, put together: acquire a slot or give up, write, and return the event with
its slot or give the slot back. -/

/-- The member `slot` of what the decoder returns; a dropped event is a default constructed one. -/
def slotOf : OrderbookArrays → Int
  | none => -1
  | some e => e.slot

theorem run_writes (garbage : Nat → Int) {slot : Int} {d : Decoded}
    (ws : List (Bool × Nat × Entry)) (σ : Depth) (hd : σ.decoder = .write slot ws d) :
    runFrom (depthStep garbage) σ (List.replicate ws.length .decoder)
      = some { σ with
          arrays := ws.foldl (assign slot) σ.arrays
          decoder := .write slot [] d } := by
  induction ws generalizing σ with
  | nil =>
      show some σ = _
      rw [List.foldl_nil, ← hd]
  | cons w ws ih =>
      have hstep : depthStep garbage σ .decoder = some { σ with
          arrays := assign slot σ.arrays w
          decoder := .write slot ws d } := by
        show σ.decoderStep garbage = _
        unfold Depth.decoderStep
        rw [hd]
        rfl
      rw [List.length_cons, List.replicate_succ, runFrom, hstep]
      exact ih _ rfl

/-- **What a call of the decoder returns and leaves behind**: `item` is returned, and the holder is
in `σ'` afterwards. -/
structure Call (garbage : Nat → Int) (σ : Depth) (m : Message) (item : OrderbookArrays)
    (σ' : Depth) : Prop where
  returns : ∃ n, runFrom (depthStep garbage) σ (.receive m :: List.replicate n .decoder) = some σ' ∧
    σ'.decoder = .put item
  good_iff : item ≠ none ↔ σ.freeCount ≠ 0 ∧ ∃ levels ids, Sent m levels ids
  event : ∀ e, item = some e →
    Sent m e.levels (e.u, e.U, e.pu) ∧ σ'.Stored e ∧ 0 ≤ e.slot ∧
      σ.freeSlots = e.slot :: σ'.freeSlots ∧ σ'.freeCount = σ.freeCount - 1
  dropped : item = none →
    slotOf item = -1 ∧ σ'.freeSlots.Perm σ.freeSlots ∧ σ'.freeCount = σ.freeCount
  /-- only the arrays of the slot acquired are written, within their bounds -/
  ownSlot : ∀ slot side i, σ'.arrays slot side i ≠ σ.arrays slot side i →
    σ.freeCount ≠ 0 ∧ σ.freeSlots.head? = some slot ∧
      (Readable garbage m → i < DEPTH_EVENT_CAPACITY)
  book : σ'.book = σ.book

/-- The call that finds no free slot. -/
theorem call_noSlot (garbage : Nat → Int) {σ : Depth} (hidle : σ.decoder = .idle) (m : Message)
    (hzero : σ.freeCount = 0) :
    Call garbage σ m none { σ with decoder := .put none } := by
  refine ⟨⟨1, ?_, rfl⟩, iff_of_false (fun h => h rfl) (fun h => h.1 hzero), ?_, ?_, ?_, rfl⟩
  · simp [runFrom, depthStep, Depth.decoderStep, hidle, hzero]
  · intro e he
    cases he
  · exact fun _ => ⟨rfl, List.Perm.refl _, rfl⟩
  · exact fun slot side i hne => absurd rfl hne

/-- The call that acquires the slot at the front of the ring, up to its last write. -/
theorem run_toWritten (garbage : Nat → Int) {σ : Depth} (hidle : σ.decoder = .idle) (m : Message)
    {slot : Int} {rest : List Int} (hne : σ.freeCount ≠ 0) (hfree : σ.freeSlots = slot :: rest) :
    runFrom (depthStep garbage) σ
        (.receive m :: List.replicate (3 + (decode garbage m).writes.length) .decoder)
      = some { σ with
          freeSlots := rest
          freeCount := σ.freeCount - 1
          arrays := (decode garbage m).writes.foldl (assign slot) σ.arrays
          decoder := .write slot [] (decode garbage m) } := by
  have hacquire : runFrom (depthStep garbage) σ (.receive m :: List.replicate 3 .decoder)
      = some { σ with
          freeSlots := rest
          freeCount := σ.freeCount - 1
          decoder := .write slot (decode garbage m).writes (decode garbage m) } := by
    simp [runFrom, depthStep, Depth.decoderStep, hidle, hne, hfree, List.replicate]
  rw [List.replicate_add, ← List.cons_append, runFrom_append, hacquire, Option.bind_some,
    run_writes garbage _ _ rfl]

theorem call_slot (garbage : Nat → Int) {σ : Depth} (hidle : σ.decoder = .idle) (m : Message)
    {slot : Int} {rest : List Int} (hne : σ.freeCount ≠ 0) (hfree : σ.freeSlots = slot :: rest)
    (hpos : 0 ≤ slot) (hroom : rest.length < SLOTS) : ∃ item σ', Call garbage σ m item σ' := by
  set d := decode garbage m with hd
  set σw : Depth := { σ with
    freeSlots := rest
    freeCount := σ.freeCount - 1
    arrays := d.writes.foldl (assign slot) σ.arrays
    decoder := .write slot [] d } with hσw
  have hrun := run_toWritten garbage hidle m hne hfree
  rw [← hd, ← hσw] at hrun
  -- only entries of the taken slot are written, and a readable message stays within it
  have hown : ∀ s side i, σw.arrays s side i ≠ σ.arrays s side i →
      σ.freeCount ≠ 0 ∧ σ.freeSlots.head? = some s ∧
        (Readable garbage m → i < DEPTH_EVENT_CAPACITY) := by
    intro s side i hchanged
    obtain ⟨rfl, hi⟩ := writes_frame hchanged
    refine ⟨hne, by rw [hfree]; rfl, fun hread => ?_⟩
    exact lt_of_lt_of_le hi (length_decode_le hread side)
  cases hids : d.ids with
  | some ids =>
      have hsent : Sent m d.levels ids := (decode_ids_iff garbage m ids).mp hids
      set e := σw.eventAt slot (fun side => (d.levels side).length) ids with he
      have hlevels : e.levels = d.levels := funext (writes_stored d slot σ.arrays)
      refine ⟨some e, { σw with decoder := .put (some e) }, ⟨3 + d.writes.length + 1, ?_, rfl⟩,
        iff_of_true (by simp) ⟨hne, _, _, hsent⟩, ?_, (by simp), hown, rfl⟩
      · rw [List.replicate_succ', ← List.cons_append, runFrom_append, hrun]
        simp [runFrom, depthStep, Depth.decoderStep, hσw, hids, he]
      · rintro _ ⟨⟩
        refine ⟨?_, ?_, hpos, hfree, rfl⟩
        · rw [hlevels]
          exact hsent
        · intro side
          show e.levels side = (List.range (e.levels side).length).map (σw.arrays slot side)
          rw [hlevels]
          exact (writes_stored d slot σ.arrays side).symm
  | none =>
      have hnot : ¬ ∃ levels ids, Sent m levels ids := by
        rintro ⟨levels, ids, hsent⟩
        rw [hd, decode_of_sent garbage hsent] at hids
        cases hids
      -- the slot goes back behind the free ones, so the free slots are the same up to their order
      refine ⟨none, { σw with
          freeSlots := rest ++ [slot], freeCount := σ.freeCount, decoder := .put none },
        ⟨3 + d.writes.length + 3, ?_, rfl⟩, iff_of_false (fun h => h rfl) (fun h => hnot h.2),
        ?_, ?_, hown, rfl⟩
      · rw [List.replicate_add, ← List.cons_append, runFrom_append, hrun]
        simp [runFrom, depthStep, Depth.decoderStep, hσw, hids, hroom, List.replicate]
      · intro e he
        cases he
      · intro _
        refine ⟨rfl, ?_, rfl⟩
        rw [hfree]
        exact List.perm_append_singleton slot rest

/-- **An event is decoded whole or dropped whole.** Called in any state that the two threads
reach, on any message, the decoder returns. It returns an event exactly when a slot is free and
the message carries one, and then the event that was sent, stored in the arrays of its slot;
otherwise it returns a dropped event and the same slots are free as before. It writes to the
arrays of the slot it has acquired only. -/
theorem decodes_whole_or_drops (garbage : Nat → Int) (slots : Bool → Nat → Nat → Nat)
    (updateId : Int) (arrays : Int → Bool → Nat → Entry) {σ : Depth}
    (h : Reach (depthStep garbage) (fun _ _ => True) (constructDepth slots updateId arrays) σ)
    (hidle : σ.decoder = .idle) (m : Message) :
    (σ.freeSlots.length : Int) = σ.freeCount + (if σ.returned then 1 else 0) ∧
      ∃ item σ', Call garbage σ m item σ' := by
  have hinv := inv_of_reach h
  have hcount : (σ.freeSlots.length : Int) = σ.freeCount + (if σ.returned then 1 else 0) := by
    have hc := hinv.count
    rw [hidle] at hc
    show _ = _
    rw [hc]
    exact congrArg (· + _) (Int.add_zero _)
  refine ⟨hcount, ?_⟩
  by_cases hzero : σ.freeCount = 0
  · exact ⟨_, _, call_noSlot garbage hidle m hzero⟩
  · have hseen : 0 ≤ σ.freeCount := by
      have hs := hinv.seen
      rw [hidle] at hs
      exact hs
    -- a free slot is in the ring, and the ring has room for it when it comes back
    cases hfree : σ.freeSlots with
    | nil =>
        rw [hfree, List.length_nil] at hcount
        split at hcount <;> omega
    | cons slot rest =>
        have hin : slot ∈ σ.places := by
          unfold Depth.places
          rw [hfree]
          simp
        have hlen : σ.freeSlots.length ≤ SLOTS := by
          have hp := hinv.perm.length_eq
          unfold Depth.places at hp
          simp only [List.length_append, slotNumbers, List.length_map, List.length_range] at hp
          omega
        rw [hfree, List.length_cons] at hlen
        exact call_slot garbage hidle m hzero hfree
          (Depth.nonneg_of_mem_slotNumbers (hinv.perm.mem_iff.mp hin)) hlen

/-- A second message with two bids and an ask, when the event of the first one is still queued:
its levels are returned in the second slot. -/
theorem decodes_whole_twoBids :
    ∃ σ item σ', Reach (depthStep (fun _ => 0)) (fun _ _ => True)
        (constructDepth (fun _ _ _ => 0) 0 (fun _ _ _ => ⟨0, 0⟩)) σ ∧
      queuedSlots σ.book.bufferOut = [0] ∧ Call (fun _ => 0) σ (levelsMessage 12) item σ' ∧
      ∃ e, item = some e ∧ e.slot = 1 ∧ σ'.Stored e ∧
        e.levels true = [⟨10000000000, 200000000⟩, ⟨9900000000, 300000000⟩] ∧
        e.levels false = [⟨10100000000, 100000000⟩] ∧ e.u = 14 ∧ e.U = 13 ∧ e.pu = 12 := by
  obtain ⟨σ, hrun, hidle, hslots, hcount, hfree⟩ : ∃ σ, runFrom (depthStep (fun _ => 0))
      (constructDepth (fun _ _ _ => 0) 0 (fun _ _ _ => ⟨0, 0⟩)) decodeLevels = some σ ∧
      σ.decoder = .idle ∧ queuedSlots σ.book.bufferOut = [0] ∧ σ.freeCount ≠ 0 ∧
      σ.freeSlots.head? = some 1 := ⟨_, rfl, rfl, rfl, by decide, rfl⟩
  have hreach : Reach (depthStep (fun _ => 0)) (fun _ _ => True)
      (constructDepth (fun _ _ _ => 0) 0 (fun _ _ _ => ⟨0, 0⟩)) σ :=
    Reach.refl.of_run hrun
  obtain ⟨-, item, σ', hcall⟩ :=
    decodes_whole_or_drops (fun _ => 0) _ _ _ hreach hidle (levelsMessage 12)
  have hsent : Sent (levelsMessage 12) (decode (fun _ => 0) (levelsMessage 12)).levels
      (14, 13, 12) := (decode_ids_iff (fun _ => 0) _ _).mp rfl
  obtain ⟨e, rfl⟩ := Option.ne_none_iff_exists'.mp (hcall.good_iff.mpr ⟨hcount, _, _, hsent⟩)
  obtain ⟨hevent, hstored, -, hslot, -⟩ := hcall.event e rfl
  -- what was sent is what the decoder has found
  have heq := (decode_of_sent (fun _ => 0) hevent).symm
  have hlevels : e.levels = (decode (fun _ => 0) (levelsMessage 12)).levels :=
    congrArg Decoded.levels heq
  have hids : (e.u, e.U, e.pu) = ((14 : Int), (13 : Int), (12 : Int)) :=
    Option.some.inj (congrArg Decoded.ids heq)
  rw [hslot] at hfree
  refine ⟨σ, some e, σ', hreach, hslots, hcall, e, rfl, Option.some.inj hfree, hstored, ?_, ?_, ?_⟩
  · rw [hlevels]
    decide +kernel
  · rw [hlevels]
    decide +kernel
  · simpa using hids

end AstraConnect.Orderbook
