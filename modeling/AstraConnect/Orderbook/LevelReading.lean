import AstraConnect.Order.OrderTracker
import AstraConnect.Orderbook.Orderbook

set_option autoImplicit false

/-! # Two ways to read an array of levels

The same JSON, an array of `[price, quantity]` pairs of strings, is read by the snapshot loops of
`Futures::API::fetchOrderbookSnapshot` and by `DepthDecoder::readLevels`. The first takes
`price != 0` for "the price has been read", the second counts the fields. Each of them gives the
entries it has stored and how it ended. They agree on an array exactly when `SameReading` holds of
it (`snapshot_agrees_iff`).
-/

namespace AstraConnect.Orderbook

open AstraConnect.Order (Exec Stop valueOf readFixed)

/-! ## The loops of the source

Both loops are given the array as a tree, and return what they have stored when they end. An
exception is an end like the others. -/

/-- `for(auto val : ary) { if(price != 0) volume = …; else price = …; }`. `volume` is `none` while
it is not assigned. -/
def snapshotFields : List JsonTree → Int → Option Int → Exec (Int × Option Int)
  | [], price, volume => .ok (price, volume)
  | val :: rest, price, volume =>
      if price ≠ 0 then do
        let v ← readFixed (some val)
        snapshotFields rest price (some v)
      else do
        let p ← readFixed (some val)
        snapshotFields rest p volume

/-- One level of the snapshot. An iteration over what is not an array throws in its first round. -/
def snapshotLevel (level : JsonTree) : Exec (Int × Option Int) := do
  let ary ← valueOf level.getArray
  snapshotFields ary 0 none

/-- A loop over the levels of a side: what is given to `registerEntry`, in order, until the loop
ends or throws. -/
def snapshotEntries : List JsonTree → List (Int × Option Int) × Exec Unit
  | [] => ([], .ok ())
  | level :: rest =>
      match snapshotLevel level with
      | .error stop => ([], .error stop)
      | .ok entry => (entry :: (snapshotEntries rest).1, (snapshotEntries rest).2)

/-- `DEPTH_EVENT_CAPACITY` -/
def DEPTH_EVENT_CAPACITY : Nat := 1024

namespace DepthDecoder

/-- `for(auto field : pair) { if(fields < 2) values[fields] = …; fields++; }` -/
def readFields : List JsonTree → Nat → (Nat → Int) → Exec (Nat × (Nat → Int))
  | [], fields, values => .ok (fields, values)
  | field :: rest, fields, values =>
      if fields < 2 then do
        let v ← readFixed (some field)
        readFields rest (fields + 1) (Function.update values fields v)
      else readFields rest (fields + 1) values

/-- One pair: the number of its fields and the two values. `garbage` is what the uninitialised
`values` hold. -/
def readPair (garbage : Nat → Int) (level : JsonTree) : Exec (Nat × (Nat → Int)) := do
  let pair ← valueOf level.getArray
  readFields pair 0 garbage

/-- `readLevels(levels, out, count)`: the entries `out[0..count)` and the result. -/
def readLevels (garbage : Nat → Int) : List JsonTree → List Entry → List Entry × Exec Bool
  | [], out => (out, .ok true)
  | level :: rest, out =>
      if out.length ≥ DEPTH_EVENT_CAPACITY then (out, .ok false)
      else
        match readPair garbage level with
        | .error stop => (out, .error stop)
        | .ok (fields, values) =>
            if fields < 2 then (out, .ok false)
            else readLevels garbage rest (out ++ [⟨values 0, values 1⟩])

end DepthDecoder

open DepthDecoder

/-! ## Decimal fields -/

/-- The value of a field that is a decimal string in range. -/
def decimalOf (field : JsonTree) : Option Int := (readFixed (some field)).toOption

theorem readFixed_eq (field : JsonTree) : readFixed (some field) = valueOf (decimalOf field) :=
  (Order.valueOf_toOption (Order.readFixed_ne_waits _)).symm

/-! ## What the loops make of one level

Three kinds of levels are told apart by the first two fields: those on which both throw, those that
are too short, and the others. Only the last kind can be read alike. -/

/-- Once the price is there, every further field is read as the volume. -/
theorem snapshotFields_volume {price : Int} (hp : price ≠ 0) (fields : List JsonTree)
    (volume : Option Int) :
    snapshotFields fields price volume =
      if ∀ f ∈ fields, (decimalOf f).isSome then
        .ok (price, (fields.getLast?.bind decimalOf).or volume)
      else .error .throws := by
  induction fields generalizing volume with
  | nil => simp [snapshotFields]
  | cons f rest ih =>
      rw [snapshotFields, if_pos hp, readFixed_eq]
      rcases hf : decimalOf f with - | v
      · rw [if_neg (by simp [hf])]
        rfl
      · show snapshotFields rest price (some v) = _
        rw [ih]
        simp only [List.forall_mem_cons, hf]
        cases rest with
        | nil => simp [hf]
        | cons g rest =>
            simp only [Option.isSome_some, true_and, List.getLast?_cons_cons]
            split_ifs with hall
            · -- the last field is a decimal, so the volume before it does not count
              obtain ⟨w, hw⟩ := Option.isSome_iff_exists.mp
                (hall _ (List.getLast_mem (List.cons_ne_nil g rest)))
              rw [List.getLast?_eq_some_getLast (List.cons_ne_nil g rest), Option.bind_some, hw]
              rfl
            · rfl

/-- While the price read is zero no volume is assigned. -/
theorem snapshotFields_zero {fields : List JsonTree} {volume : Option Int}
    (h : snapshotFields fields 0 none = .ok (0, volume)) : volume = none := by
  induction fields with
  | nil =>
      simp only [snapshotFields, Except.ok.injEq, Prod.mk.injEq] at h
      exact h.2.symm
  | cons f rest ih =>
      rw [snapshotFields, if_neg (by simp), Order.bind_eq_ok_iff] at h
      obtain ⟨p, -, h⟩ := h
      by_cases hp : p = 0
      · rw [hp] at h
        exact ih h
      · rw [snapshotFields_volume hp] at h
        split_ifs at h
        simp only [Except.ok.injEq, Prod.mk.injEq] at h
        exact absurd h.1 hp

/-- The fields behind the second are counted only. -/
theorem readFields_rest (fields : List JsonTree) {n : Nat} (hn : 2 ≤ n) (values : Nat → Int) :
    readFields fields n values = .ok (n + fields.length, values) := by
  induction fields generalizing n with
  | nil => rfl
  | cons f rest ih =>
      rw [readFields, if_neg (by omega), ih (by omega), List.length_cons]
      congr 2
      omega

/-- What `readLevels` does with one level: the entry it writes, `none` for a short pair. -/
def decoded (garbage : Nat → Int) (level : JsonTree) : Exec (Option Entry) :=
  (readPair garbage level).map fun r => if r.1 < 2 then none else some ⟨r.2 0, r.2 1⟩

theorem readLevels_cons (garbage : Nat → Int) (level : JsonTree) (rest : List JsonTree)
    (out : List Entry) (hroom : out.length < DEPTH_EVENT_CAPACITY) :
    readLevels garbage (level :: rest) out =
      match decoded garbage level with
      | .error stop => (out, .error stop)
      | .ok none => (out, .ok false)
      | .ok (some entry) => readLevels garbage rest (out ++ [entry]) := by
  rw [readLevels, if_neg (by omega), decoded]
  rcases readPair garbage level with stop | ⟨fields, values⟩
  · rfl
  · simp only [Except.map]
    split_ifs <;> rfl

/-- Both loops throw on the level: it is not an array, or one of its first two fields is not a
decimal string in range. -/
def Broken (level : JsonTree) : Prop :=
  ∀ fields, level.getArray = some fields → ∃ f ∈ fields.take 2, decimalOf f = none

/-- Both loops read the level as its first two fields: the price is not zero, and when there are
further fields they are decimals too and the last of them repeats the second. -/
def PlainPair (level : JsonTree) : Prop :=
  ∃ x y more price volume, level.getArray = some (x :: y :: more) ∧
    decimalOf x = some price ∧ price ≠ 0 ∧ decimalOf y = some volume ∧
    (∀ z ∈ more, (decimalOf z).isSome) ∧ (more.getLast?.bind decimalOf).getD volume = volume

theorem lastVolume_eq_iff {y : JsonTree} {volume : Int} (hy : decimalOf y = some volume)
    (price : Int) (more : List JsonTree) :
    (if ∀ f ∈ y :: more, (decimalOf f).isSome then
        (.ok (price, ((y :: more).getLast?.bind decimalOf).or none) : Exec (Int × Option Int))
      else .error .throws) = .ok (price, some volume) ↔
      (∀ z ∈ more, (decimalOf z).isSome) ∧ (more.getLast?.bind decimalOf).getD volume = volume := by
  simp only [List.forall_mem_cons, hy, Option.isSome_some, true_and, Option.or_none]
  by_cases hall : ∀ z ∈ more, (decimalOf z).isSome
  · rw [if_pos hall, and_iff_right hall, Except.ok.injEq, Prod.mk.injEq, and_iff_right rfl]
    cases more with
    | nil => simp [hy]
    | cons z more =>
        obtain ⟨w, hw⟩ := Option.isSome_iff_exists.mp
          (hall _ (List.getLast_mem (List.cons_ne_nil z more)))
        rw [List.getLast?_cons_cons, List.getLast?_eq_some_getLast (List.cons_ne_nil z more),
          Option.bind_some, hw, Option.some.injEq, Option.getD_some]
  · rw [if_neg hall]
    exact iff_of_false (by simp) (fun h => hall h.1)

/-- **The two readings of one level**: both throw; or it is short and the snapshot has no volume for
it; or `readLevels` writes an entry, which the snapshot registers exactly for a plain pair. -/
theorem level_cases (garbage : Nat → Int) (level : JsonTree) :
    (Broken level ∧ snapshotLevel level = .error .throws ∧
        decoded garbage level = .error .throws) ∨
      (¬ Broken level ∧ ¬ PlainPair level ∧ (∃ price, snapshotLevel level = .ok (price, none)) ∧
        decoded garbage level = .ok none) ∨
      (¬ Broken level ∧ ∃ entry : Entry, decoded garbage level = .ok (some entry) ∧
        (snapshotLevel level = .ok (entry.price, some entry.volume) ↔ PlainPair level)) := by
  unfold snapshotLevel decoded readPair Broken PlainPair
  rcases level.getArray with - | fields
  · exact .inl ⟨fun _ h => by simp at h, rfl, rfl⟩
  simp only [Option.some.injEq, forall_eq']
  rcases fields with - | ⟨x, fields⟩
  · refine .inr (.inl ⟨by simp, by simp, ⟨0, rfl⟩, rfl⟩)
  rcases hx : decimalOf x with - | price
  · -- the first field is read by both
    refine .inl ⟨⟨x, by simp, hx⟩, ?_, ?_⟩
    · show snapshotFields (x :: fields) 0 none = _
      rw [snapshotFields, if_neg (by simp), readFixed_eq, hx]
      rfl
    · show Except.map _ (readFields (x :: fields) 0 garbage) = _
      rw [readFields, if_pos (by decide), readFixed_eq, hx]
      rfl
  rcases fields with - | ⟨y, more⟩
  · refine .inr (.inl ⟨by simp [hx], by simp, ⟨price, ?_⟩, ?_⟩)
    · show snapshotFields [x] 0 none = _
      rw [snapshotFields, if_neg (by simp), readFixed_eq, hx]
      rfl
    · show Except.map _ (readFields [x] 0 garbage) = _
      rw [readFields, if_pos (by decide), readFixed_eq, hx]
      rfl
  have hsnap : (valueOf (some (x :: y :: more)) >>= fun ary => snapshotFields ary 0 none)
      = snapshotFields (y :: more) price none := by
    show snapshotFields (x :: y :: more) 0 none = _
    rw [snapshotFields, if_neg (by simp), readFixed_eq, hx]
    rfl
  rcases hy : decimalOf y with - | volume
  · -- the second one too, as the volume or once more as the price
    refine .inl ⟨⟨y, by simp, hy⟩, ?_, ?_⟩
    · rw [hsnap, snapshotFields, readFixed_eq, hy]
      split_ifs <;> rfl
    · show Except.map _ (readFields (x :: y :: more) 0 garbage) = _
      rw [readFields, if_pos (by decide), readFixed_eq, hx]
      show Except.map _ (readFields (y :: more) 1 _) = _
      rw [readFields, if_pos (by decide), readFixed_eq, hy]
      rfl
  refine .inr (.inr ⟨by simp [hx, hy], ⟨price, volume⟩, ?_, ?_⟩)
  · show Except.map _ (readFields (x :: y :: more) 0 garbage) = _
    rw [readFields, if_pos (by decide), readFixed_eq, hx]
    show Except.map _ (readFields (y :: more) 1 _) = _
    rw [readFields, if_pos (by decide), readFixed_eq, hy]
    show Except.map _ (readFields more 2 _) = _
    rw [readFields_rest more (le_refl 2)]
    show Except.ok (if 2 + more.length < 2 then none else _) = _
    rw [if_neg (by omega)]
    simp [Function.update]
  · rw [hsnap]
    by_cases hp : price = 0
    · -- a zero price is still "not read": whatever follows, this entry is not registered
      refine iff_of_false ?_ ?_
      · rw [hp]
        intro h
        exact absurd (snapshotFields_zero h) (by simp)
      · rintro ⟨x', y', more', p, v, heq, hx', hp', -⟩
        obtain ⟨rfl, -⟩ := List.cons.inj heq
        rw [hx] at hx'
        exact hp' ((Option.some.inj hx').symm.trans hp)
    · rw [snapshotFields_volume hp, lastVolume_eq_iff hy]
      constructor
      · rintro ⟨hall, hlast⟩
        exact ⟨x, y, more, price, volume, rfl, hx, hp, hy, hall, hlast⟩
      · rintro ⟨x', y', more', p, v, heq, hx', -, hy', hall, hlast⟩
        simp only [List.cons.injEq] at heq
        obtain ⟨rfl, rfl, rfl⟩ := heq
        rw [hy, Option.some.injEq] at hy'
        rw [hy']
        exact ⟨hall, hlast⟩

/-! ## Whole arrays -/

/-- `readLevels` appends what it would write into an empty array. -/
theorem readLevels_append (garbage : Nat → Int) (levels : List JsonTree) (out : List Entry)
    (hroom : out.length + levels.length ≤ DEPTH_EVENT_CAPACITY) :
    readLevels garbage levels out
      = (out ++ (readLevels garbage levels []).1, (readLevels garbage levels []).2) := by
  induction levels generalizing out with
  | nil => simp [readLevels]
  | cons level rest ih =>
      rw [List.length_cons] at hroom
      rw [readLevels_cons garbage level rest out (by omega),
        readLevels_cons garbage level rest [] (by decide)]
      rcases decoded garbage level with stop | - | entry
      · simp
      · simp
      · dsimp only
        rw [ih (out ++ [entry]) (by rw [List.length_append, List.length_singleton]; omega),
          ih ([] ++ [entry]) (by rw [List.nil_append, List.length_singleton]; omega)]
        simp

/-- The snapshot loop registers what `readLevels` writes, fails exactly when it returns `false` or
throws, and registers no entry without a volume. -/
structure Agrees (garbage : Nat → Int) (levels : List JsonTree) : Prop where
  entries : (snapshotEntries levels).1
    = (readLevels garbage levels []).1.map (fun e => (e.price, some e.volume))
  failure : (snapshotEntries levels).2 ≠ .ok () ↔ (readLevels garbage levels []).2 ≠ .ok true
  assigned : ∀ e ∈ (snapshotEntries levels).1, e.2 ≠ none

/-- Up to the first level that both loops throw on, every level is a plain pair. -/
def SameReading : List JsonTree → Prop
  | [] => True
  | level :: rest => Broken level ∨ (PlainPair level ∧ SameReading rest)

/-- **The snapshot parser and the diff decoder agree on an array of levels** exactly when every
level up to the first one that both throw on is a plain pair. -/
theorem snapshot_agrees_iff (garbage : Nat → Int) (levels : List JsonTree)
    (hlen : levels.length ≤ 1000) : Agrees garbage levels ↔ SameReading levels := by
  induction levels with
  | nil =>
      refine iff_of_true ⟨rfl, ?_, ?_⟩ trivial
      · exact iff_of_false (fun h => h rfl) (fun h => h rfl)
      · intro e he
        cases he
  | cons level rest ih =>
      rw [List.length_cons] at hlen
      have hcons := readLevels_cons garbage level rest [] (by decide)
      rw [SameReading, ← ih (by omega)]
      rcases level_cases garbage level with ⟨hbroken, hsnap, hdec⟩ | ⟨hok, hnot, ⟨price, hsnap⟩,
        hdec⟩ | ⟨hok, entry, hdec, hiff⟩
      · rw [hdec] at hcons
        have hentries : snapshotEntries (level :: rest) = ([], .error .throws) := by
          rw [snapshotEntries, hsnap]
        refine iff_of_true ⟨?_, ?_, ?_⟩ (.inl hbroken)
        · rw [hentries, hcons]
          rfl
        · rw [hentries, hcons]
          exact iff_of_true (by simp) (by simp)
        · rw [hentries]
          intro e he
          cases he
      · -- a short pair is registered without a volume
        refine iff_of_false (fun h => ?_) (fun h => h.elim hok (fun hp => hnot hp.1))
        refine h.assigned (price, none) ?_ rfl
        rw [snapshotEntries, hsnap]
        exact List.mem_cons_self ..
      · have happend := readLevels_append garbage rest [entry] (by
          have : DEPTH_EVENT_CAPACITY = 1024 := rfl
          rw [List.length_singleton]
          omega)
        rw [hdec] at hcons
        dsimp only at hcons
        rw [List.nil_append, happend] at hcons
        rw [or_iff_right hok, ← hiff]
        constructor
        · intro h
          -- the first entries agree, so the pair is plain, and the rest agrees as well
          have hfirst : snapshotLevel level = .ok (entry.price, some entry.volume) := by
            have hentries := h.entries
            rw [snapshotEntries, hcons] at hentries
            rcases hs : snapshotLevel level with stop | q
            · rw [hs] at hentries
              simp at hentries
            · rw [hs] at hentries
              simp only [List.singleton_append, List.map_cons, List.cons.injEq] at hentries
              rw [hentries.1]
          refine ⟨hfirst, ?_, ?_, ?_⟩
          · have := h.entries
            rw [snapshotEntries, hfirst, hcons] at this
            exact (List.cons.inj this).2
          · have := h.failure
            rwa [snapshotEntries, hfirst, hcons] at this
          · intro e he
            apply h.assigned
            rw [snapshotEntries, hfirst]
            exact List.mem_cons_of_mem _ he
        · rintro ⟨hfirst, hrest⟩
          refine ⟨?_, ?_, ?_⟩
          · rw [snapshotEntries, hfirst, hcons]
            exact congrArg _ hrest.entries
          · rw [snapshotEntries, hfirst, hcons]
            exact hrest.failure
          · rw [snapshotEntries, hfirst]
            intro e he
            rcases List.mem_cons.mp he with rfl | he
            · simp
            · exact hrest.assigned e he

/-- One level, `["5", "2"]`. -/
theorem snapshot_agrees_iff_onePair :
    Agrees (fun _ => 0) [.arr [.str "5".toList, .str "2".toList]] := by
  refine (snapshot_agrees_iff (fun _ => 0) _ (by decide)).mpr (.inr ⟨?_, trivial⟩)
  exact ⟨_, _, [], 500000000, 200000000, rfl, by decide +kernel, by decide, by decide +kernel,
    by simp, rfl⟩

/-- The level `["1"]` enters the snapshot without a volume; `readLevels` refuses the array. -/
theorem snapshot_shortPair :
    snapshotEntries [.arr [.str "1".toList]] = ([(100000000, none)], .ok ()) ∧
      readLevels (fun _ => 0) [.arr [.str "1".toList]] [] = ([], .ok false) ∧
      ¬ Agrees (fun _ => 0) [.arr [.str "1".toList]] := by
  have hdecimal : decimalOf (.str "1".toList) = some 100000000 := by decide +kernel
  have hsnap : snapshotEntries [.arr [.str "1".toList]] = ([(100000000, none)], .ok ()) := by
    simp only [snapshotEntries, snapshotLevel, JsonTree.getArray, snapshotFields, readFixed_eq,
      hdecimal, valueOf, bind, Except.bind]
    rfl
  have hread : readLevels (fun _ => 0) [.arr [.str "1".toList]] [] = ([], .ok false) := by
    simp only [readLevels, readPair, JsonTree.getArray, readFields, readFixed_eq, hdecimal,
      valueOf, bind, Except.bind]
    rfl
  refine ⟨hsnap, hread, fun h => ?_⟩
  refine h.assigned (100000000, none) ?_ rfl
  rw [hsnap]
  exact List.mem_singleton.mpr rfl

end AstraConnect.Orderbook
