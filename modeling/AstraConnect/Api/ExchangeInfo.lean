import AstraConnect.Api.RingFetch
import AstraConnect.Lib.FieldReading

set_option autoImplicit false

/-! # The exchange's parameters of a pair (`api/futures/api.hpp`, `model/exchangeInfo.hpp`)

`fetchExchangeInfoForPair` goes through the symbols of the exchange until it comes to the pair, and
through the filters of that symbol to their end. `pair_` and `field_` are variables that stay: a
symbol without a name, or a filter without a type, is taken for one like the one before it.

A loop over what is no array makes one round, with an element that is an error. The round over the
symbols asks for an object and throws; the one over the filters finds no type, reads nothing and
throws nothing.

What the call returns, and with what in `out`, is read off the document in one sentence
(`exchangeInfo_answers`).
-/

namespace AstraConnect.Api

open FieldReading
open AstraConnect.Order (Str Exec Stop readFixed readFixed_ne_waits)

structure PairInfo where
  minNotional : Int
  maxPrice : Int
  minPrice : Int
  tickSize : Int
  maxQuantity : Int
  minQuantity : Int
  stepsize : Int
  deriving DecidableEq, Repr

/-- The members that a filter assigns. -/
inductive PairField where
  | maxPrice
  | minPrice
  | tickSize
  | maxQuantity
  | minQuantity
  | stepsize
  | minNotional
  deriving DecidableEq, Repr

def PRICE_FILTER : Str := "PRICE_FILTER".toList
def LOT_SIZE : Str := "LOT_SIZE".toList
def MIN_NOTIONAL : Str := "MIN_NOTIONAL".toList

namespace PairField

/-- The `filterType` of the filter that a member is read from. -/
def filterType : PairField → Str
  | maxPrice | minPrice | tickSize => PRICE_FILTER
  | maxQuantity | minQuantity | stepsize => LOT_SIZE
  | minNotional => MIN_NOTIONAL

def name : PairField → Str
  | maxPrice => "maxPrice".toList
  | minPrice => "minPrice".toList
  | tickSize => "tickSize".toList
  | maxQuantity => "maxQty".toList
  | minQuantity => "minQty".toList
  | stepsize => "stepSize".toList
  | minNotional => "notional".toList

end PairField

namespace PairInfo

def get (info : PairInfo) : PairField → Int
  | .maxPrice => info.maxPrice
  | .minPrice => info.minPrice
  | .tickSize => info.tickSize
  | .maxQuantity => info.maxQuantity
  | .minQuantity => info.minQuantity
  | .stepsize => info.stepsize
  | .minNotional => info.minNotional

def set (info : PairInfo) (m : PairField) (v : Int) : PairInfo :=
  match m with
  | .maxPrice => { info with maxPrice := v }
  | .minPrice => { info with minPrice := v }
  | .tickSize => { info with tickSize := v }
  | .maxQuantity => { info with maxQuantity := v }
  | .minQuantity => { info with minQuantity := v }
  | .stepsize => { info with stepsize := v }
  | .minNotional => { info with minNotional := v }

@[simp] theorem get_set_self (info : PairInfo) (m : PairField) (v : Int) :
    (info.set m v).get m = v := by
  cases m <;> rfl

@[simp] theorem get_set_of_ne (info : PairInfo) {m m' : PairField} (h : m' ≠ m) (v : Int) :
    (info.set m v).get m' = info.get m' := by
  cases m <;> cases m' <;> first | rfl | exact absurd rfl h

theorem ext_get {a b : PairInfo} (h : ∀ m, a.get m = b.get m) : a = b := by
  cases a
  cases b
  simp only [mk.injEq]
  exact ⟨h .minNotional, h .maxPrice, h .minPrice, h .tickSize, h .maxQuantity, h .minQuantity,
    h .stepsize⟩

end PairInfo

/-! ## The call

`pair_` and `field_` are one variable each for the whole document, so the loops take what they held
before and return what they hold. `findPair` also says whether the pair was found, which is where
the source returns SUCCESS from inside the loop. -/

namespace Futures

/-- `out.member = readFixed(field[name])`, one after the other. -/
def readFields (field : JsonTree) : List PairField → PairInfo → PairInfo × Exec Unit
  | [], out => (out, .ok ())
  | m :: rest, out =>
      match readFixed (field.get m.name) with
      | .error stop => (out, .error stop)
      | .ok v => readFields field rest (out.set m v)

/-- `if(field_ == "PRICE_FILTER") …`, and so on. -/
def fieldsOf (field_ : Str) : List PairField :=
  (if field_ = PRICE_FILTER then [.maxPrice, .minPrice, .tickSize] else []) ++
    (if field_ = LOT_SIZE then [.maxQuantity, .minQuantity, .stepsize] else []) ++
    (if field_ = MIN_NOTIONAL then [.minNotional] else [])

def typeOf (field : JsonTree) : Option Str :=
  (field.get "filterType".toList).bind JsonTree.getString

/-- `for(auto field : obj["filters"])` -/
def readFilters : List JsonTree → Str → PairInfo → PairInfo × Exec Unit
  | [], _, out => (out, .ok ())
  | field :: rest, field_, out =>
      let field_ := (typeOf field).getD field_
      match readFields field (fieldsOf field_) out with
      | (out, .error stop) => (out, .error stop)
      | (out, .ok ()) => readFilters rest field_ out

def nameOf (symbol : JsonTree) : Option Str := (symbol.get "symbol".toList).bind JsonTree.getString

def filtersOf (symbol : JsonTree) : Option (List JsonTree) :=
  (symbol.get "filters".toList).bind JsonTree.getArray

/-- `for(auto symbol : doc["symbols"])`; whether the pair has been found. -/
def findPair (pair : Str) : List JsonTree → Str → PairInfo → PairInfo × Exec Bool
  | [], _, out => (out, .ok false)
  | symbol :: rest, pair_, out =>
      match symbol.getObject with
      | none => (out, .error .throws)
      | some _ =>
          let pair_ := (nameOf symbol).getD pair_
          if pair_ = pair then
            match filtersOf symbol with
            -- the one round leaves `field_` empty
            | none => (out, .ok true)
            | some filters =>
                ((readFilters filters [] out).1, (readFilters filters [] out).2.map (fun _ => true))
          else findPair pair rest pair_ out

def exchangeInfoTarget : Str := "/fapi/v1/exchangeInfo".toList

def symbolsOf (doc : JsonTree) : Option (List JsonTree) :=
  (doc.get "symbols".toList).bind JsonTree.getArray

/-- What is returned when the loop ends; `what` is the text of the exception, if there is one. -/
def exchangeInfoAnswer (what pair : Str) : Exec Bool → FetchError
  | .error _ => ⟨.BAD_FIELD, some ("Failed to parse a field. error: ".toList ++ what)⟩
  | .ok true => .success
  | .ok false => ⟨.BAD_SYMBOL, some ("Pair not found in exchange info: ".toList ++ pair)⟩

def fetchExchangeInfoForPair (sendRequest : Str → Reply) (what pair : Str) (out : PairInfo) :
    FetchError × PairInfo :=
  match (sendRequest exchangeInfoTarget).document with
  | .error err => (err, out)
  | .ok doc =>
      match symbolsOf doc with
      -- an iteration over what is not an array throws in its first round
      | none => (exchangeInfoAnswer what pair (.error .throws), out)
      | some symbols =>
          (exchangeInfoAnswer what pair (findPair pair symbols [] out).2,
            (findPair pair symbols [] out).1)

/-! ## The filters

The type of a filter is carried along the list (`typeOf`), so every statement about the filters
takes the type that they begin with. Within a reading only the last filter of a type shows. -/

theorem mem_fieldsOf {field_ : Str} {m : PairField} :
    m ∈ fieldsOf field_ ↔ m.filterType = field_ := by
  have hswap : m.filterType = field_ ↔ field_ = m.filterType := eq_comm
  rw [hswap, fieldsOf, List.mem_append, List.mem_append, List.mem_ite_nil_right,
    List.mem_ite_nil_right, List.mem_ite_nil_right]
  cases m <;> simp only [PairField.filterType, List.mem_cons, List.not_mem_nil, reduceCtorEq,
    or_false, or_true, false_or, and_true, and_false]

/-- The field is a text that `parseFixed` accepts. -/
def Reads (field : JsonTree) (m : PairField) (v : Int) : Prop :=
  readFixed (field.get m.name) = .ok v

variable {field : JsonTree} {ms : List PairField} {filters symbols : List JsonTree}
variable {out : PairInfo} {field_ pair pair_ : Str}

theorem readFields_ok_iff :
    (readFields field ms out).2 = .ok () ↔ ∀ m ∈ ms, ∃ v, Reads field m v := by
  induction ms generalizing out with
  | nil => exact iff_of_true rfl (fun m hm => by cases hm)
  | cons m rest ih =>
      rw [readFields, List.forall_mem_cons]
      cases hread : readFixed (field.get m.name) with
      | error stop =>
          refine iff_of_false (fun h => by cases h) ?_
          rintro ⟨⟨v, hv⟩, -⟩
          cases hread.symm.trans hv
      | ok v => exact ih.trans (and_iff_right ⟨v, hread⟩).symm

/-- The members that are read have their own field's value, the others stay. -/
theorem readFields_get (h : (readFields field ms out).2 = .ok ()) (m : PairField) :
    (m ∈ ms → Reads field m ((readFields field ms out).1.get m)) ∧
      (m ∉ ms → (readFields field ms out).1.get m = out.get m) := by
  induction ms generalizing out with
  | nil => exact ⟨fun hm => (by cases hm), fun _ => rfl⟩
  | cons m' rest ih =>
      have hread := readFields_ok_iff.mp h m' List.mem_cons_self
      obtain ⟨v, hv⟩ := hread
      have hstep : readFields field (m' :: rest) out = readFields field rest (out.set m' v) := by
        rw [readFields, hv]
      rw [hstep] at h ⊢
      obtain ⟨hread, hframe⟩ := ih h
      constructor
      · intro hm
        by_cases hrest : m ∈ rest
        · exact hread hrest
        · obtain rfl := (List.mem_cons.mp hm).resolve_right hrest
          rw [hframe hrest, PairInfo.get_set_self]
          exact hv
      · intro hm
        rw [List.mem_cons, not_or] at hm
        obtain ⟨hne, hrest⟩ := hm
        rw [hframe hrest, PairInfo.get_set_of_ne _ hne]

/-- Every filter has the fields of the type that it is taken to have. -/
def FiltersReadable (filters : List JsonTree) (field_ : Str) : Prop :=
  ∀ p ∈ keyed typeOf field_ filters, ∀ m, m.filterType = p.1 → ∃ v, Reads p.2 m v

/-- A member has the value in the last filter of its type, or stays as it was without one. -/
def Shows (filters : List JsonTree) (field_ : Str) (out info : PairInfo) : Prop :=
  ∀ m, match lastKeyed m.filterType (keyed typeOf field_ filters) with
    | some field => Reads field m (info.get m)
    | none => info.get m = out.get m

theorem filtersReadable_cons (out : PairInfo) {rest : List JsonTree} :
    FiltersReadable (field :: rest) field_ ↔
      (readFields field (fieldsOf ((typeOf field).getD field_)) out).2 = .ok () ∧
        FiltersReadable rest ((typeOf field).getD field_) := by
  rw [readFields_ok_iff, FiltersReadable, keyed, List.forall_mem_cons]
  refine and_congr_left (fun _ => forall_congr' (fun m => ?_))
  rw [mem_fieldsOf]

/-- **The loop over the filters.** -/
theorem readFilters_ok_iff : (readFilters filters field_ out).2 = .ok () ↔
    FiltersReadable filters field_ := by
  induction filters generalizing field_ out with
  | nil => exact iff_of_true rfl (fun p hp => by cases hp)
  | cons field rest ih =>
      rw [filtersReadable_cons out, readFilters]
      rcases readFields field (fieldsOf ((typeOf field).getD field_)) out with ⟨out', stop | u⟩
      · exact iff_of_false (fun h => by cases h) (fun h => by cases h.1)
      · exact ih.trans (and_iff_right rfl).symm

theorem readFilters_shows (out : PairInfo) (h : FiltersReadable filters field_) :
    Shows filters field_ out (readFilters filters field_ out).1 := by
  induction filters generalizing field_ out with
  | nil => exact fun m => rfl
  | cons field rest ih =>
      obtain ⟨hfirst, hrest⟩ := (filtersReadable_cons out).mp h
      have hread := readFields_get hfirst
      rw [readFilters]
      rcases hfields : readFields field (fieldsOf ((typeOf field).getD field_)) out with
        ⟨out', stop | u⟩
      · rw [hfields] at hfirst
        cases hfirst
      · rw [hfields] at hread
        have hshown := ih out' hrest
        intro m
        have hm := hshown m
        have hmember := hread m
        rw [mem_fieldsOf] at hmember
        rw [keyed, lastKeyed]
        cases hlast : lastKeyed m.filterType (keyed typeOf ((typeOf field).getD field_) rest) with
        | some later =>
            rw [hlast] at hm
            exact hm
        | none =>
            rw [hlast] at hm
            rw [Option.none_or, hm]
            by_cases htype : (typeOf field).getD field_ = m.filterType
            · rw [if_pos htype]
              exact hmember.1 htype.symm
            · rw [if_neg htype]
              exact hmember.2 (fun h => htype h.symm)

/-- What the filters show is one value for each member. -/
theorem Shows.unique {info info' : PairInfo} (h : Shows filters field_ out info)
    (h' : Shows filters field_ out info') : info = info' := by
  apply PairInfo.ext_get
  intro m
  have hm := h m
  have hm' := h' m
  cases hlast : lastKeyed m.filterType (keyed typeOf field_ filters) with
  | some field =>
      rw [hlast] at hm hm'
      exact Except.ok.inj (hm.symm.trans hm')
  | none =>
      rw [hlast] at hm hm'
      exact hm.trans hm'.symm

/-! ## The symbols

The loop over the symbols ends in one of three ways (`FindPair`): at the first symbol of the name,
behind the last symbol, or with an exception at a symbol that is no object. -/

/-- The first symbol with the name. -/
def Listed (pair : Str) (symbols : List JsonTree) (symbol : JsonTree) : Prop :=
  ∃ before after, symbols = before ++ symbol :: after ∧
    (∀ o ∈ before, o.getObject.isSome ∧ nameOf o ≠ some pair) ∧ nameOf symbol = some pair

def NotListed (pair : Str) (symbols : List JsonTree) : Prop :=
  ∀ o ∈ symbols, o.getObject.isSome ∧ nameOf o ≠ some pair

/-- What is done with the symbol of the pair. -/
def readPair (symbol : JsonTree) (out : PairInfo) : PairInfo × Exec Bool :=
  match filtersOf symbol with
  | none => (out, .ok true)
  | some filters =>
      ((readFilters filters [] out).1, (readFilters filters [] out).2.map (fun _ => true))

/-- How the loop over the symbols ends. -/
inductive FindPair (pair : Str) (symbols : List JsonTree) (out : PairInfo) :
    PairInfo × Exec Bool → Prop
  | found {symbol : JsonTree} (h : Listed pair symbols symbol) :
      FindPair pair symbols out (readPair symbol out)
  | notListed (h : NotListed pair symbols) : FindPair pair symbols out (out, .ok false)
  | throws (h : ¬ NotListed pair symbols) (hfirst : ∀ symbol, ¬ Listed pair symbols symbol) :
      FindPair pair symbols out (out, .error .throws)

theorem isSome_getObject_of_nameOf {symbol : JsonTree} (h : nameOf symbol = some pair) :
    symbol.getObject.isSome := by
  unfold nameOf JsonTree.get at h
  cases hobject : symbol.getObject with
  | none =>
      rw [hobject] at h
      cases h
  | some fields => rfl

theorem listed_cons {symbol s : JsonTree} {rest : List JsonTree} :
    Listed pair (s :: rest) symbol ↔ (symbol = s ∧ nameOf s = some pair) ∨
      ((s.getObject.isSome ∧ nameOf s ≠ some pair) ∧ Listed pair rest symbol) := by
  constructor
  · rintro ⟨before, after, heq, hbefore, hsymbol⟩
    cases before with
    | nil =>
        obtain ⟨rfl, -⟩ := List.cons.inj heq
        exact Or.inl ⟨rfl, hsymbol⟩
    | cons b before =>
        obtain ⟨rfl, rfl⟩ := List.cons.inj heq
        obtain ⟨hb, hbefore⟩ := List.forall_mem_cons.mp hbefore
        exact Or.inr ⟨hb, before, after, rfl, hbefore, hsymbol⟩
  · rintro (⟨rfl, hname⟩ | ⟨hs, before, after, rfl, hbefore, hsymbol⟩)
    · exact ⟨[], rest, rfl, fun o ho => (by cases ho), hname⟩
    · exact ⟨s :: before, after, rfl, List.forall_mem_cons.mpr ⟨hs, hbefore⟩, hsymbol⟩

theorem listed_unique {a b : JsonTree} (ha : Listed pair symbols a) (hb : Listed pair symbols b) :
    a = b := by
  induction symbols with
  | nil =>
      obtain ⟨before, after, heq, -⟩ := ha
      cases before <;> cases heq
  | cons s rest ih =>
      rcases listed_cons.mp ha with ⟨rfl, ha⟩ | ⟨⟨-, hne⟩, ha⟩
      · rcases listed_cons.mp hb with ⟨rfl, -⟩ | ⟨⟨-, hne⟩, -⟩
        · rfl
        · exact absurd ha hne
      · rcases listed_cons.mp hb with ⟨-, hb⟩ | ⟨-, hb⟩
        · exact absurd hb hne
        · exact ih ha hb

theorem not_listed_of_notListed (h : NotListed pair symbols) (symbol : JsonTree) :
    ¬ Listed pair symbols symbol := by
  rintro ⟨before, after, rfl, -, hname⟩
  exact (h symbol (by simp)).2 hname

/-- **The loop over the symbols**: a name that stays from the symbol before is not the pair's, or
the loop would have ended there. -/
theorem findPair_cases (symbols : List JsonTree) (hpair : pair_ ≠ pair) (out : PairInfo) :
    FindPair pair symbols out (findPair pair symbols pair_ out) := by
  induction symbols generalizing pair_ with
  | nil => exact .notListed (fun o ho => by cases ho)
  | cons s rest ih =>
      rw [findPair]
      cases hobject : s.getObject with
      | none =>
          have hs : ¬ s.getObject.isSome := by rw [hobject]; simp
          refine .throws (fun h => hs (h s List.mem_cons_self).1) (fun symbol h => hs ?_)
          rcases listed_cons.mp h with ⟨-, hname⟩ | ⟨⟨hs', -⟩, -⟩
          · exact isSome_getObject_of_nameOf hname
          · exact hs'
      | some fields =>
          have hs : s.getObject.isSome := by rw [hobject]; rfl
          dsimp only
          by_cases hname : nameOf s = some pair
          · rw [hname, Option.getD_some, if_pos rfl]
            exact .found (listed_cons.mpr (Or.inl ⟨rfl, hname⟩))
          · have hnext : (nameOf s).getD pair_ ≠ pair := by
              cases hn : nameOf s with
              | none => exact hpair
              | some n => exact fun h => hname (hn.trans (congrArg some h))
            rw [if_neg hnext]
            have hrest := ih hnext
            generalize findPair pair rest ((nameOf s).getD pair_) out = r at hrest ⊢
            cases hrest with
            | found h => exact .found (listed_cons.mpr (Or.inr ⟨⟨hs, hname⟩, h⟩))
            | notListed h => exact .notListed (List.forall_mem_cons.mpr ⟨⟨hs, hname⟩, h⟩)
            | throws h hfirst =>
                refine .throws (fun hall => h (List.forall_mem_cons.mp hall).2) ?_
                intro symbol h'
                rcases listed_cons.mp h' with ⟨-, hname'⟩ | ⟨-, h'⟩
                · exact hname hname'
                · exact hfirst symbol h'

/-! ## The answer -/

theorem answer_eq_success_iff {what : Str} {r : Exec Bool} :
    exchangeInfoAnswer what pair r = .success ↔ r = .ok true := by
  unfold exchangeInfoAnswer
  split <;> simp [FetchError.success]

theorem answer_eq_badSymbol_iff {what : Str} {r : Exec Bool} :
    (exchangeInfoAnswer what pair r).error = .BAD_SYMBOL ↔ r = .ok false := by
  unfold exchangeInfoAnswer
  split <;> simp [FetchError.success]

/-- The filters of a symbol; one whose filters are missing or no array has none. -/
def sentFilters (symbol : JsonTree) : List JsonTree := (filtersOf symbol).getD []

/-- The document lists the pair with these filters. -/
def ListsPair (doc : JsonTree) (pair : Str) (filters : List JsonTree) : Prop :=
  ∃ symbols symbol, symbolsOf doc = some symbols ∧ Listed pair symbols symbol ∧
    sentFilters symbol = filters

/-- Missing filters are read as no filters. -/
theorem readPair_eq (symbol : JsonTree) (out : PairInfo) :
    readPair symbol out = ((readFilters (sentFilters symbol) [] out).1,
      (readFilters (sentFilters symbol) [] out).2.map (fun _ => true)) := by
  unfold readPair sentFilters
  cases filtersOf symbol with
  | none => rfl
  | some filters => rfl

theorem readPair_eq_iff {symbol : JsonTree} {info : PairInfo} :
    readPair symbol out = (info, .ok true) ↔
      FiltersReadable (sentFilters symbol) [] ∧ Shows (sentFilters symbol) [] out info := by
  rw [readPair_eq]
  constructor
  · intro h
    obtain ⟨rfl, hok⟩ := Prod.mk.inj h
    have hread : (readFilters (sentFilters symbol) [] out).2 = .ok () := by
      cases hr : (readFilters (sentFilters symbol) [] out).2 with
      | error stop =>
          rw [hr] at hok
          cases hok
      | ok u => rfl
    have hreadable := readFilters_ok_iff.mp hread
    exact ⟨hreadable, readFilters_shows out hreadable⟩
  · rintro ⟨hreadable, hshows⟩
    rw [readFilters_ok_iff.mpr hreadable, (readFilters_shows out hreadable).unique hshows]
    rfl

theorem readPair_ne_false {symbol : JsonTree} : (readPair symbol out).2 ≠ .ok false := by
  rw [readPair_eq]
  cases (readFilters _ [] out).2 <;> simp [Except.map]

theorem findPair_eq_found_iff (hpair : pair ≠ []) {info : PairInfo} :
    findPair pair symbols [] out = (info, .ok true) ↔
      ∃ symbol, Listed pair symbols symbol ∧ FiltersReadable (sentFilters symbol) [] ∧
        Shows (sentFilters symbol) [] out info := by
  have hcases := findPair_cases symbols hpair.symm out
  generalize findPair pair symbols [] out = r at hcases ⊢
  cases hcases with
  | @found symbol hlisted =>
      rw [readPair_eq_iff]
      constructor
      · exact fun hread => ⟨symbol, hlisted, hread⟩
      · rintro ⟨symbol', hlisted', hread⟩
        obtain rfl := listed_unique hlisted hlisted'
        exact hread
  | notListed h =>
      refine iff_of_false (fun h => by cases h) ?_
      rintro ⟨symbol, hlisted, -⟩
      exact not_listed_of_notListed h symbol hlisted
  | throws _ hfirst =>
      refine iff_of_false (fun h => by cases h) ?_
      rintro ⟨symbol, hlisted, -⟩
      exact hfirst symbol hlisted

theorem findPair_eq_notListed_iff (hpair : pair ≠ []) :
    (findPair pair symbols [] out).2 = .ok false ↔ NotListed pair symbols := by
  have hcases := findPair_cases symbols hpair.symm out
  generalize findPair pair symbols [] out = r at hcases ⊢
  cases hcases with
  | @found symbol hlisted =>
      exact iff_of_false readPair_ne_false (fun h => not_listed_of_notListed h symbol hlisted)
  | notListed h => exact iff_of_true rfl h
  | throws h _ => exact iff_of_false (fun h => by cases h) h

end Futures

section Main

open Futures

variable {sendRequest : Str → Reply} {what pair : Str} {out : PairInfo}

theorem fetchExchangeInfo_of_document {doc : JsonTree}
    (hdoc : (sendRequest exchangeInfoTarget).document = .ok doc) :
    fetchExchangeInfoForPair sendRequest what pair out =
      (symbolsOf doc).elim (exchangeInfoAnswer what pair (.error .throws), out) (fun symbols =>
        (exchangeInfoAnswer what pair (findPair pair symbols [] out).2,
          (findPair pair symbols [] out).1)) := by
  unfold fetchExchangeInfoForPair
  rw [hdoc]
  dsimp only
  cases symbolsOf doc <;> rfl

theorem fetchExchangeInfo_of_error {err : FetchError}
    (herr : (sendRequest exchangeInfoTarget).document = .error err) :
    fetchExchangeInfoForPair sendRequest what pair out = (err, out) := by
  unfold fetchExchangeInfoForPair
  rw [herr]

theorem fetchExchangeInfo_eq_success_iff (hpair : pair ≠ []) (info : PairInfo) :
    fetchExchangeInfoForPair sendRequest what pair out = (.success, info) ↔
      ∃ doc filters, (sendRequest exchangeInfoTarget).document = .ok doc ∧
        ListsPair doc pair filters ∧ FiltersReadable filters [] ∧ Shows filters [] out info := by
  cases hdoc : (sendRequest exchangeInfoTarget).document with
  | error err =>
      rw [fetchExchangeInfo_of_error hdoc]
      refine iff_of_false (fun h => ?_) (fun ⟨_, _, h, _⟩ => by cases h)
      have herr : err.error = .SUCCESS := congrArg FetchError.error (Prod.mk.inj h).1
      exact document_error hdoc herr
  | ok doc =>
      rw [fetchExchangeInfo_of_document hdoc]
      unfold ListsPair
      cases hsymbols : symbolsOf doc with
      | none =>
          have hne : exchangeInfoAnswer what pair (.error .throws) ≠ .success := by
            rw [Ne, answer_eq_success_iff]
            simp
          refine iff_of_false (fun h => hne (Prod.mk.inj h).1) ?_
          rintro ⟨_, _, heq, ⟨_, _, h, _⟩, _⟩
          obtain rfl := Except.ok.inj heq
          cases hsymbols.symm.trans h
      | some symbols =>
          rw [Option.elim_some, Prod.mk.injEq, answer_eq_success_iff, and_comm, ← Prod.mk.injEq,
            findPair_eq_found_iff hpair]
          constructor
          · rintro ⟨symbol, hlisted, hread⟩
            exact ⟨doc, _, rfl, ⟨symbols, symbol, hsymbols, hlisted, rfl⟩, hread⟩
          · rintro ⟨_, _, heq, ⟨_, symbol, hsymbols', hlisted, rfl⟩, hread⟩
            obtain rfl := Except.ok.inj heq
            obtain rfl := Option.some.inj (hsymbols.symm.trans hsymbols')
            exact ⟨symbol, hlisted, hread⟩

/-- **What `fetchExchangeInfoForPair` answers**: the values in the filters of the first symbol of
that name, when everything before and in them can be read, and BAD_SYMBOL when there is none. A
symbol whose filters are missing is answered with SUCCESS and `out` as it was. -/
theorem exchangeInfo_answers (hpair : pair ≠ []) :
    (∀ info, fetchExchangeInfoForPair sendRequest what pair out = (.success, info) ↔
      ∃ doc filters, (sendRequest exchangeInfoTarget).document = .ok doc ∧
        ListsPair doc pair filters ∧ FiltersReadable filters [] ∧ Shows filters [] out info) ∧
    ∀ doc, (sendRequest exchangeInfoTarget).document = .ok doc →
      ((fetchExchangeInfoForPair sendRequest what pair out).1.error = .BAD_SYMBOL ↔
        ∃ symbols, symbolsOf doc = some symbols ∧ NotListed pair symbols) := by
  refine ⟨fetchExchangeInfo_eq_success_iff hpair, fun doc hdoc => ?_⟩
  rw [fetchExchangeInfo_of_document hdoc]
  cases symbolsOf doc with
  | none =>
      refine iff_of_false ?_ (fun ⟨_, h, _⟩ => by cases h)
      rw [Option.elim_none, answer_eq_badSymbol_iff]
      simp
  | some symbols =>
      rw [Option.elim_some, answer_eq_badSymbol_iff, findPair_eq_notListed_iff hpair]
      constructor
      · exact fun h => ⟨symbols, rfl, h⟩
      · rintro ⟨_, heq, h⟩
        obtain rfl := Option.some.inj heq
        exact h

def priceFilter : JsonTree :=
  .obj [("filterType".toList, .str PRICE_FILTER), ("maxPrice".toList, .str "300".toList),
    ("minPrice".toList, .str "0.0001".toList), ("tickSize".toList, .str "0.0001".toList)]

/-- Two symbols, of which the second is "B". -/
def twoSymbols : JsonTree :=
  .obj [("symbols".toList, .arr [.obj [("symbol".toList, .str "A".toList)],
    .obj [("symbol".toList, .str "B".toList), ("filters".toList, .arr [priceFilter])]])]

def twoSymbolsReply : Reply := ⟨.SUCCESS, 200, [], .iterated twoSymbols⟩

theorem exchangeInfo_answers_twoSymbols :
    ∃ doc filters, twoSymbolsReply.document = .ok doc ∧ ListsPair doc "B".toList filters ∧
      FiltersReadable filters [] ∧ Shows filters [] ⟨0, 0, 0, 0, 0, 0, 0⟩
        ⟨0, 30000000000, 10000, 10000, 0, 0, 0⟩ := by
  have hpair : "B".toList ≠ [] := by decide
  have hcall : fetchExchangeInfoForPair (fun _ => twoSymbolsReply) [] "B".toList
      ⟨0, 0, 0, 0, 0, 0, 0⟩ = (.success, ⟨0, 30000000000, 10000, 10000, 0, 0, 0⟩) := by
    decide +kernel
  exact ((exchangeInfo_answers hpair).1 _).mp hcall

end Main

end AstraConnect.Api
