import AstraConnect.Api.ExchangeInfo
import AstraConnect.Orderbook.Orderbook

set_option autoImplicit false

/-! # Loading the tick size (`api/orderbook/orderbook.hpp`)

`loadTickSize` asks for the parameters of the pair, whose name the exchange writes in upper case,
and gives its tick size to both books. The update thread is modelled with the tick size that the
exchange's answer comes to; here that answer is read off the document, and the two models take the
books to the same place (`loadTickSize_loads`).
-/

namespace AstraConnect.Orderbook

open Transition FieldReading
open AstraConnect.Api (APIError FetchError PairInfo PairField Reply)
open AstraConnect.Api.Futures
open AstraConnect.Order (Str)

/-- `std::toupper` of each character -/
def upperCase (pair : Str) : Str := pair.map Char.toUpper

/-- `PairInfo info{}` -/
def emptyInfo : PairInfo := ⟨0, 0, 0, 0, 0, 0, 0⟩

def loadTickSize (sendRequest : Str → Reply) (what pair : Str) (bidBook : SortedBook true)
    (askBook : SortedBook false) : FetchError × SortedBook true × SortedBook false :=
  let symbol := upperCase pair
  let (error, info) := fetchExchangeInfoForPair sendRequest what symbol emptyInfo
  if error.getError then (error, bidBook, askBook)
  else if info.tickSize ≤ 0 then
    (⟨.BAD_FIELD, some ("Exchange info has no tick size for ".toList ++ symbol)⟩, bidBook, askBook)
  else (.success, bidBook.setTickSize info.tickSize, askBook.setTickSize info.tickSize)

/-- What the update thread is told. -/
def exchangeInfoReply (sendRequest : Str → Reply) (what pair : Str) : Option Int :=
  let (error, info) := fetchExchangeInfoForPair sendRequest what (upperCase pair) emptyInfo
  if error.getError then none else some info.tickSize

/-- The tick size of the last price filter of the pair, in an answer that can be read. -/
def TickSent (reply : Reply) (symbol : Str) (tickSize : Int) : Prop :=
  ∃ doc filters field, reply.document = .ok doc ∧ ListsPair doc symbol filters ∧
    FiltersReadable filters [] ∧
    lastKeyed Api.PRICE_FILTER (keyed typeOf [] filters) = some field ∧
    Reads field .tickSize tickSize

variable {sendRequest : Str → Reply} {what pair : Str}

theorem getError_eq_false_iff {error : FetchError} :
    error.getError = false ↔ error.error = .SUCCESS := by
  rw [FetchError.getError, decide_eq_false_iff_not, not_not]

theorem upperCase_ne_nil (hpair : pair ≠ []) : upperCase pair ≠ [] := by
  rw [upperCase, Ne, List.map_eq_nil_iff]
  exact hpair

/-- The fetch returns SUCCESS and its values, or an error. -/
theorem fetchExchangeInfo_error (out : PairInfo)
    (h : (fetchExchangeInfoForPair sendRequest what pair out).1.getError = false) :
    (fetchExchangeInfoForPair sendRequest what pair out).1 = .success := by
  have herror := getError_eq_false_iff.mp h
  cases hdoc : (sendRequest exchangeInfoTarget).document with
  | error err =>
      rw [Api.fetchExchangeInfo_of_error hdoc] at herror
      exact absurd herror (Api.document_error hdoc)
  | ok doc =>
      rw [Api.fetchExchangeInfo_of_document hdoc] at herror ⊢
      cases hsymbols : symbolsOf doc with
      | none =>
          rw [hsymbols] at herror
          cases herror
      | some symbols =>
          rw [hsymbols, Option.elim_some] at herror
          dsimp only [Option.elim_some] at herror ⊢
          unfold exchangeInfoAnswer at herror ⊢
          split at herror
          · cases herror
          · rfl
          · cases herror

/-- A positive tick size is one that the exchange has sent. -/
theorem tickSent_iff (what : Str) {symbol : Str} (hsymbol : symbol ≠ []) {tickSize : Int}
    (hpos : 0 < tickSize) :
    TickSent (sendRequest exchangeInfoTarget) symbol tickSize ↔
      ∃ info, fetchExchangeInfoForPair sendRequest what symbol emptyInfo = (.success, info) ∧
        info.tickSize = tickSize := by
  have hname : PairField.filterType .tickSize = Api.PRICE_FILTER := rfl
  constructor
  · rintro ⟨doc, filters, field, hdoc, hlists, hreadable, hlast, hread⟩
    have hshows := readFilters_shows emptyInfo hreadable
    refine ⟨_, (Api.fetchExchangeInfo_eq_success_iff hsymbol _).mpr
      ⟨doc, filters, hdoc, hlists, hreadable, hshows⟩, ?_⟩
    have htick := hshows .tickSize
    rw [hname, hlast] at htick
    exact Except.ok.inj (htick.symm.trans hread)
  · rintro ⟨info, hfetch, rfl⟩
    obtain ⟨doc, filters, hdoc, hlists, hreadable, hshows⟩ :=
      (Api.fetchExchangeInfo_eq_success_iff hsymbol _).mp hfetch
    have htick := hshows .tickSize
    rw [hname] at htick
    cases hlast : lastKeyed Api.PRICE_FILTER (keyed typeOf [] filters) with
    | some field =>
        rw [hlast] at htick
        exact ⟨doc, filters, field, hdoc, hlists, hreadable, hlast, htick⟩
    | none =>
        -- without a price filter the tick size stays 0
        rw [hlast] at htick
        have hzero : info.tickSize = 0 := htick
        omega

variable {σ : State}

/-- **The tick size of both books is the one that the exchange has sent**, in upper case letters;
without one that is positive the books stay as they are, and the book stops. -/
theorem loadTickSize_loads (hpair : pair ≠ []) (hpc : σ.pc = .loadTickSize) :
    (∀ tickSize, TickSent (sendRequest exchangeInfoTarget) (upperCase pair) tickSize →
      0 < tickSize →
      loadTickSize sendRequest what pair σ.bidBook σ.askBook =
          (.success, σ.bidBook.setTickSize tickSize, σ.askBook.setTickSize tickSize) ∧
        runFrom step σ [.exchangeInfo (exchangeInfoReply sendRequest what pair), .thread] =
          some { σ with
            bidBook := σ.bidBook.setTickSize tickSize
            askBook := σ.askBook.setTickSize tickSize
            pc := .waiting .start }) ∧
    ((∀ tickSize, TickSent (sendRequest exchangeInfoTarget) (upperCase pair) tickSize →
        tickSize ≤ 0) →
      (loadTickSize sendRequest what pair σ.bidBook σ.askBook).1.getError = true ∧
        (loadTickSize sendRequest what pair σ.bidBook σ.askBook).2 = (σ.bidBook, σ.askBook) ∧
        ∃ err, step σ (.exchangeInfo (exchangeInfoReply sendRequest what pair)) =
          some (σ.stop err .exit)) := by
  have hsymbol := upperCase_ne_nil hpair
  have hnoError : FetchError.success.getError = false := rfl
  constructor
  · intro tickSize hsent hpos
    obtain ⟨info, hfetch, rfl⟩ := (tickSent_iff what hsymbol hpos).mp hsent
    have hpos' : ¬ info.tickSize ≤ 0 := not_le.mpr hpos
    have hload : loadTickSize sendRequest what pair σ.bidBook σ.askBook =
        (.success, σ.bidBook.setTickSize info.tickSize, σ.askBook.setTickSize info.tickSize) := by
      unfold loadTickSize
      dsimp only
      rw [hfetch, if_neg (by rw [hnoError]; simp)]
      exact if_neg hpos'
    have hreply : exchangeInfoReply sendRequest what pair = some info.tickSize := by
      unfold exchangeInfoReply
      rw [hfetch]
      exact if_neg (by rw [hnoError]; simp)
    refine ⟨hload, ?_⟩
    rw [hreply]
    simp [runFrom, step, hpc, State.tickSizeReply, State.threadStep, hpos']
  · intro hnone
    have hstep : ∀ reply, step σ (.exchangeInfo reply) = some (σ.tickSizeReply reply) := by
      intro reply
      simp [step, hpc]
    rcases hfetch : fetchExchangeInfoForPair sendRequest what (upperCase pair) emptyInfo with
      ⟨error, info⟩
    cases herror : error.getError with
    | true =>
        have hload : loadTickSize sendRequest what pair σ.bidBook σ.askBook =
            (error, σ.bidBook, σ.askBook) := by
          unfold loadTickSize
          dsimp only
          rw [hfetch, if_pos herror]
        have hreply : exchangeInfoReply sendRequest what pair = none := by
          unfold exchangeInfoReply
          rw [hfetch]
          exact if_pos herror
        rw [hload, hreply]
        exact ⟨herror, rfl, .FETCH_FAILED, hstep none⟩
    | false =>
        have hsuccess : (error, info).1 = .success := by
          rw [← hfetch]
          exact fetchExchangeInfo_error emptyInfo (by rw [hfetch]; exact herror)
        obtain rfl : error = .success := hsuccess
        have hle : info.tickSize ≤ 0 := by
          by_contra hpos
          have hpos' : 0 < info.tickSize := not_le.mp hpos
          exact hpos (hnone _ ((tickSent_iff what hsymbol hpos').mpr ⟨info, hfetch, rfl⟩))
        have hload : loadTickSize sendRequest what pair σ.bidBook σ.askBook =
            (⟨.BAD_FIELD, some ("Exchange info has no tick size for ".toList ++ upperCase pair)⟩,
              σ.bidBook, σ.askBook) := by
          unfold loadTickSize
          dsimp only
          rw [hfetch, if_neg (by rw [hnoError]; simp), if_pos hle]
        have hreply : exchangeInfoReply sendRequest what pair = some info.tickSize := by
          unfold exchangeInfoReply
          rw [hfetch]
          exact if_neg (by rw [hnoError]; simp)
        rw [hload, hreply]
        refine ⟨rfl, rfl, .BAD_FIELD, ?_⟩
        rw [hstep, State.tickSizeReply, if_pos hle]

def sendTwoSymbols (_ : Str) : Reply := Api.twoSymbolsReply

theorem loadTickSize_loads_twoSymbols :
    ∃ s : State, runFrom step (construct (fun _ _ _ => 0) 0)
        [.exchangeInfo (exchangeInfoReply sendTwoSymbols [] "b".toList), .thread]
          = some s ∧
      s.bidBook.tickSize = 10000 ∧ s.askBook.tickSize = 10000 := by
  have hsent : TickSent (sendTwoSymbols exchangeInfoTarget) (upperCase "b".toList) 10000 := by
    have hcall : fetchExchangeInfoForPair sendTwoSymbols [] (upperCase "b".toList)
        emptyInfo = (.success, ⟨0, 30000000000, 10000, 10000, 0, 0, 0⟩) := by
      decide +kernel
    exact (tickSent_iff [] (by decide) (by decide)).mpr ⟨_, hcall, rfl⟩
  have hpair : "b".toList ≠ [] := by decide
  have hpc : (construct (fun _ _ _ => 0) 0).pc = .loadTickSize := rfl
  obtain ⟨-, hrun⟩ := (loadTickSize_loads hpair hpc).1 10000 hsent (by decide)
  exact ⟨_, hrun, rfl, rfl⟩

end AstraConnect.Orderbook
