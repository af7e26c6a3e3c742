import AstraConnect.Lib.Transition

set_option autoImplicit false

/-! # Requests over one connection (`core/streams/streamHolder.hpp`)

`StreamHolder` keeps one TLS stream and makes a fresh one for every connection try; the stream
objects are numbered in the order they are made. `connectionStatus` is SUCCESS only while the
current stream can carry another exchange, so every exchange runs on a stream that came up, on
which no exchange failed and no response asked to close. The outcomes of the network calls are
given with each call.
-/

namespace AstraConnect.Core

open Transition

/-- `ConnectionStatus` (`core/types/status.hpp`). -/
inductive ConnectionStatus where
  | SUCCESS
  | FAIL
  | CLOSED
  deriving DecidableEq, Repr

/-- `beast::error_code`; 0 is no error. -/
abbrev ErrorCode := Int

/-- `net::error::not_connected`. -/
def not_connected : ErrorCode := 107

/-- `BackoffPolicy` (`utils/net/exponentialBackOff.hpp`). -/
structure BackoffPolicy where
  delay : Int
  increasePerTry : Int
  maxTryCount : Nat
  deriving DecidableEq, Repr

namespace BackoffPolicy

/-- The policy of a holder that is not given one. -/
def standard : BackoffPolicy := ⟨500, 2, 7⟩

def maxDelay (p : BackoffPolicy) : Int := p.delay * p.increasePerTry ^ p.maxTryCount

/-- The interval after a failed try that followed the interval `backoff`; `none` when the
schedule is exhausted. -/
def nextInterval (p : BackoffPolicy) (backoff : Int) : Option Int :=
  if p.maxDelay ≤ backoff * p.increasePerTry then none else some (backoff * p.increasePerTry)

end BackoffPolicy

/-- How one connection try goes. -/
structure ConnectOutcome where
  resolve : ErrorCode
  connect : ErrorCode
  /-- `SSL_set_tlsext_host_name` succeeds -/
  sni : Bool
  handshake : ErrorCode
  deriving DecidableEq, Repr

/-- How one write and read go. -/
structure ExchangeOutcome where
  write : ErrorCode
  read : ErrorCode
  httpStatus : Int
  body : List Char
  keepAlive : Bool
  /-- bytes that `http::read` leaves in `buffer` -/
  left : Nat
  deriving DecidableEq, Repr

def ExchangeOutcome.Succeeded (e : ExchangeOutcome) : Prop := e.write = 0 ∧ e.read = 0

/-- `StreamData` (`core/types/status.hpp`). -/
structure StreamData where
  status : ConnectionStatus
  string : List Char
  httpStatus : Int
  ec : ErrorCode
  deriving DecidableEq, Repr

/-- A default constructed `StreamData`. -/
def StreamData.empty : StreamData := ⟨.FAIL, [], 0, 0⟩

/-- What a holder does on the network. -/
inductive Event where
  /-- a connection try on a new stream object -/
  | attempt (stream : Nat) (o : ConnectOutcome)
  /-- a write and read, with so many bytes in `buffer` at its start -/
  | exchange (stream buffered : Nat) (e : ExchangeOutcome)
  deriving DecidableEq, Repr

structure StreamHolder where
  /-- the number of the current stream object; 0 is the null pointer -/
  stream : Nat
  /-- the number of bytes in `buffer` -/
  buffer : Nat
  connectionStatus : ConnectionStatus
  backoffPolicy : BackoffPolicy
  /-- history variable -/
  log : List Event
  deriving DecidableEq, Repr

/-- What `establishConnection` returns. -/
def ConnectOutcome.status (o : ConnectOutcome) : ConnectionStatus :=
  if o.resolve ≠ 0 then .FAIL
  else if o.connect ≠ 0 then .FAIL
  else if !o.sni then .FAIL
  else if o.handshake ≠ 0 then .FAIL
  else .SUCCESS

/-- The outcomes a request can meet: those of the connection tries up front and after a failed
exchange, and those of the two exchanges. -/
structure RequestOutcomes where
  upFront : ConnectOutcome
  first : ExchangeOutcome
  again : ConnectOutcome
  second : ExchangeOutcome
  deriving DecidableEq, Repr

namespace StreamHolder

/-- Establishes a connection to the main host on a fresh stream. -/
def establishConnection (s : StreamHolder) (o : ConnectOutcome) : StreamHolder × ConnectionStatus :=
  ({ s with
      stream := s.stream + 1
      buffer := 0
      log := s.log ++ [.attempt (s.stream + 1) o] }, o.status)

/-- `connectionStatus = establishConnection(host)`. -/
def reconnect (s : StreamHolder) (o : ConnectOutcome) : StreamHolder :=
  { (s.establishConnection o).1 with connectionStatus := (s.establishConnection o).2 }

/-- One write and read on the current connection. Fills `data` on success. -/
def exchange (s : StreamHolder) (data : StreamData) (e : ExchangeOutcome) :
    StreamHolder × StreamData × ErrorCode :=
  let started := { s with log := s.log ++ [.exchange s.stream s.buffer e] }
  if e.write ≠ 0 then (started, data, e.write)
  else if e.read ≠ 0 then ({ started with buffer := e.left }, data, e.read)
  else
    -- the server may close after this response; reconnect up front next time
    ({ started with
        buffer := e.left
        connectionStatus := if e.keepAlive then s.connectionStatus else .FAIL },
      { data with httpStatus := e.httpStatus, string := e.body }, 0)

/-- The end of `perform`, after a first exchange that failed with `ec` or was not made. -/
def retry (s : StreamHolder) (data : StreamData) (ec : ErrorCode) (o : RequestOutcomes) :
    StreamHolder × StreamData :=
  let connected := s.reconnect o.again
  if connected.connectionStatus ≠ .SUCCESS then
    (connected, { data with ec := if ec ≠ 0 then ec else not_connected })
  else
    match connected.exchange .empty o.second with
    | (done, data, ec) =>
        if ec ≠ 0 then
          ({ done with buffer := 0, connectionStatus := .FAIL }, { data with ec := ec })
        else (done, { data with status := .SUCCESS })

/-- The start of `perform`: a reconnect if the last request broke the connection. -/
def ready (s : StreamHolder) (o : ConnectOutcome) : StreamHolder :=
  if s.connectionStatus ≠ .SUCCESS then s.reconnect o else s

/-- Sends a request on a connection that is ready for it; a failed exchange gets one reconnect and
one retry. -/
def perform (s : StreamHolder) (o : RequestOutcomes) : StreamHolder × StreamData :=
  if (s.ready o.upFront).connectionStatus = .SUCCESS then
    match (s.ready o.upFront).exchange .empty o.first with
    | (done, data, ec) =>
        if ec = 0 then (done, { data with status := .SUCCESS })
        else retry { done with buffer := 0 } data ec o
  else retry (s.ready o.upFront) .empty 0 o

/-- Both overloads of `sendRequest` differ in the request they make only. -/
def sendRequest (s : StreamHolder) (o : RequestOutcomes) : StreamHolder × StreamData := s.perform o

end StreamHolder

/-! ## The calls on a holder -/

/-- A holder, and the interval that a running `exponentialBackOff` sleeps. -/
structure HolderState where
  holder : StreamHolder
  backoff : Option Int
  deriving DecidableEq, Repr

inductive HolderAct where
  | sendRequest (o : RequestOutcomes)
  | retryConnection (isExponentialBackoff : Bool) (o : ConnectOutcome)
  /-- the next try of a running `exponentialBackOff` -/
  | tryAgain (o : ConnectOutcome)
  deriving DecidableEq, Repr

namespace HolderState

/-- A try, after which a failure is left to `exponentialBackOff` or not. -/
def tryFirst (s : StreamHolder) (isExponentialBackoff : Bool) (o : ConnectOutcome) : HolderState :=
  ⟨s.reconnect o,
    if isExponentialBackoff ∧ o.status ≠ .SUCCESS then some s.backoffPolicy.delay else none⟩

/-- The constructor up to its backoff. -/
def construct (policy : BackoffPolicy) (o : ConnectOutcome) : HolderState :=
  tryFirst ⟨0, 0, .FAIL, policy, []⟩ true o

/-- The calls are serialised by the holder's lock; a backoff runs inside one of them. -/
def step (s : HolderState) : HolderAct → Option HolderState
  | .sendRequest o => if s.backoff = none then some ⟨(s.holder.sendRequest o).1, none⟩ else none
  | .retryConnection isExponentialBackoff o =>
      if s.backoff = none then some (tryFirst s.holder isExponentialBackoff o) else none
  | .tryAgain o =>
      s.backoff.map (fun backoff =>
        ⟨s.holder.reconnect o,
          if o.status = .SUCCESS then none else s.holder.backoffPolicy.nextInterval backoff⟩)

end HolderState

/-! ## What a log says

The log has every connection try and every exchange, with the stream object it was made on. That a
stream is usable is read off the log, and `Trusted` connects it with `connectionStatus`. -/

def Event.exchanged : Event → Option ExchangeOutcome
  | .attempt _ _ => none
  | .exchange _ _ e => some e

/-- The stream object of a connection try. -/
def Event.attempted : Event → Option Nat
  | .attempt stream _ => some stream
  | .exchange _ _ _ => none

def Event.streamOf : Event → Nat
  | .attempt stream _ => stream
  | .exchange stream _ _ => stream

/-- The stream came up, no exchange on it failed, and no response on it asked to close. -/
def Usable (log : List Event) (stream : Nat) : Prop :=
  (∃ o, .attempt stream o ∈ log ∧ o.status = .SUCCESS) ∧
    ∀ n e, .exchange stream n e ∈ log → e.Succeeded ∧ e.keepAlive = true

/-- What an exchange on `stream` relies on, with `n` bytes in `buffer`: bytes are left over from
the same stream only. -/
def Starts (log : List Event) (stream n : Nat) : Prop :=
  Usable log stream ∧ (0 < n → ∃ m e, .exchange stream m e ∈ log)

/-- Every exchange of the log runs on a stream that was usable when it started. -/
def WellRun (log : List Event) : Prop :=
  ∀ before after stream n e, log = before ++ .exchange stream n e :: after → Starts before stream n

theorem wellRun_append {log : List Event} {ev : Event} (h : WellRun log)
    (hev : ∀ stream n e, ev = .exchange stream n e → Starts log stream n) :
    WellRun (log ++ [ev]) := by
  intro before after stream n e heq
  rcases List.eq_nil_or_concat after with rfl | ⟨front, last, rfl⟩
  · obtain ⟨rfl, hlast⟩ := List.append_inj' heq rfl
    exact hev stream n e (List.singleton_inj.mp hlast)
  · -- the exchange lies in the part before `ev`
    rw [List.concat_eq_append, ← List.cons_append, ← List.append_assoc] at heq
    exact h before front stream n e (List.append_inj' heq rfl).1

/-- What is known of the past of a holder at every point of its code. -/
structure Logged (s : StreamHolder) : Prop where
  wellRun : WellRun s.log
  /-- the stream objects of the log have been made -/
  made : ∀ ev ∈ s.log, ev.streamOf ≤ s.stream
  /-- bytes in `buffer` come from an exchange on the current stream -/
  buffered : 0 < s.buffer → ∃ n e, .exchange s.stream n e ∈ s.log
  /-- no stream object is connected twice -/
  fresh : (s.log.filterMap Event.attempted).Nodup

/-- What `connectionStatus` means between two steps of the code. -/
def Trusted (s : StreamHolder) : Prop := s.connectionStatus = .SUCCESS → Usable s.log s.stream

section holder

variable {s : StreamHolder}

/-- A new stream object has no past, so the status of its connection try is all there is. -/
theorem reconnect_spec (h : Logged s) (o : ConnectOutcome) :
    Logged (s.reconnect o) ∧ Trusted (s.reconnect o) := by
  refine ⟨⟨wellRun_append h.wellRun (fun _ _ _ he => by cases he), ?_, ?_, ?_⟩, ?_⟩
  · intro ev hev
    show ev.streamOf ≤ s.stream + 1
    rcases List.mem_append.mp hev with hev | hev
    · exact (h.made ev hev).trans (Nat.le_succ _)
    · rw [List.mem_singleton.mp hev]
      exact le_refl _
  · intro hpos
    exact absurd hpos (lt_irrefl 0)
  · show ((s.log ++ [Event.attempt (s.stream + 1) o]).filterMap Event.attempted).Nodup
    rw [List.filterMap_append, List.nodup_append]
    refine ⟨h.fresh, List.nodup_singleton _, ?_⟩
    intro i hi j hj hij
    obtain ⟨ev, hev, hi⟩ := List.mem_filterMap.mp hi
    obtain rfl := List.mem_singleton.mp hj
    have hle := h.made ev hev
    cases ev with
    | attempt stream o =>
        obtain rfl := Option.some.inj hi
        have : stream ≤ s.stream := hle
        omega
    | exchange stream n e => cases hi
  · intro hstatus
    refine ⟨⟨o, List.mem_append_right _ (List.mem_singleton_self _), hstatus⟩, ?_⟩
    intro n e hin
    rcases List.mem_append.mp hin with hin | hin
    · have : s.stream + 1 ≤ s.stream := h.made _ hin
      omega
    · cases List.mem_singleton.mp hin

/-- An exchange on a usable stream; the stream stays usable when it succeeds and may be kept. -/
theorem exchange_spec (h : Logged s) (husable : Usable s.log s.stream) (data : StreamData)
    (e : ExchangeOutcome) :
    Logged (s.exchange data e).1 ∧
      ((s.exchange data e).2.2 = 0 → Trusted (s.exchange data e).1) := by
  set ev := Event.exchange s.stream s.buffer e with hev
  have hin : ev ∈ s.log ++ [ev] := List.mem_append_right _ (List.mem_singleton_self _)
  have hwell : WellRun (s.log ++ [ev]) := by
    refine wellRun_append h.wellRun (fun stream n e' he => ?_)
    obtain ⟨rfl, rfl, rfl⟩ := Event.exchange.inj he
    exact ⟨husable, h.buffered⟩
  have hmade : ∀ x ∈ s.log ++ [ev], x.streamOf ≤ s.stream := by
    intro x hx
    rcases List.mem_append.mp hx with hx | hx
    · exact h.made x hx
    · rw [List.mem_singleton.mp hx]
      exact le_refl _
  have hfresh : ((s.log ++ [ev]).filterMap Event.attempted).Nodup := by
    rw [List.filterMap_append]
    show (s.log.filterMap Event.attempted ++ []).Nodup
    rw [List.append_nil]
    exact h.fresh
  -- whatever the exchange leaves in the buffer and the status, the log is well run
  have hlogged : ∀ buffer status, Logged { s with
      log := s.log ++ [ev], buffer := buffer, connectionStatus := status } :=
    fun _ _ => ⟨hwell, hmade, fun _ => ⟨_, _, hin⟩, hfresh⟩
  unfold StreamHolder.exchange
  dsimp only
  split
  · rename_i hwrite
    exact ⟨hlogged _ _, fun hec => absurd hec hwrite⟩
  · split
    · rename_i hread
      exact ⟨hlogged _ _, fun hec => absurd hec hread⟩
    · rename_i hwrite hread
      refine ⟨hlogged _ _, fun _ hstatus => ?_⟩
      -- a success that may not be kept sets the status to FAIL
      have hkeep : e.keepAlive = true := by
        by_contra hno
        change (if e.keepAlive then s.connectionStatus else .FAIL) = ConnectionStatus.SUCCESS
          at hstatus
        rw [if_neg hno] at hstatus
        cases hstatus
      obtain ⟨⟨o, ho, hup⟩, hgood⟩ := husable
      refine ⟨⟨o, List.mem_append_left _ ho, hup⟩, ?_⟩
      intro n e' hin'
      rcases List.mem_append.mp hin' with hin' | hin'
      · exact hgood n e' hin'
      · obtain ⟨_, _, rfl⟩ := Event.exchange.inj (List.mem_singleton.mp hin')
        exact ⟨⟨not_not.mp hwrite, not_not.mp hread⟩, hkeep⟩

theorem Logged.clearBuffer (h : Logged s) : Logged { s with buffer := 0 } :=
  ⟨h.wellRun, h.made, fun hpos => absurd hpos (lt_irrefl 0), h.fresh⟩

theorem retry_spec (h : Logged s) (data : StreamData) (ec : ErrorCode) (o : RequestOutcomes) :
    Logged (s.retry data ec o).1 ∧ Trusted (s.retry data ec o).1 := by
  obtain ⟨hlogged, htrusted⟩ := reconnect_spec h o.again
  unfold StreamHolder.retry
  dsimp only
  split
  · exact ⟨hlogged, htrusted⟩
  · rename_i hup
    obtain ⟨hl, ht⟩ := exchange_spec hlogged (htrusted (not_not.mp hup)) .empty o.second
    split
    · refine ⟨⟨hl.wellRun, hl.made, fun hpos => absurd hpos (lt_irrefl 0), hl.fresh⟩, ?_⟩
      intro hstatus
      cases hstatus
    · rename_i hec
      exact ⟨hl, ht (not_not.mp hec)⟩

/-- **A request keeps the meaning of `connectionStatus`.** -/
theorem perform_spec (h : Logged s) (ht : Trusted s) (o : RequestOutcomes) :
    Logged (s.perform o).1 ∧ Trusted (s.perform o).1 := by
  obtain ⟨hlogged, htrusted⟩ : Logged (s.ready o.upFront) ∧ Trusted (s.ready o.upFront) := by
    unfold StreamHolder.ready
    split
    · exact reconnect_spec h o.upFront
    · exact ⟨h, ht⟩
  unfold StreamHolder.perform
  dsimp only
  split
  · rename_i hup
    obtain ⟨hl, htr⟩ := exchange_spec hlogged (htrusted hup) .empty o.first
    split
    · rename_i hec
      exact ⟨hl, htr hec⟩
    · exact retry_spec hl.clearBuffer _ _ o
  · exact retry_spec hlogged _ _ o

end holder

/-! ## What a request returns

The events that one request adds to the log, counted by kind. The last exchange among them decides
what is returned. -/

/-- The data returned, told from the exchanges made. -/
structure Answers (made : List ExchangeOutcome) (data : StreamData) : Prop where
  status : data.status = .SUCCESS ↔ ∃ e, made.getLast? = some e ∧ e.Succeeded
  filled : ∀ e, data.status = .SUCCESS → made.getLast? = some e →
    data.string = e.body ∧ data.httpStatus = e.httpStatus
  failed : data.status ≠ .SUCCESS → data.string = [] ∧ data.ec ≠ 0

theorem answers_success (made : List ExchangeOutcome) {e : ExchangeOutcome} (ec : ErrorCode)
    (h : e.Succeeded) :
    Answers (made ++ [e]) ⟨.SUCCESS, e.body, e.httpStatus, ec⟩ := by
  refine ⟨iff_of_true rfl ⟨e, List.getLast?_concat, h⟩, ?_, fun hno => absurd rfl hno⟩
  intro e' _ hlast
  rw [List.getLast?_concat] at hlast
  obtain rfl := Option.some.inj hlast
  exact ⟨rfl, rfl⟩

theorem answers_failure {made : List ExchangeOutcome} {ec : ErrorCode} (httpStatus : Int)
    (hmade : ∀ e, made.getLast? = some e → ¬ e.Succeeded) (hec : ec ≠ 0) :
    Answers made ⟨.FAIL, [], httpStatus, ec⟩ := by
  have hno : ConnectionStatus.FAIL ≠ .SUCCESS := by decide
  refine ⟨iff_of_false hno ?_, fun _ hs => absurd hs hno, fun _ => ⟨rfl, hec⟩⟩
  rintro ⟨e, hlast, he⟩
  exact hmade e hlast he

/-- The events of one request: how many tries and exchanges it made, and what it returned. -/
structure Performed (s : StreamHolder) (r : StreamHolder × StreamData) (new : List Event) :
    Prop where
  log : r.1.log = s.log ++ new
  exchanges : (new.filterMap Event.exchanged).length ≤ 2
  attempts : (new.filterMap Event.attempted).length ≤ 2
  answers : Answers (new.filterMap Event.exchanged) r.2

section request

variable (s : StreamHolder)

/-- The two ways an exchange ends. -/
theorem exchange_cases (data : StreamData) (e : ExchangeOutcome) :
    (s.exchange data e).1.log = s.log ++ [.exchange s.stream s.buffer e] ∧
      (((s.exchange data e).2.2 = 0 ∧ e.Succeeded ∧
          (s.exchange data e).2.1 = { data with httpStatus := e.httpStatus, string := e.body }) ∨
        ((s.exchange data e).2.2 ≠ 0 ∧ ¬ e.Succeeded ∧ (s.exchange data e).2.1 = data)) := by
  unfold StreamHolder.exchange
  dsimp only
  split
  · rename_i hwrite
    exact ⟨rfl, Or.inr ⟨hwrite, fun hs => hwrite hs.1, rfl⟩⟩
  · split
    · rename_i hread
      exact ⟨rfl, Or.inr ⟨hread, fun hs => hread hs.2, rfl⟩⟩
    · rename_i hwrite hread
      exact ⟨rfl, Or.inl ⟨rfl, ⟨not_not.mp hwrite, not_not.mp hread⟩, rfl⟩⟩

/-- The end of a request makes one try and at most one exchange; before it no exchange has
succeeded. -/
theorem retry_events (ec : ErrorCode) (o : RequestOutcomes) (prior : List ExchangeOutcome)
    (hprior : ∀ e, prior.getLast? = some e → ¬ e.Succeeded) :
    ∃ new, (s.retry .empty ec o).1.log = s.log ++ new ∧
      (new.filterMap Event.exchanged).length ≤ 1 ∧
      (new.filterMap Event.attempted).length = 1 ∧
      Answers (prior ++ new.filterMap Event.exchanged) (s.retry .empty ec o).2 := by
  unfold StreamHolder.retry
  dsimp only
  split
  · refine ⟨[.attempt (s.stream + 1) o.again], rfl, Nat.zero_le 1, rfl, ?_⟩
    show Answers (prior ++ []) _
    rw [List.append_nil]
    refine answers_failure 0 hprior ?_
    split
    · assumption
    · decide
  · obtain ⟨hlog, hend⟩ := exchange_cases (s.reconnect o.again) .empty o.second
    have hnew : (s.reconnect o.again).log = s.log ++ [.attempt (s.stream + 1) o.again] := rfl
    rw [hnew, List.append_assoc] at hlog
    rcases hend with ⟨hec, hok, hdata⟩ | ⟨hec, hfail, hdata⟩
    · rw [if_neg (not_not.mpr hec), hdata]
      exact ⟨_, hlog, le_refl 1, rfl, answers_success _ 0 hok⟩
    · rw [if_pos hec, hdata]
      refine ⟨_, hlog, le_refl 1, rfl, answers_failure 0 (fun e hlast => ?_) hec⟩
      obtain rfl := Option.some.inj (List.getLast?_concat.symm.trans hlast)
      exact hfail

/-- **A request makes at most two tries and two exchanges**, and returns what its last exchange
gave. -/
theorem perform_events (o : RequestOutcomes) : ∃ new, Performed s (s.perform o) new := by
  -- the connection try up front, if there is one
  obtain ⟨front, hfront, hnone, hone⟩ : ∃ front : List Event,
      (s.ready o.upFront).log = s.log ++ front ∧
        front.filterMap Event.exchanged = [] ∧ (front.filterMap Event.attempted).length ≤ 1 := by
    unfold StreamHolder.ready
    split
    · exact ⟨[.attempt (s.stream + 1) o.upFront], rfl, rfl, le_refl 1⟩
    · exact ⟨[], (List.append_nil _).symm, rfl, Nat.zero_le 1⟩
  unfold StreamHolder.perform
  dsimp only
  set ready := s.ready o.upFront
  split
  · obtain ⟨hlog, hend⟩ := exchange_cases ready .empty o.first
    rw [hfront, List.append_assoc] at hlog
    rcases hend with ⟨hec, hok, hdata⟩ | ⟨hec, hfail, hdata⟩
    · rw [if_pos hec, hdata]
      refine ⟨_, hlog, ?_, ?_, ?_⟩
      · rw [List.filterMap_append, hnone]
        exact Nat.le_succ 1
      · rw [List.filterMap_append]
        show (_ ++ []).length ≤ 2
        rw [List.append_nil]
        omega
      · rw [List.filterMap_append, hnone]
        exact answers_success [] 0 hok
    · rw [if_neg hec, hdata]
      obtain ⟨new, hnew, hex, hat, hans⟩ := retry_events
        { (ready.exchange .empty o.first).1 with buffer := 0 } (ready.exchange .empty o.first).2.2 o
        [o.first] (fun e hlast => by
          obtain rfl := Option.some.inj hlast
          exact hfail)
      have hall : (front ++ [Event.exchange ready.stream ready.buffer o.first] ++ new).filterMap
          Event.exchanged = [o.first] ++ new.filterMap Event.exchanged := by
        rw [List.filterMap_append, List.filterMap_append, hnone]
        rfl
      refine ⟨front ++ [.exchange ready.stream ready.buffer o.first] ++ new, ?_, ?_, ?_, ?_⟩
      · rw [hnew]
        show (ready.exchange .empty o.first).1.log ++ new = _
        rw [hlog, List.append_assoc, List.append_assoc]
      · rw [hall, List.length_append, List.length_singleton]
        omega
      · rw [List.filterMap_append, List.filterMap_append, List.length_append]
        show (_ ++ []).length + _ ≤ 2
        rw [List.append_nil]
        omega
      · rw [hall]
        exact hans
  · obtain ⟨new, hnew, hex, hat, hans⟩ := retry_events ready 0 o []
      (fun e hlast => by cases hlast)
    refine ⟨front ++ new, ?_, ?_, ?_, ?_⟩
    · rw [hnew, hfront, List.append_assoc]
    · rw [List.filterMap_append, hnone, List.nil_append]
      omega
    · rw [List.filterMap_append, List.length_append]
      omega
    · rw [List.filterMap_append, hnone]
      exact hans

end request

/-! ## Whole runs -/

theorem logged_construct (policy : BackoffPolicy) (o : ConnectOutcome) :
    Logged (HolderState.construct policy o).holder ∧
      Trusted (HolderState.construct policy o).holder := by
  have hnew : Logged ⟨0, 0, .FAIL, policy, []⟩ := by
    refine ⟨?_, ?_, ?_, List.nodup_nil⟩
    · intro before after stream n e hnil
      simp at hnil
    · intro ev hin
      cases hin
    · intro hpos
      exact absurd hpos (lt_irrefl 0)
  exact reconnect_spec hnew o

theorem logged_step {s s' : HolderState} {a : HolderAct} (h : Logged s.holder)
    (ht : Trusted s.holder) (hs : s.step a = some s') : Logged s'.holder ∧ Trusted s'.holder := by
  cases a with
  | sendRequest o =>
      obtain ⟨_, hs⟩ := Option.ite_none_right_eq_some.mp hs
      obtain rfl := Option.some.inj hs
      exact perform_spec h ht o
  | retryConnection isExponentialBackoff o =>
      obtain ⟨_, hs⟩ := Option.ite_none_right_eq_some.mp hs
      obtain rfl := Option.some.inj hs
      exact reconnect_spec h o
  | tryAgain o =>
      obtain ⟨backoff, _, rfl⟩ := Option.map_eq_some_iff.mp hs
      exact reconnect_spec h o

/-- **A holder never talks over a broken connection and retries at most once.** In every run of
calls after the construction, with any outcomes of the network calls: every exchange runs on a
stream that came up, on which no earlier exchange failed and no earlier response asked to close,
with no bytes of another stream in the buffer; no stream object is connected twice; and a request
makes at most two exchanges and at most two connection tries, reports SUCCESS exactly when its
last exchange succeeded, with the data of that exchange alone, and otherwise returns no text and
an error code. -/
theorem requests_on_usable_streams {policy : BackoffPolicy} {o : ConnectOutcome} {s : HolderState}
    (h : Reach HolderState.step (fun _ _ => True) (.construct policy o) s) :
    WellRun s.holder.log ∧ (s.holder.log.filterMap Event.attempted).Nodup ∧
      ∀ outcomes, ∃ new, Performed s.holder (s.holder.sendRequest outcomes) new := by
  have hinv : Logged s.holder ∧ Trusted s.holder :=
    h.invariant (I := fun s => Logged s.holder ∧ Trusted s.holder) (logged_construct policy o)
      (fun _ _ _ hi _ hs => logged_step hi.1 hi.2 hs)
  exact ⟨hinv.1.wellRun, hinv.1.fresh, perform_events s.holder⟩

/-- The first write fails, and the request is made again on a new stream. -/
theorem requests_on_usable_streams_retried :
    let up : ConnectOutcome := ⟨0, 0, true, 0⟩
    let lost : ExchangeOutcome := ⟨32, 0, 0, [], true, 0⟩
    let answered : ExchangeOutcome := ⟨0, 0, 200, ['a'], true, 0⟩
    let log : List Event :=
      [.attempt 1 up, .exchange 1 0 lost, .attempt 2 up, .exchange 2 0 answered]
    WellRun log ∧ (log.filterMap Event.attempted).Nodup := by
  intro up lost answered log
  have hrun : runFrom HolderState.step (.construct .standard up)
      [.sendRequest ⟨up, lost, up, answered⟩] =
        some ⟨⟨2, 0, .SUCCESS, .standard, log⟩, none⟩ := by decide
  have hlog := requests_on_usable_streams (Reach.of_run .refl hrun)
  exact ⟨hlog.1, hlog.2.1⟩

end AstraConnect.Core
