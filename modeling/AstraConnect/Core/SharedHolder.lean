import AstraConnect.Core.StreamHolder
import AstraConnect.AstraLib.Spinlock

set_option autoImplicit false

/-! # One connection for several threads (`core/streams/streamHolder.hpp`)

`sendRequest` and `retryConnection` have the lock of the holder from their first statement to their
last, a backoff included. Here every network call inside is a step of its own, which ends as it
likes, and the steps of the threads that call come in any order; a thread that finds the lock taken
spins on it.

All the same the calls are done one after the other, as `StreamHolder.lean` has them
(`shared_holder_serialised`), and the requests that succeed return the responses that were read,
each to the request that was written just before on the same stream (`shared_holder_own_response`).
-/

namespace AstraConnect.Core.Shared

open Transition CriticalSection AstraLib

/-! ## The network calls

`establishConnection` goes through five stages and `exchange` through two; the model of one caller
has each of the two functions as one event. `Answer` holds whatever any of these calls can give
back. -/

/-- A network call and how it ends. `Q` are the requests. -/
inductive NetCall (Q : Type) where
  | resolve (stream : Nat) (ec : ErrorCode)
  | connect (stream : Nat) (ec : ErrorCode)
  /-- `SSL_set_tlsext_host_name` -/
  | sni (stream : Nat) (ok : Bool)
  | handshake (stream : Nat) (ec : ErrorCode)
  | write (stream : Nat) (req : Q) (ec : ErrorCode)
  /-- with so many bytes in `buffer` at its start -/
  | read (stream buffered : Nat) (ec : ErrorCode) (httpStatus : Int) (body : List Char)
      (keepAlive : Bool) (left : Nat)
  deriving DecidableEq, Repr

/-- The call without its request. -/
def NetCall.erase {Q : Type} : NetCall Q → NetCall Unit
  | resolve stream ec => .resolve stream ec
  | connect stream ec => .connect stream ec
  | sni stream ok => .sni stream ok
  | handshake stream ec => .handshake stream ec
  | write stream _ ec => .write stream () ec
  | read stream buffered ec httpStatus body keepAlive left =>
      .read stream buffered ec httpStatus body keepAlive left

/-- How a network call ends; each takes from it what it gives. -/
structure Answer where
  ec : ErrorCode
  httpStatus : Int
  body : List Char
  keepAlive : Bool
  left : Nat
  deriving DecidableEq, Repr

inductive ConnectStage where
  /-- the old stream is closed, and `stream` a new one -/
  | renew
  | resolve
  | connect
  | sni
  | handshake
  deriving DecidableEq, Repr

inductive ExchangeStage where
  | write
  | read
  deriving DecidableEq, Repr

/-! ## The calls of the threads -/

inductive HolderCall (Q : Type) where
  | sendRequest (req : Q)
  | retryConnection (isExponentialBackoff : Bool)
  deriving DecidableEq, Repr

inductive Returned where
  | data (data : StreamData)
  | status (status : ConnectionStatus)
  deriving DecidableEq, Repr

/-- What a connection is established for. -/
inductive Purpose where
  /-- the last request broke the connection -/
  | upFront
  /-- the first exchange has failed with `ec`, or was not made -/
  | again (ec : ErrorCode)
  | retry (isExponentialBackoff : Bool)
  /-- a try of `exponentialBackOff`, after this interval -/
  | backoff (interval : Int)
  deriving DecidableEq, Repr

/-- Where the thread with the lock is. -/
inductive Place where
  /-- `if(connectionStatus != ConnectionStatus::SUCCESS)` -/
  | check
  | connect (purpose : Purpose) (stage : ConnectStage)
  | exchange (second : Bool) (stage : ExchangeStage)
  | sleep (interval : Int)
  deriving DecidableEq, Repr

/-- What the threads share. -/
structure Holder (Q : Type) where
  /-- the number of the current stream object -/
  stream : Nat
  /-- the number of bytes in `buffer` -/
  buffer : Nat
  connectionStatus : ConnectionStatus
  backoffPolicy : BackoffPolicy
  /-- history variable -/
  calls : List (NetCall Q)
  deriving DecidableEq, Repr

namespace Holder

variable {Q : Type}

def log (s : Holder Q) (c : NetCall Q) : Holder Q := { s with calls := s.calls ++ [c] }

/-- A step of `establishConnection`; at its end what it returns. -/
def establishConnection (s : Holder Q) (a : Answer) :
    ConnectStage → Holder Q × (ConnectStage ⊕ ConnectionStatus)
  | .renew => ({ s with stream := s.stream + 1, buffer := 0 }, .inl .resolve)
  | .resolve =>
      (s.log (.resolve s.stream a.ec), if a.ec ≠ 0 then .inr .FAIL else .inl .connect)
  | .connect =>
      (s.log (.connect s.stream a.ec), if a.ec ≠ 0 then .inr .FAIL else .inl .sni)
  | .sni =>
      (s.log (.sni s.stream (a.ec = 0)), if a.ec ≠ 0 then .inr .FAIL else .inl .handshake)
  | .handshake =>
      (s.log (.handshake s.stream a.ec), .inr (if a.ec ≠ 0 then .FAIL else .SUCCESS))

/-- A step of `exchange`; at its end the error code, and `data` as it is then. -/
def exchange (s : Holder Q) (req : Q) (a : Answer) :
    ExchangeStage → Holder Q × (ExchangeStage ⊕ (StreamData × ErrorCode))
  | .write =>
      (s.log (.write s.stream req a.ec), if a.ec ≠ 0 then .inr (.empty, a.ec) else .inl .read)
  | .read =>
      let done := { s.log (.read s.stream s.buffer a.ec a.httpStatus a.body a.keepAlive a.left) with
        buffer := a.left }
      if a.ec ≠ 0 then (done, .inr (.empty, a.ec))
      else
        -- the server may close after this response; reconnect up front next time
        ({ done with connectionStatus := if a.keepAlive then s.connectionStatus else .FAIL },
          .inr ({ StreamData.empty with httpStatus := a.httpStatus, string := a.body }, 0))

/-- What is done with the status that `establishConnection` returns. -/
def connected (s : Holder Q) : Purpose → ConnectionStatus → Holder Q × (Place ⊕ Returned)
  | .upFront, status =>
      ({ s with connectionStatus := status },
        .inl (if status = .SUCCESS then .exchange false .write else .connect (.again 0) .renew))
  | .again ec, status =>
      ({ s with connectionStatus := status },
        if status ≠ .SUCCESS then
          .inr (.data { StreamData.empty with ec := if ec ≠ 0 then ec else not_connected })
        else .inl (.exchange true .write))
  | .retry isExponentialBackoff, status =>
      ({ s with connectionStatus := status },
        if isExponentialBackoff ∧ status ≠ .SUCCESS then .inl (.sleep s.backoffPolicy.delay)
        else .inr (.status status))
  | .backoff interval, status =>
      if status = .SUCCESS then ({ s with connectionStatus := .SUCCESS }, .inr (.status .SUCCESS))
      else
        match s.backoffPolicy.nextInterval interval with
        | none => ({ s with connectionStatus := .FAIL }, .inr (.status .FAIL))
        | some next => (s, .inl (.sleep next))

/-- What `perform` does after its first and its second exchange. -/
def exchanged (s : Holder Q) (second : Bool) (data : StreamData) (ec : ErrorCode) :
    Holder Q × (Place ⊕ Returned) :=
  if ec = 0 then (s, .inr (.data { data with status := .SUCCESS }))
  else if second then
    ({ s with buffer := 0, connectionStatus := .FAIL }, .inr (.data { data with ec := ec }))
  else ({ s with buffer := 0 }, .inl (.connect (.again ec) .renew))

def go (s : Holder Q) (op : HolderCall Q) (p : Place) (a : Answer) :
    Option (Holder Q × (Place ⊕ Returned)) :=
  match p, op with
  | .check, .sendRequest _ =>
      some (s, .inl (if s.connectionStatus ≠ .SUCCESS then .connect .upFront .renew
        else .exchange false .write))
  | .connect purpose stage, _ =>
      some (match s.establishConnection a stage with
        | (s, .inl next) => (s, .inl (.connect purpose next))
        | (s, .inr status) => s.connected purpose status)
  | .exchange second stage, .sendRequest req =>
      some (match s.exchange req a stage with
        | (s, .inl next) => (s, .inl (.exchange second next))
        | (s, .inr (data, ec)) => s.exchanged second data ec)
  | .sleep interval, _ => some (s, .inl (.connect (.backoff interval) .renew))
  | _, _ => none

def start : HolderCall Q → Place
  | .sendRequest _ => .check
  | .retryConnection isExponentialBackoff => .connect (.retry isExponentialBackoff) .renew

/-- The holder and what is called on it under its lock. -/
def guarded : Guarded (Holder Q) (HolderCall Q) Place Answer Returned := ⟨start, go⟩

/-- What the constructor leaves. -/
def ofHolder (h : StreamHolder) : Holder Q :=
  ⟨h.stream, h.buffer, h.connectionStatus, h.backoffPolicy, []⟩

end Holder

/-! ## The calls one after the other

The holder of `StreamHolder.lean`, with what each call has returned. A `retryConnection` with its
backoff is several actions there, so here it is begun by one and goes on by others. -/

/-- A holder with what the calls on it have returned. -/
structure CalledHolder (τ Q : Type) where
  state : HolderState
  /-- the call that the backoff belongs to -/
  backoffOf : Option (τ × HolderCall Q)
  returned : List (τ × HolderCall Q × Returned)

inductive CalledAct (τ Q : Type) where
  | sendRequest (t : τ) (req : Q) (o : RequestOutcomes)
  | retryConnection (t : τ) (isExponentialBackoff : Bool) (o : ConnectOutcome)
  /-- the next try of the backoff -/
  | tryAgain (o : ConnectOutcome)

namespace CalledHolder

variable {τ Q : Type}

/-- After a try: the call returns, or its backoff goes on. -/
def afterTry (s : CalledHolder τ Q) (t : τ) (op : HolderCall Q) (st : HolderState) :
    CalledHolder τ Q :=
  if st.backoff = none then
    ⟨st, none, s.returned ++ [(t, op, .status st.holder.connectionStatus)]⟩
  else ⟨st, some (t, op), s.returned⟩

def step (s : CalledHolder τ Q) : CalledAct τ Q → Option (CalledHolder τ Q)
  | .sendRequest t req o =>
      (s.state.step (.sendRequest o)).map fun st =>
        ⟨st, s.backoffOf,
          s.returned ++ [(t, .sendRequest req, .data (s.state.holder.sendRequest o).2)]⟩
  | .retryConnection t isExponentialBackoff o =>
      (s.state.step (.retryConnection isExponentialBackoff o)).map
        (s.afterTry t (.retryConnection isExponentialBackoff))
  | .tryAgain o =>
      s.backoffOf.bind fun (t, op) => (s.state.step (.tryAgain o)).map (s.afterTry t op)

/-- A holder on which nobody has called yet. -/
def new (h : StreamHolder) : CalledHolder τ Q := ⟨⟨h, none⟩, none, []⟩

theorem state_afterTry (s : CalledHolder τ Q) (t : τ) (op : HolderCall Q) (st : HolderState) :
    (s.afterTry t op st).state = st := by
  unfold afterTry
  split <;> rfl

/-- A call is a call of `StreamHolder.lean`. -/
theorem state_step {s s' : CalledHolder τ Q} {a : CalledAct τ Q} (hs : s.step a = some s') :
    ∃ b, s.state.step b = some s'.state := by
  cases a with
  | sendRequest t req o =>
      obtain ⟨st, hst, rfl⟩ := Option.map_eq_some_iff.mp hs
      exact ⟨_, hst⟩
  | retryConnection t isExponentialBackoff o =>
      obtain ⟨st, hst, rfl⟩ := Option.map_eq_some_iff.mp hs
      exact ⟨_, hst.trans (congrArg some (s.state_afterTry ..).symm)⟩
  | tryAgain o =>
      obtain ⟨⟨t, op⟩, -, hs⟩ := Option.bind_eq_some_iff.mp hs
      obtain ⟨st, hst, rfl⟩ := Option.map_eq_some_iff.mp hs
      exact ⟨_, hst.trans (congrArg some (s.state_afterTry ..).symm)⟩

theorem reach_state {h : StreamHolder} {s : CalledHolder τ Q} {st : HolderState}
    (hnew : Reach HolderState.step (fun _ _ => True) st ⟨h, none⟩)
    (hs : Reach step (fun _ _ => True) (new h) s) :
    Reach HolderState.step (fun _ _ => True) st s.state := by
  refine hs.invariant (I := fun s => Reach HolderState.step (fun _ _ => True) st s.state) hnew ?_
  intro s a s' hreach _ hs
  obtain ⟨b, hb⟩ := state_step hs
  exact hreach.tail trivial hb

end CalledHolder

/-! ## A call and its steps

While a function is under way the threads share what the holder had before it, its new stream
object, and the part of its event that has happened. At its end the holder makes the whole event at
once. -/

/-- The network calls that an event stands for. -/
def netCalls : Event → List (NetCall Unit)
  | .attempt stream o =>
      .resolve stream o.resolve ::
        if o.resolve ≠ 0 then []
        else .connect stream o.connect ::
          if o.connect ≠ 0 then []
          else .sni stream o.sni ::
            if !o.sni then [] else [.handshake stream o.handshake]
  | .exchange stream buffered e =>
      .write stream () e.write ::
        if e.write ≠ 0 then []
        else [.read stream buffered e.read e.httpStatus e.body e.keepAlive e.left]

/-- The threads share what the holder has, and their network calls are those of its log after
`prior`, with `part` of the next event. -/
structure Shows {Q : Type} (prior : List (NetCall Unit)) (f : Holder Q) (h : StreamHolder)
    (part : List (NetCall Unit)) : Prop where
  stream : f.stream = h.stream
  buffer : f.buffer = h.buffer
  connectionStatus : f.connectionStatus = h.connectionStatus
  backoffPolicy : f.backoffPolicy = h.backoffPolicy
  calls : prior ++ f.calls.map NetCall.erase = h.log.flatMap netCalls ++ part

/-- The holder with its new stream object. -/
def renewed (h : StreamHolder) : StreamHolder := { h with stream := h.stream + 1, buffer := 0 }

/-- How far `establishConnection` is. -/
def Connecting {Q : Type} (prior : List (NetCall Unit)) (f : Holder Q) (h : StreamHolder) :
    ConnectStage → Prop
  | .renew => Shows prior f h []
  | .resolve => Shows prior f (renewed h) []
  | .connect => Shows prior f (renewed h) [.resolve (h.stream + 1) 0]
  | .sni => Shows prior f (renewed h) [.resolve (h.stream + 1) 0, .connect (h.stream + 1) 0]
  | .handshake =>
      Shows prior f (renewed h)
        [.resolve (h.stream + 1) 0, .connect (h.stream + 1) 0, .sni (h.stream + 1) true]

/-- How far `exchange` is. -/
def Exchanging {Q : Type} (prior : List (NetCall Unit)) (f : Holder Q) (h : StreamHolder) :
    ExchangeStage → Prop
  | .write => Shows prior f h []
  | .read => Shows prior f h [.write h.stream () 0]

section Steps

variable {Q : Type} {prior part : List (NetCall Unit)} {f f' : Holder Q} {h : StreamHolder}

theorem Shows.log (hf : Shows prior f h part) (c : NetCall Q) :
    Shows prior (f.log c) h (part ++ [c.erase]) := by
  refine ⟨hf.stream, hf.buffer, hf.connectionStatus, hf.backoffPolicy, ?_⟩
  show prior ++ (f.calls ++ [c]).map NetCall.erase = _
  rw [List.map_append, ← List.append_assoc, hf.calls, List.append_assoc]
  rfl

/-- An event is complete. -/
theorem Shows.event (hf : Shows prior f h part) {ev : Event} (hev : netCalls ev = part) :
    Shows prior f { h with log := h.log ++ [ev] } [] := by
  refine ⟨hf.stream, hf.buffer, hf.connectionStatus, hf.backoffPolicy, ?_⟩
  show _ = (h.log ++ [ev]).flatMap netCalls ++ []
  rw [hf.calls, List.flatMap_append, List.append_nil, List.flatMap_cons, List.flatMap_nil,
    List.append_nil, hev]

theorem Shows.setStatus (hf : Shows prior f h part) (status : ConnectionStatus) :
    Shows prior { f with connectionStatus := status } { h with connectionStatus := status } part :=
  ⟨hf.stream, hf.buffer, rfl, hf.backoffPolicy, hf.calls⟩

theorem Shows.setBuffer (hf : Shows prior f h part) (n : Nat) :
    Shows prior { f with buffer := n } { h with buffer := n } part :=
  ⟨hf.stream, rfl, hf.connectionStatus, hf.backoffPolicy, hf.calls⟩

/-- The current stream of a try that is under way. -/
theorem Connecting.stream {stage : ConnectStage} (hf : Connecting prior f h stage)
    (hne : stage ≠ .renew) : f.stream = h.stream + 1 := by
  cases stage with
  | renew => exact absurd rfl hne
  | resolve | connect | sni | handshake => exact Shows.stream hf

/-- **A step of `establishConnection`.** At its end there is an outcome that the try has had. -/
theorem establishConnection_step (prior : List (NetCall Unit)) (f : Holder Q) (a : Answer)
    (stage : ConnectStage) :
    (∃ f' next, f.establishConnection a stage = (f', .inl next) ∧
        ∀ h, Connecting prior f h stage → Connecting prior f' h next) ∨
      ∃ f' o, f.establishConnection a stage = (f', .inr (ConnectOutcome.status o)) ∧
        ∀ h, Connecting prior f h stage → Shows prior f' (h.establishConnection o).1 [] := by
  cases stage with
  | renew =>
      refine .inl ⟨_, _, rfl, fun h hf => ?_⟩
      obtain ⟨hstream, -, hstatus, hpolicy, hcalls⟩ := hf
      exact ⟨congrArg (· + 1) hstream, rfl, hstatus, hpolicy, hcalls⟩
  | resolve =>
      have hlog : ∀ h, Connecting prior f h .resolve →
          Shows prior (f.log (.resolve f.stream a.ec)) (renewed h)
            [.resolve (h.stream + 1) a.ec] := by
        intro h hf
        rw [hf.stream (by decide)]
        exact Shows.log hf _
      rw [Holder.establishConnection]
      by_cases hec : a.ec = 0
      · rw [if_neg (not_not.mpr hec)]
        rw [hec] at hlog ⊢
        exact .inl ⟨_, _, rfl, hlog⟩
      · rw [if_pos hec]
        refine .inr ⟨_, ⟨a.ec, 0, true, 0⟩, ?_, fun h hf => (hlog h hf).event ?_⟩
        · simp [ConnectOutcome.status, hec]
        · simp [netCalls, hec]
  | connect =>
      have hlog : ∀ h, Connecting prior f h .connect →
          Shows prior (f.log (.connect f.stream a.ec)) (renewed h)
            [.resolve (h.stream + 1) 0, .connect (h.stream + 1) a.ec] := by
        intro h hf
        rw [hf.stream (by decide)]
        exact Shows.log hf _
      rw [Holder.establishConnection]
      by_cases hec : a.ec = 0
      · rw [if_neg (not_not.mpr hec)]
        rw [hec] at hlog ⊢
        exact .inl ⟨_, _, rfl, hlog⟩
      · rw [if_pos hec]
        refine .inr ⟨_, ⟨0, a.ec, true, 0⟩, ?_, fun h hf => (hlog h hf).event ?_⟩
        · simp [ConnectOutcome.status, hec]
        · simp [netCalls, hec]
  | sni =>
      have hlog : ∀ h, Connecting prior f h .sni →
          Shows prior (f.log (.sni f.stream (a.ec = 0))) (renewed h)
            [.resolve (h.stream + 1) 0, .connect (h.stream + 1) 0,
              .sni (h.stream + 1) (a.ec = 0)] := by
        intro h hf
        rw [hf.stream (by decide)]
        exact Shows.log hf _
      rw [Holder.establishConnection]
      by_cases hec : a.ec = 0
      · rw [if_neg (not_not.mpr hec)]
        rw [decide_eq_true hec] at hlog ⊢
        exact .inl ⟨_, _, rfl, hlog⟩
      · rw [if_pos hec]
        rw [decide_eq_false hec] at hlog ⊢
        exact .inr ⟨_, ⟨0, 0, false, 0⟩, rfl, fun h hf => (hlog h hf).event rfl⟩
  | handshake =>
      refine .inr ⟨_, ⟨0, 0, true, a.ec⟩, rfl, fun h hf => ?_⟩
      rw [hf.stream (by decide)]
      exact (Shows.log hf _).event rfl

/-- **A step of `exchange`.** At its end there is an outcome that the exchange has had. -/
theorem exchange_step (prior : List (NetCall Unit)) (f : Holder Q) (req : Q) (a : Answer)
    (stage : ExchangeStage) :
    (∃ f' next, f.exchange req a stage = (f', .inl next) ∧
        ∀ h, Exchanging prior f h stage → Exchanging prior f' h next) ∨
      ∃ f' data ec e, f.exchange req a stage = (f', .inr (data, ec)) ∧
        ∀ h, Exchanging prior f h stage →
          (h.exchange .empty e).2 = (data, ec) ∧ Shows prior f' (h.exchange .empty e).1 [] := by
  cases stage with
  | write =>
      have hlog : ∀ h, Exchanging prior f h .write →
          Shows prior (f.log (.write f.stream req a.ec)) h [.write h.stream () a.ec] := by
        intro h hf
        rw [Shows.stream hf]
        exact Shows.log hf _
      rw [Holder.exchange]
      by_cases hec : a.ec = 0
      · rw [if_neg (not_not.mpr hec)]
        rw [hec] at hlog ⊢
        exact .inl ⟨_, _, rfl, hlog⟩
      · rw [if_pos hec]
        refine .inr ⟨_, _, _, ⟨a.ec, 0, 0, [], true, 0⟩, rfl, fun h hf => ?_⟩
        rw [StreamHolder.exchange, if_pos hec]
        exact ⟨rfl, (hlog h hf).event (by simp [netCalls, hec])⟩
  | read =>
      set e : ExchangeOutcome := ⟨0, a.ec, a.httpStatus, a.body, a.keepAlive, a.left⟩ with he
      have hlog : ∀ h, Exchanging prior f h .read →
          Shows prior (f.log (.read f.stream f.buffer a.ec a.httpStatus a.body a.keepAlive a.left))
            { h with log := h.log ++ [.exchange h.stream h.buffer e] } [] := by
        intro h hf
        rw [Shows.stream hf, Shows.buffer hf]
        exact (Shows.log hf _).event rfl
      have hwrite : ¬ e.write ≠ 0 := not_not.mpr rfl
      rw [Holder.exchange]
      dsimp only
      by_cases hec : a.ec = 0
      · rw [if_neg (not_not.mpr hec)]
        refine .inr ⟨_, _, _, e, rfl, fun h hf => ?_⟩
        rw [StreamHolder.exchange, if_neg hwrite, if_neg (not_not.mpr hec),
          Shows.connectionStatus hf]
        exact ⟨rfl, ((hlog h hf).setBuffer a.left).setStatus _⟩
      · rw [if_pos hec]
        refine .inr ⟨_, _, _, e, rfl, fun h hf => ?_⟩
        rw [StreamHolder.exchange, if_neg hwrite, if_pos hec]
        exact ⟨rfl, (hlog h hf).setBuffer a.left⟩

end Steps

/-! ## Where a call is

`SendingAt` and `RetryingAt` say of each place what the holder before the call and the outcomes so
far come to, so that the end of the call is a call of the holder with these outcomes. -/

/-- After this try and this exchange a request goes on as `retry` from `h`. -/
def Retries (h₀ h : StreamHolder) (ec : ErrorCode) (c : ConnectOutcome) (e : ExchangeOutcome) :
    Prop := ∀ c' e', h₀.perform ⟨c, e, c', e'⟩ = h.retry .empty ec ⟨c, e, c', e'⟩

section Sending

variable {Q : Type} (prior : List (NetCall Unit)) (f : Holder Q)

/-- How far a request is that began at `h₀`. -/
def SendingAt (h₀ : StreamHolder) : Place → Prop
  | .check => Shows prior f h₀ []
  | .connect .upFront stage => h₀.connectionStatus ≠ .SUCCESS ∧ Connecting prior f h₀ stage
  | .connect (.again ec) stage => ∃ c e h, Retries h₀ h ec c e ∧ Connecting prior f h stage
  | .exchange false stage =>
      ∃ c, (h₀.ready c).connectionStatus = .SUCCESS ∧ Exchanging prior f (h₀.ready c) stage
  | .exchange true stage =>
      ∃ c e c' h ec, Retries h₀ h ec c e ∧ c'.status = .SUCCESS ∧
        Exchanging prior f (h.reconnect c') stage
  | _ => False

/-- What a step of a request comes to. -/
def SendingTo (h₀ : StreamHolder) : Place ⊕ Returned → Prop
  | .inl p => SendingAt prior f h₀ p
  | .inr result => ∃ o, result = .data (h₀.perform o).2 ∧ Shows prior f (h₀.perform o).1 []

end Sending

section Sending

variable {Q : Type} {prior : List (NetCall Unit)} {f f' : Holder Q} {h₀ h : StreamHolder}
  {c : ConnectOutcome} {e : ExchangeOutcome} {ec : ErrorCode}

theorem ready_of_fail (hfail : h₀.connectionStatus ≠ .SUCCESS) (c : ConnectOutcome) :
    h₀.ready c = h₀.reconnect c := if_pos hfail

theorem ready_of_success (hup : h₀.connectionStatus = .SUCCESS) (c : ConnectOutcome) :
    h₀.ready c = h₀ := if_neg (not_not.mpr hup)

theorem Shows.reconnect {o : ConnectOutcome} (hf : Shows prior f (h.establishConnection o).1 []) :
    Shows prior { f with connectionStatus := o.status } (h.reconnect o) [] := hf.setStatus o.status

/-- A request whose connection try up front fails. -/
theorem retries_of_notReady (hfail : (h₀.ready c).connectionStatus ≠ .SUCCESS) :
    Retries h₀ (h₀.ready c) 0 c e := by
  intro c' e'
  rw [StreamHolder.perform, if_neg hfail]

/-- A request whose first exchange fails. -/
theorem retries_of_failed (hup : (h₀.ready c).connectionStatus = .SUCCESS)
    (hec : ((h₀.ready c).exchange .empty e).2.2 ≠ 0) :
    Retries h₀ { ((h₀.ready c).exchange .empty e).1 with buffer := 0 }
      ((h₀.ready c).exchange .empty e).2.2 c e := by
  intro c' e'
  obtain ⟨-, ⟨hok, -⟩ | ⟨-, -, hdata⟩⟩ := exchange_cases (h₀.ready c) .empty e
  · exact absurd hok hec
  · rw [StreamHolder.perform, if_pos hup]
    dsimp only
    rw [if_neg hec, hdata]

/-- A request whose first exchange succeeds. -/
theorem perform_of_succeeded (hup : (h₀.ready c).connectionStatus = .SUCCESS)
    (hec : ((h₀.ready c).exchange .empty e).2.2 = 0) (c' : ConnectOutcome) (e' : ExchangeOutcome) :
    h₀.perform ⟨c, e, c', e'⟩ =
      (((h₀.ready c).exchange .empty e).1,
        { ((h₀.ready c).exchange .empty e).2.1 with status := .SUCCESS }) := by
  rw [StreamHolder.perform, if_pos hup]
  dsimp only
  rw [if_pos hec]

/-- The connection is established and what follows it begins. -/
theorem SendingAt.connected {purpose : Purpose} {o : ConnectOutcome} {f₁ : Holder Q}
    {stage : ConnectStage} {r : Place ⊕ Returned}
    (hf : SendingAt prior f h₀ (.connect purpose stage))
    (hshows : ∀ h, Connecting prior f h stage → Shows prior f₁ (h.establishConnection o).1 [])
    (hr : f₁.connected purpose o.status = (f', r)) : SendingTo prior f' h₀ r := by
  cases purpose with
  | upFront =>
      obtain ⟨hfail, hf⟩ := hf
      have hready : Shows prior { f₁ with connectionStatus := o.status } (h₀.ready o) [] := by
        rw [ready_of_fail hfail]
        exact (hshows h₀ hf).reconnect
      have hstatus : (h₀.ready o).connectionStatus = o.status := by rw [ready_of_fail hfail]; rfl
      obtain ⟨rfl, rfl⟩ := Prod.mk.inj hr
      by_cases hup : o.status = .SUCCESS
      · rw [if_pos hup]
        exact ⟨o, hstatus.trans hup, hready⟩
      · rw [if_neg hup]
        exact ⟨o, ⟨0, 0, 0, [], true, 0⟩, h₀.ready o,
          retries_of_notReady (by rw [hstatus]; exact hup), hready⟩
  | again ec =>
      obtain ⟨c, e, h, hretries, hf⟩ := hf
      have hshown := (hshows h hf).reconnect
      obtain ⟨rfl, rfl⟩ := Prod.mk.inj hr
      by_cases hup : o.status = .SUCCESS
      · rw [if_neg (not_not.mpr hup)]
        exact ⟨c, e, o, h, ec, hretries, hup, hshown⟩
      · rw [if_pos hup]
        have hend : h₀.perform ⟨c, e, o, e⟩ = (h.reconnect o,
            { StreamData.empty with ec := if ec ≠ 0 then ec else not_connected }) := by
          rw [hretries, StreamHolder.retry]
          exact if_pos hup
        refine ⟨⟨c, e, o, e⟩, ?_, ?_⟩
        · rw [hend]
        · rw [hend]
          exact hshown
  | retry _ => exact hf.elim
  | backoff _ => exact hf.elim

/-- The exchange is over and what follows it begins. -/
theorem SendingAt.exchanged {second : Bool} {f₁ : Holder Q} {stage : ExchangeStage}
    {r : Place ⊕ Returned} {data : StreamData} {last : ExchangeOutcome}
    (hf : SendingAt prior f h₀ (.exchange second stage))
    (hshows : ∀ h, Exchanging prior f h stage →
      (h.exchange .empty last).2 = (data, ec) ∧ Shows prior f₁ (h.exchange .empty last).1 [])
    (hr : f₁.exchanged second data ec = (f', r)) : SendingTo prior f' h₀ r := by
  unfold Holder.exchanged at hr
  cases second with
  | false =>
      obtain ⟨c, hup, hf⟩ := hf
      obtain ⟨hend, hshown⟩ := hshows _ hf
      obtain ⟨hdata, hcode⟩ := Prod.mk.inj hend
      by_cases hec : ec = 0
      · rw [if_pos hec] at hr
        obtain ⟨rfl, rfl⟩ := Prod.mk.inj hr
        have hperform := perform_of_succeeded hup (hcode.trans hec) c last
        refine ⟨⟨c, last, c, last⟩, ?_, ?_⟩
        · rw [hperform, hdata]
        · rw [hperform]
          exact hshown
      · rw [if_neg hec, if_neg Bool.false_ne_true] at hr
        obtain ⟨rfl, rfl⟩ := Prod.mk.inj hr
        refine ⟨c, last, _, ?_, hshown.setBuffer 0⟩
        rw [← hcode]
        exact retries_of_failed hup (by rw [hcode]; exact hec)
  | true =>
      obtain ⟨c, e, c', h, ec', hretries, hup, hf⟩ := hf
      obtain ⟨hend, hshown⟩ := hshows _ hf
      have hperform : h₀.perform ⟨c, e, c', last⟩ =
          if ec ≠ 0 then
            ({ ((h.reconnect c').exchange .empty last).1 with
                buffer := 0
                connectionStatus := .FAIL },
              { data with ec := ec })
          else (((h.reconnect c').exchange .empty last).1, { data with status := .SUCCESS }) := by
        have hconnected : (h.reconnect c').connectionStatus = .SUCCESS := hup
        obtain ⟨hdata, hcode⟩ := Prod.mk.inj hend
        rw [hretries, StreamHolder.retry]
        dsimp only
        rw [if_neg (not_not.mpr hconnected), hdata, hcode]
      by_cases hec : ec = 0
      · rw [if_pos hec] at hr
        rw [if_neg (not_not.mpr hec)] at hperform
        obtain ⟨rfl, rfl⟩ := Prod.mk.inj hr
        refine ⟨⟨c, e, c', last⟩, ?_, ?_⟩
        · rw [hperform]
        · rw [hperform]
          exact hshown
      · rw [if_neg hec, if_pos rfl] at hr
        rw [if_pos hec] at hperform
        obtain ⟨rfl, rfl⟩ := Prod.mk.inj hr
        refine ⟨⟨c, e, c', last⟩, ?_, ?_⟩
        · rw [hperform]
        · rw [hperform]
          exact (hshown.setBuffer 0).setStatus .FAIL

/-- **A step of a request.** -/
theorem SendingAt.step {req : Q} {p : Place} {a : Answer} {r : Place ⊕ Returned}
    (hf : SendingAt prior f h₀ p) (hgo : f.go (.sendRequest req) p a = some (f', r)) :
    SendingTo prior f' h₀ r := by
  cases p with
  | check =>
      obtain ⟨rfl, rfl⟩ := Prod.mk.inj (Option.some.inj hgo)
      have hstatus : f.connectionStatus = h₀.connectionStatus := hf.connectionStatus
      by_cases hup : f.connectionStatus = .SUCCESS
      · rw [if_neg (not_not.mpr hup)]
        have hready := ready_of_success (hstatus.symm.trans hup) ⟨0, 0, true, 0⟩
        refine ⟨⟨0, 0, true, 0⟩, ?_, ?_⟩
        · rw [hready]
          exact hstatus.symm.trans hup
        · rw [hready]
          exact hf
      · rw [if_pos hup]
        exact ⟨by rw [← hstatus]; exact hup, hf⟩
  | connect purpose stage =>
      have hgo := Option.some.inj hgo
      obtain ⟨f₁, next, heq, hnext⟩ | ⟨f₁, o, heq, hshows⟩ :=
        establishConnection_step prior f a stage
      · rw [heq] at hgo
        obtain ⟨rfl, rfl⟩ := Prod.mk.inj hgo
        cases purpose with
        | upFront => exact ⟨hf.1, hnext h₀ hf.2⟩
        | again ec =>
            obtain ⟨c, e, h, hretries, hf⟩ := hf
            exact ⟨c, e, h, hretries, hnext h hf⟩
        | retry _ => exact hf.elim
        | backoff _ => exact hf.elim
      · rw [heq] at hgo
        exact hf.connected hshows hgo
  | exchange second stage =>
      have hgo := Option.some.inj hgo
      obtain ⟨f₁, next, heq, hnext⟩ | ⟨f₁, data, ec, e, heq, hshows⟩ :=
        exchange_step prior f req a stage
      · rw [heq] at hgo
        obtain ⟨rfl, rfl⟩ := Prod.mk.inj hgo
        cases second with
        | false =>
            obtain ⟨c, hup, hf⟩ := hf
            exact ⟨c, hup, hnext _ hf⟩
        | true =>
            obtain ⟨c, e, c', h, ec, hretries, hup, hf⟩ := hf
            exact ⟨c, e, c', h, ec, hretries, hup, hnext _ hf⟩
      · rw [heq] at hgo
        exact hf.exchanged hshows hgo
  | sleep interval => exact hf.elim

end Sending

section Retrying

variable {Q : Type} {prior : List (NetCall Unit)} {f f' : Holder Q} {st : HolderState} {b : Bool}

/-- How far a `retryConnection` is. -/
def RetryingAt (prior : List (NetCall Unit)) (f : Holder Q) (b : Bool) (st : HolderState) :
    Place → Prop
  | .connect (.retry b') stage =>
      b' = b ∧ st.backoff = none ∧ Connecting prior f st.holder stage
  | .connect (.backoff interval) stage =>
      st.backoff = some interval ∧ st.holder.connectionStatus = .FAIL ∧
        Connecting prior f st.holder stage
  | .sleep interval =>
      st.backoff = some interval ∧ st.holder.connectionStatus = .FAIL ∧ Shows prior f st.holder []
  | _ => False

/-- What a try comes to: `retryConnection` returns, or its backoff goes on. -/
def RetryingTo (prior : List (NetCall Unit)) (f : Holder Q) (b : Bool) (st : HolderState) :
    Place ⊕ Returned → Prop
  | .inl p => st.backoff ≠ none ∧ RetryingAt prior f b st p
  | .inr result =>
      st.backoff = none ∧ result = .status st.holder.connectionStatus ∧ Shows prior f st.holder []

/-- What a step of `retryConnection` is to the holder: nothing, its first try, or a later one. -/
inductive RetryStep (prior : List (NetCall Unit)) (f' : Holder Q) (b : Bool) (st : HolderState) :
    Place ⊕ Returned → Prop
  | same {p : Place} (h : RetryingAt prior f' b st p) : RetryStep prior f' b st (.inl p)
  | first {r : Place ⊕ Returned} {o : ConnectOutcome} {st' : HolderState}
      (hs : st.step (.retryConnection b o) = some st') (hr : RetryingTo prior f' b st' r) :
      RetryStep prior f' b st r
  | again {r : Place ⊕ Returned} {o : ConnectOutcome} {st' : HolderState}
      (hback : st.backoff ≠ none) (hs : st.step (.tryAgain o) = some st')
      (hr : RetryingTo prior f' b st' r) : RetryStep prior f' b st r

theorem ConnectOutcome.status_of_ne {o : ConnectOutcome} (h : o.status ≠ .SUCCESS) :
    o.status = .FAIL := by
  unfold Core.ConnectOutcome.status at h ⊢
  split_ifs at h ⊢ <;> first | rfl | exact absurd rfl h

/-- The connection is established, and `retryConnection` returns or sleeps. -/
theorem RetryingAt.connected {purpose : Purpose} {o : ConnectOutcome} {f₁ : Holder Q}
    {stage : ConnectStage} {r : Place ⊕ Returned}
    (hf : RetryingAt prior f b st (.connect purpose stage))
    (hshows : ∀ h, Connecting prior f h stage → Shows prior f₁ (h.establishConnection o).1 [])
    (hr : f₁.connected purpose o.status = (f', r)) : RetryStep prior f' b st r := by
  cases purpose with
  | upFront => exact hf.elim
  | again _ => exact hf.elim
  | retry b' =>
      obtain ⟨rfl, hback, hf⟩ := hf
      have hshown := hshows _ hf
      have hpolicy : f₁.backoffPolicy = st.holder.backoffPolicy := hshown.backoffPolicy
      obtain ⟨rfl, rfl⟩ := Prod.mk.inj hr
      have hs : st.step (.retryConnection b' o) = some (HolderState.tryFirst st.holder b' o) :=
        if_pos hback
      refine .first hs ?_
      unfold HolderState.tryFirst
      by_cases hsleep : (b' : Prop) ∧ o.status ≠ .SUCCESS
      · rw [if_pos hsleep, if_pos hsleep]
        exact ⟨nofun, congrArg (fun policy => some policy.delay) hpolicy.symm,
          ConnectOutcome.status_of_ne hsleep.2, hshown.reconnect⟩
      · rw [if_neg hsleep, if_neg hsleep]
        exact ⟨rfl, rfl, hshown.reconnect⟩
  | backoff interval =>
      obtain ⟨hback, hfail, hf⟩ := hf
      have hshown := hshows _ hf
      have hpolicy : f₁.backoffPolicy = st.holder.backoffPolicy := hshown.backoffPolicy
      have hs : st.step (.tryAgain o) = some ⟨st.holder.reconnect o,
          if o.status = .SUCCESS then none
          else st.holder.backoffPolicy.nextInterval interval⟩ := by
        rw [HolderState.step, hback]
        rfl
      refine .again (by rw [hback]; nofun) hs ?_
      rw [Holder.connected] at hr
      by_cases hup : o.status = .SUCCESS
      · rw [if_pos hup] at hr ⊢
        obtain ⟨rfl, rfl⟩ := Prod.mk.inj hr
        have hshown := hshown.reconnect
        rw [hup] at hshown
        exact ⟨rfl, congrArg _ hup.symm, hshown⟩
      · have hstatus : o.status = .FAIL := ConnectOutcome.status_of_ne hup
        rw [if_neg hup] at hr
        rw [if_neg hup, ← hpolicy]
        have hreconnect := hshown.reconnect
        rw [hstatus] at hreconnect
        cases hnext : f₁.backoffPolicy.nextInterval interval with
        | none =>
            rw [hnext] at hr
            obtain ⟨rfl, rfl⟩ := Prod.mk.inj hr
            exact ⟨rfl, congrArg _ hstatus.symm, hreconnect⟩
        | some next =>
            rw [hnext] at hr
            obtain ⟨rfl, rfl⟩ := Prod.mk.inj hr
            -- the status is still that of the tries before
            have hsame : f₁.connectionStatus = .FAIL := hshown.connectionStatus.trans hfail
            have hf₁ : { f₁ with connectionStatus := .FAIL } = f₁ := by rw [← hsame]
            rw [hf₁] at hreconnect
            exact ⟨nofun, rfl, hstatus, hreconnect⟩

/-- **A step of `retryConnection`.** -/
theorem RetryingAt.step {p : Place} {a : Answer} {r : Place ⊕ Returned}
    (hf : RetryingAt prior f b st p) (hgo : f.go (.retryConnection b) p a = some (f', r)) :
    RetryStep prior f' b st r := by
  cases p with
  | check => exact hf.elim
  | exchange second stage => exact hf.elim
  | sleep interval =>
      obtain ⟨rfl, rfl⟩ := Prod.mk.inj (Option.some.inj hgo)
      exact .same hf
  | connect purpose stage =>
      have hgo := Option.some.inj hgo
      obtain ⟨f₁, next, heq, hnext⟩ | ⟨f₁, o, heq, hshows⟩ :=
        establishConnection_step prior f a stage
      · rw [heq] at hgo
        obtain ⟨rfl, rfl⟩ := Prod.mk.inj hgo
        cases purpose with
        | upFront => exact hf.elim
        | again _ => exact hf.elim
        | retry _ => exact .same ⟨hf.1, hf.2.1, hnext _ hf.2.2⟩
        | backoff _ => exact .same ⟨hf.1, hf.2.1, hnext _ hf.2.2⟩
      · rw [heq] at hgo
        exact hf.connected hshows hgo

end Retrying

/-! ## All calls -/

section Follows

variable {τ Q : Type} {prior : List (NetCall Unit)}

/-- Where the call in progress is, if there is one. -/
def Located (prior : List (NetCall Unit)) (f : Holder Q) (a : CalledHolder τ Q) :
    Option (τ × HolderCall Q × Place) → Prop
  | none => a.state.backoff = none ∧ Shows prior f a.state.holder []
  | some (_, .sendRequest _, p) => a.state.backoff = none ∧ SendingAt prior f a.state.holder p
  | some (t, .retryConnection b, p) =>
      RetryingAt prior f b a.state p ∧
        (a.state.backoff ≠ none → a.backoffOf = some (t, .retryConnection b))

structure Follows (prior : List (NetCall Unit))
    (u : Serial τ (Holder Q) (HolderCall Q) Place Returned) (a : CalledHolder τ Q) : Prop where
  returned : u.returned = a.returned
  located : Located prior u.shared a u.running

variable {u u' : Serial τ (Holder Q) (HolderCall Q) Place Returned} {a : CalledHolder τ Q}

/-- The call of a try, in the list of the calls. -/
theorem Follows.afterTry {t : τ} {b : Bool} {f' : Holder Q} {st : HolderState}
    {r : Place ⊕ Returned} (h : u.returned = a.returned) (hr : RetryingTo prior f' b st r) :
    Follows prior (u.proceed t (.retryConnection b) (f', r))
      (a.afterTry t (.retryConnection b) st) := by
  unfold CalledHolder.afterTry
  cases r with
  | inl p =>
      obtain ⟨hback, hat⟩ := hr
      rw [if_neg hback]
      exact ⟨h, hat, fun _ => rfl⟩
  | inr result =>
      obtain ⟨hback, rfl, hshows⟩ := hr
      rw [if_pos hback]
      exact ⟨congrArg (· ++ [_]) h, hback, hshows⟩

/-- **A step of the one caller is a call on the holder, or nothing yet.** -/
theorem Follows.step (h : Follows prior u a) {act : SerialAct τ (HolderCall Q) Answer}
    (hs : serialStep Holder.guarded u act = some u') :
    Matched (Follows prior) CalledHolder.step (fun _ _ => True) a u' := by
  obtain ⟨hreturned, hlocated⟩ := h
  cases act with
  | start t op =>
      obtain ⟨hnone, hs⟩ := Option.ite_none_right_eq_some.mp hs
      obtain rfl := Option.some.inj hs
      rw [Option.isNone_iff_eq_none.mp hnone] at hlocated
      obtain ⟨hback, hshows⟩ := hlocated
      refine .stutter ⟨hreturned, ?_⟩
      cases op with
      | sendRequest req => exact ⟨hback, hshows⟩
      | retryConnection b => exact ⟨⟨rfl, hback, hshows⟩, fun hno => absurd hback hno⟩
  | go answer =>
      cases hrun : u.running with
      | none =>
          rw [serialStep, hrun] at hs
          cases hs
      | some call =>
          obtain ⟨t, op, p⟩ := call
          rw [serialStep, hrun] at hs
          obtain ⟨⟨f', r⟩, hgo, rfl⟩ := Option.map_eq_some_iff.mp hs
          rw [hrun] at hlocated
          cases op with
          | sendRequest req =>
              obtain ⟨hback, hat⟩ := hlocated
              have hto := hat.step hgo
              cases r with
              | inl p => exact .stutter ⟨hreturned, hback, hto⟩
              | inr result =>
                  obtain ⟨o, rfl, hshows⟩ := hto
                  have hsend : a.state.step (.sendRequest o) =
                      some ⟨(a.state.holder.sendRequest o).1, none⟩ := if_pos hback
                  have hstep : a.step (.sendRequest t req o) =
                      some ⟨⟨(a.state.holder.sendRequest o).1, none⟩, a.backoffOf,
                        a.returned ++ [(t, .sendRequest req,
                          .data (a.state.holder.sendRequest o).2)]⟩ := by
                    rw [CalledHolder.step, hsend]
                    rfl
                  exact .step trivial hstep ⟨congrArg (· ++ [_]) hreturned, rfl, hshows⟩
          | retryConnection b =>
              obtain ⟨hat, hof⟩ := hlocated
              cases hat.step hgo with
              | same hat' => exact .stutter ⟨hreturned, hat', hof⟩
              | @first _ o st' hst hr =>
                  have hstep : a.step (.retryConnection t b o) =
                      some (a.afterTry t (.retryConnection b) st') :=
                    congrArg (Option.map (a.afterTry t (.retryConnection b))) hst
                  exact .step trivial hstep (Follows.afterTry hreturned hr)
              | @again _ o st' hback hst hr =>
                  have hstep : a.step (.tryAgain o) =
                      some (a.afterTry t (.retryConnection b) st') := by
                    rw [CalledHolder.step, hof hback]
                    exact congrArg (Option.map (a.afterTry t (.retryConnection b))) hst
                  exact .step trivial hstep (Follows.afterTry hreturned hr)

end Follows

/-! ## Whose response it is

`heard` goes through the network calls and pairs every response with the request that was written
just before it. What a call returns is compared with that, step by step. -/

/-- The request that was written last, if a response can follow, and the responses that were read,
each with the request that was written just before on the same stream. -/
structure Heard (Q : Type) where
  due : Option (Nat × Q)
  got : List (Q × Int × List Char)

section Heard

variable {τ Q : Type}

def Heard.hear (w : Heard Q) : NetCall Q → Heard Q
  | .write stream req ec => ⟨if ec = 0 then some (stream, req) else none, w.got⟩
  | .read stream _ ec httpStatus body _ _ =>
      match w.due with
      | some (written, req) =>
          ⟨none, if written = stream ∧ ec = 0 then w.got ++ [(req, httpStatus, body)] else w.got⟩
      | none => ⟨none, w.got⟩
  | _ => ⟨none, w.got⟩

def heard (calls : List (NetCall Q)) : Heard Q := calls.foldl Heard.hear ⟨none, []⟩

/-- A request that has returned SUCCESS, and its response. -/
def responseOf : HolderCall Q → Returned → Option (Q × Int × List Char)
  | .sendRequest req, .data data =>
      if data.status = .SUCCESS then some (req, data.httpStatus, data.string) else none
  | _, _ => none

/-- A request returns a text with SUCCESS only, and an error code otherwise. -/
def FailsEmpty : Returned → Prop
  | .data data => data.status ≠ .SUCCESS → data.string = [] ∧ data.ec ≠ 0
  | .status _ => True

theorem heard_log (f : Holder Q) (c : NetCall Q) :
    heard (f.log c).calls = (heard f.calls).hear c := by
  show heard (f.calls ++ [c]) = _
  rw [heard, List.foldl_append]
  rfl

/-- A connection try reads no response. -/
theorem got_establishConnection (f : Holder Q) (a : Answer) (stage : ConnectStage) :
    (heard (f.establishConnection a stage).1.calls).got = (heard f.calls).got := by
  cases stage with
  | renew => rfl
  | resolve | connect | sni | handshake =>
      show (heard (f.log _).calls).got = _
      rw [heard_log]
      rfl

/-- After a connection try no response is read yet, and a request that gives up has none. -/
theorem connected_spec (f : Holder Q) (purpose : Purpose) (status : ConnectionStatus) :
    (f.connected purpose status).1.calls = f.calls ∧
      (∀ second, (f.connected purpose status).2 ≠ .inl (.exchange second .read)) ∧
      ∀ result, (f.connected purpose status).2 = .inr result →
        FailsEmpty result ∧ ∀ op : HolderCall Q, responseOf op result = none := by
  cases purpose with
  | upFront =>
      refine ⟨rfl, fun second heq => ?_, fun result heq => by cases heq⟩
      rw [Holder.connected] at heq
      split at heq <;> cases heq
  | again ec =>
      rw [Holder.connected]
      by_cases hup : status = .SUCCESS
      · rw [if_neg (not_not.mpr hup)]
        exact ⟨rfl, (fun _ heq => by cases heq), fun _ heq => by cases heq⟩
      · rw [if_pos hup]
        refine ⟨rfl, (fun _ heq => by cases heq), fun result heq => ?_⟩
        obtain rfl := Sum.inr.inj heq
        refine ⟨fun _ => ⟨rfl, ?_⟩, fun op => by cases op <;> rfl⟩
        show (if ec ≠ 0 then ec else not_connected) ≠ 0
        split
        · assumption
        · decide
  | retry b =>
      rw [Holder.connected]
      split
      · exact ⟨rfl, (fun _ heq => by cases heq), fun _ heq => by cases heq⟩
      · refine ⟨rfl, (fun _ heq => by cases heq), fun result heq => ?_⟩
        obtain rfl := Sum.inr.inj heq
        exact ⟨trivial, fun op => by cases op <;> rfl⟩
  | backoff interval =>
      have hstatus : ∀ status : ConnectionStatus, FailsEmpty (.status status) ∧
          ∀ op : HolderCall Q, responseOf op (.status status) = none :=
        fun _ => ⟨trivial, fun op => by cases op <;> rfl⟩
      rw [Holder.connected]
      split
      · refine ⟨rfl, (fun _ heq => by cases heq), fun result heq => ?_⟩
        obtain rfl := Sum.inr.inj heq
        exact hstatus _
      · split
        · refine ⟨rfl, (fun _ heq => by cases heq), fun result heq => ?_⟩
          obtain rfl := Sum.inr.inj heq
          exact hstatus _
        · exact ⟨rfl, (fun _ heq => by cases heq), fun _ heq => by cases heq⟩

/-- What a step of a call hears, and that it is what the call returns. -/
structure Hears (f f' : Holder Q) (op : HolderCall Q) (r : Place ⊕ Returned) : Prop where
  going : ∀ p, r = .inl p → (heard f'.calls).got = (heard f.calls).got
  returns : ∀ result, r = .inr result → FailsEmpty result ∧
    (heard f'.calls).got = (heard f.calls).got ++ (responseOf op result).toList
  due : ∀ req second, op = .sendRequest req → r = .inl (.exchange second .read) →
    (heard f'.calls).due = some (f'.stream, req)

variable {f f' : Holder Q} {op : HolderCall Q} {p : Place} {a : Answer} {r : Place ⊕ Returned}

/-- An exchange that failed: the request is made again, or gives up. -/
theorem hears_failed {f₁ : Holder Q} {second : Bool} {ec : ErrorCode} (hec : ec ≠ 0)
    (hgot : (heard f₁.calls).got = (heard f.calls).got)
    (hr : f₁.exchanged second .empty ec = (f', r)) : Hears f f' op r := by
  rw [Holder.exchanged, if_neg hec] at hr
  cases second with
  | false =>
      obtain ⟨rfl, rfl⟩ := Prod.mk.inj hr
      exact ⟨fun _ _ => hgot, (fun _ heq => by cases heq), fun _ _ _ heq => by cases heq⟩
  | true =>
      obtain ⟨rfl, rfl⟩ := Prod.mk.inj hr
      refine ⟨fun _ _ => hgot, fun result heq => ?_, fun _ _ _ heq => by cases heq⟩
      obtain rfl := Sum.inr.inj heq
      have hnone : responseOf op (.data { StreamData.empty with ec := ec }) = none := by
        cases op <;> rfl
      refine ⟨fun _ => ⟨rfl, hec⟩, ?_⟩
      rw [hnone]
      exact hgot.trans (List.append_nil _).symm

theorem hears_exchange_write {req : Q} {second : Bool}
    (hgo : f.go (.sendRequest req) (.exchange second .write) a = some (f', r)) :
    Hears f f' (.sendRequest req) r := by
  have hgot : (heard (f.log (.write f.stream req a.ec)).calls).got = (heard f.calls).got := by
    rw [heard_log]
    rfl
  rw [Holder.go, Holder.exchange] at hgo
  by_cases hec : a.ec = 0
  · rw [if_neg (not_not.mpr hec)] at hgo
    obtain ⟨rfl, rfl⟩ := Prod.mk.inj (Option.some.inj hgo)
    refine ⟨fun _ _ => hgot, (fun _ heq => by cases heq), fun req' second' hop _ => ?_⟩
    obtain rfl := HolderCall.sendRequest.inj hop
    rw [heard_log, Heard.hear, if_pos hec]
    rfl
  · rw [if_pos hec] at hgo
    exact hears_failed hec hgot (Option.some.inj hgo)

theorem hears_exchange_read {req : Q} {second : Bool}
    (hdue : (heard f.calls).due = some (f.stream, req))
    (hgo : f.go (.sendRequest req) (.exchange second .read) a = some (f', r)) :
    Hears f f' (.sendRequest req) r := by
  have hlog : heard (f.log
        (.read f.stream f.buffer a.ec a.httpStatus a.body a.keepAlive a.left)).calls =
      ⟨none, if a.ec = 0 then (heard f.calls).got ++ [(req, a.httpStatus, a.body)]
        else (heard f.calls).got⟩ := by
    rw [heard_log, Heard.hear, hdue]
    simp only [true_and]
  rw [Holder.go, Holder.exchange] at hgo
  dsimp only at hgo
  by_cases hec : a.ec = 0
  · rw [if_neg (not_not.mpr hec)] at hgo
    rw [if_pos hec] at hlog
    dsimp only at hgo
    rw [Holder.exchanged, if_pos rfl] at hgo
    obtain ⟨rfl, rfl⟩ := Prod.mk.inj (Option.some.inj hgo)
    refine ⟨(fun _ heq => by cases heq), fun result heq => ?_, fun _ _ _ heq => by cases heq⟩
    obtain rfl := Sum.inr.inj heq
    exact ⟨fun hno => absurd rfl hno, congrArg Heard.got hlog⟩
  · rw [if_pos hec] at hgo
    rw [if_neg hec] at hlog
    have hgot := congrArg Heard.got hlog
    refine hears_failed hec ?_ (Option.some.inj hgo)
    exact hgot

theorem hears_go
    (hdue : ∀ req second, op = .sendRequest req → p = .exchange second .read →
      (heard f.calls).due = some (f.stream, req))
    (hgo : f.go op p a = some (f', r)) : Hears f f' op r := by
  cases p with
  | check =>
      cases op with
      | retryConnection b => cases hgo
      | sendRequest req =>
          obtain ⟨rfl, rfl⟩ := Prod.mk.inj (Option.some.inj hgo)
          refine ⟨fun _ _ => rfl, (fun _ heq => by cases heq), fun _ _ _ heq => ?_⟩
          split at heq <;> cases heq
  | sleep interval =>
      cases op <;> obtain ⟨rfl, rfl⟩ := Prod.mk.inj (Option.some.inj hgo) <;>
        exact ⟨fun _ _ => rfl, (fun _ heq => by cases heq), fun _ _ _ heq => by cases heq⟩
  | connect purpose stage =>
      have hgot := got_establishConnection f a stage
      have hgo : (match f.establishConnection a stage with
          | (s, .inl next) => (s, Sum.inl (.connect purpose next))
          | (s, .inr status) => s.connected purpose status) = (f', r) := by
        cases op <;> exact Option.some.inj hgo
      rcases heq : f.establishConnection a stage with ⟨f₁, next | status⟩ <;> rw [heq] at hgo hgot
      · obtain ⟨rfl, rfl⟩ := Prod.mk.inj hgo
        exact ⟨fun _ _ => hgot, (fun _ heq => by cases heq), fun _ _ _ heq => by cases heq⟩
      · obtain ⟨hcalls, hread, hresult⟩ := connected_spec f₁ purpose status
        rw [show f₁.connected purpose status = (f', r) from hgo] at hcalls hread hresult
        have hgot' : (heard f'.calls).got = (heard f.calls).got := by rw [hcalls, hgot]
        refine ⟨fun _ _ => hgot', fun result heq => ?_, fun _ second _ heq => ?_⟩
        · obtain ⟨hempty, hnone⟩ := hresult result heq
          refine ⟨hempty, ?_⟩
          rw [hnone, hgot']
          exact (List.append_nil _).symm
        · exact absurd heq (hread second)
  | exchange second stage =>
      cases op with
      | retryConnection b => cases hgo
      | sendRequest req =>
          cases stage with
          | write => exact hears_exchange_write hgo
          | read => exact hears_exchange_read (hdue req second rfl rfl) hgo

/-- **What was read is what was returned.** -/
structure OwnResponses (u : Serial τ (Holder Q) (HolderCall Q) Place Returned) : Prop where
  got : (heard u.shared.calls).got = u.returned.filterMap fun e => responseOf e.2.1 e.2.2
  due : ∀ t req second, u.running = some (t, .sendRequest req, .exchange second .read) →
    (heard u.shared.calls).due = some (u.shared.stream, req)
  failed : ∀ e ∈ u.returned, FailsEmpty e.2.2

theorem OwnResponses.step {u u' : Serial τ (Holder Q) (HolderCall Q) Place Returned}
    (h : OwnResponses u) {act : SerialAct τ (HolderCall Q) Answer}
    (hs : serialStep Holder.guarded u act = some u') : OwnResponses u' := by
  cases act with
  | start t op =>
      obtain ⟨-, hs⟩ := Option.ite_none_right_eq_some.mp hs
      obtain rfl := Option.some.inj hs
      refine ⟨h.got, fun t' req second heq => ?_, h.failed⟩
      obtain ⟨-, heq⟩ := Prod.mk.inj (Option.some.inj heq)
      cases op <;> cases heq
  | go answer =>
      cases hrun : u.running with
      | none =>
          rw [serialStep, hrun] at hs
          cases hs
      | some call =>
          obtain ⟨t, op, p⟩ := call
          rw [serialStep, hrun] at hs
          obtain ⟨⟨f', r⟩, hgo, rfl⟩ := Option.map_eq_some_iff.mp hs
          have hhears : Hears u.shared f' op r := by
            refine hears_go (fun req second hop hp => ?_) hgo
            exact h.due t req second (by rw [hrun, hop, hp])
          cases r with
          | inl p' =>
              refine ⟨(hhears.going p' rfl).trans h.got, fun t' req second heq => ?_, h.failed⟩
              obtain ⟨-, heq⟩ := Prod.mk.inj (Option.some.inj heq)
              obtain ⟨hop, hp⟩ := Prod.mk.inj heq
              exact hhears.due req second hop (congrArg Sum.inl hp)
          | inr result =>
              obtain ⟨hempty, hgot⟩ := hhears.returns result rfl
              refine ⟨?_, (fun _ _ _ heq => by cases heq), fun e he => ?_⟩
              · show (heard f'.calls).got = (u.returned ++ [_]).filterMap _
                rw [hgot, h.got, List.filterMap_append, List.filterMap_cons, List.filterMap_nil]
                cases responseOf op result <;> rfl
              · rcases List.mem_append.mp he with he | he
                · exact h.failed e he
                · obtain rfl := List.mem_singleton.mp he
                  exact hempty

end Heard

section Main

variable {τ Q : Type} [DecidableEq τ] {waitTime : Int}
  {s : Callers (Spinlock.guard (τ := τ) waitTime) (Holder Q) (HolderCall Q) Place Returned}

/-- **The calls of the threads are calls one after the other.** Whatever any number of threads do
with a new holder, in whatever order their steps come and however the network calls end, their calls
return what the same calls return one after the other on the holder of `StreamHolder.lean`, in the
order in which they had the lock. Whenever no call is in progress the holder is in that state, with
the network calls of its log. -/
theorem shared_holder_serialised {policy : BackoffPolicy} {o : ConnectOutcome} {h : StreamHolder}
    (hnew : Reach HolderState.step (fun _ a => ∃ o, a = .tryAgain o) (.construct policy o)
      ⟨h, none⟩)
    (hreach : Reach (callersStep Holder.guarded) (fun _ _ => True)
      (Callers.start _ (.ofHolder h)) s) :
    ∃ a : CalledHolder τ Q, Reach CalledHolder.step (fun _ _ => True) (.new h) a ∧
      Reach HolderState.step (fun _ _ => True) (.construct policy o) a.state ∧
      WellRun a.state.holder.log ∧
      s.returned = a.returned ∧
      ((∀ t op p, s.calls t ≠ .inside op p) →
        a.state.backoff = none ∧ Shows (h.log.flatMap netCalls) s.shared a.state.holder []) := by
  obtain ⟨u, hserial, hone⟩ := oneByOne_of_reach hreach
  have hstart : Follows (h.log.flatMap netCalls) (Serial.start (.ofHolder h))
      (.new h : CalledHolder τ Q) := ⟨rfl, rfl, rfl, rfl, rfl, rfl, rfl⟩
  obtain ⟨a, hcalled, hfollows⟩ :=
    hserial.simulate hstart (fun _ _ _ _ hrel _ hs => hrel.step hs)
  have hholder := CalledHolder.reach_state (hnew.mono fun _ _ _ => trivial) hcalled
  have hlogged : Logged a.state.holder ∧ Trusted a.state.holder :=
    hholder.invariant (I := fun st => Logged st.holder ∧ Trusted st.holder)
      (logged_construct policy o) (fun _ _ _ hi _ hs => logged_step hi.1 hi.2 hs)
  refine ⟨a, hcalled, hholder, hlogged.1.wellRun, hone.returned.trans hfollows.returned, ?_⟩
  intro hno
  have hlocated := hfollows.located
  rw [hone.running_none hno, ← hone.shared] at hlocated
  exact hlocated

/-- **Each request gets its own response.** In every run of any threads the requests that have
returned SUCCESS have returned, in order, exactly the responses that were read, each to the request
written just before on the same stream; a request that fails returns no text and an error code. -/
theorem shared_holder_own_response {h : StreamHolder}
    (hreach : Reach (callersStep Holder.guarded) (fun _ _ => True)
      (Callers.start _ (.ofHolder h)) s) :
    (s.returned.filterMap fun e => responseOf e.2.1 e.2.2) = (heard s.shared.calls).got ∧
      ∀ e ∈ s.returned, FailsEmpty e.2.2 := by
  obtain ⟨u, hserial, hone⟩ := oneByOne_of_reach hreach
  have hown : OwnResponses u := by
    refine hserial.invariant ⟨rfl, ?_, ?_⟩ (fun _ _ _ hi _ hs => hi.step hs)
    · intro t req second heq
      cases heq
    · intro e he
      cases he
  rw [hone.returned, hone.shared]
  exact ⟨hown.got.symm, hown.failed⟩

/-- A holder that has come up at once. -/
def oneUp : StreamHolder := (HolderState.construct .standard ⟨0, 0, true, 0⟩).holder

def answered : Answer := ⟨0, 200, ['a'], true, 0⟩
def lost : Answer := ⟨32, 0, [], true, 0⟩

/-- Two requests at once; the first one gets the lock, and the connection is lost under the
second. -/
def twoRequests : List (CallersAct Bool (HolderCall Nat) Answer) :=
  [.call true (.sendRequest 7), .call false (.sendRequest 8), .ask true, .ask false,
    .go true answered, .go true answered, .ask false, .go true answered, .leave true, .ask false,
    .go false answered, .go false lost, .go false answered, .go false answered,
    .go false answered, .go false answered, .go false answered, .go false answered,
    .go false answered]

def afterTwoRequests :
    Option (Callers (Spinlock.guard (τ := Bool) 0) (Holder Nat) (HolderCall Nat) Place Returned) :=
  runFrom (callersStep Holder.guarded) (Callers.start _ (.ofHolder oneUp)) twoRequests

theorem reach_afterTwoRequests : Reach (callersStep Holder.guarded) (fun _ _ => True)
    (Callers.start _ (.ofHolder oneUp)) (afterTwoRequests.get rfl) :=
  Reach.refl.of_run (Option.some_get _).symm

theorem shared_holder_serialised_twoRequests :
    ∃ a : CalledHolder Bool Nat, Reach CalledHolder.step (fun _ _ => True) (.new oneUp) a ∧
      a.returned = [(true, .sendRequest 7, .data ⟨.SUCCESS, ['a'], 200, 0⟩),
        (false, .sendRequest 8, .data ⟨.SUCCESS, ['a'], 200, 0⟩)] := by
  have hnew : Reach HolderState.step (fun _ a => ∃ o, a = .tryAgain o)
      (.construct .standard ⟨0, 0, true, 0⟩) ⟨oneUp, none⟩ := .refl
  obtain ⟨a, hcalled, -, -, hreturned, -⟩ := shared_holder_serialised hnew reach_afterTwoRequests
  exact ⟨a, hcalled, hreturned.symm.trans rfl⟩

theorem shared_holder_own_response_twoRequests :
    (heard (afterTwoRequests.get rfl).shared.calls).got = [(7, 200, ['a']), (8, 200, ['a'])] :=
  (shared_holder_own_response reach_afterTwoRequests).1.symm.trans rfl

end Main

end AstraConnect.Core.Shared
