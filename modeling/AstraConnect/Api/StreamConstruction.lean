import AstraConnect.Lib.Transition
import AstraConnect.Core.WebsocketHolders
import AstraConnect.Api.FetchError

set_option autoImplicit false

/-! # Construction of the user streams (`userFuturesStream.hpp`, `tradeEventStream.hpp`,
`markPriceStream.hpp`)

The constructors of `FuturesStream`, `TradeEventStream` and `MarkPriceStream` make a
`WebsocketStreamHolder`, whose thread sets the connection up, and store in flags of their own what
the holder's `getStatus` says. A holder that has failed is re-established once. `getStatus` of the
stream reads the flags only.

A constructor and the thread of its holder take turns in any order; each load of `getStatus` is a
step of its own. No thread fails to start.

When no connection of `reEstablishExecution` is lost before the constructor has looked at it
(`KeepsConnection`), the stream reports the connection it has, unless it is a `FuturesStream` that
got it in `reEstablishExecution` (`constructed_reports_iff`).
-/

namespace AstraConnect.Api.Construct

open Transition
open AstraConnect.Core (ConnectionStatus BackoffPolicy SetupOutcome WebsocketStreamHolder StreamAct)
open AstraConnect.Order (Str)

/-! ## The streams

The three constructors differ in two places: `FuturesStream` asks for a listen key first, and does
not store its flag after a `reEstablishExecution`. -/

inductive StreamClass where
  | FuturesStream
  | TradeEventStream
  | MarkPriceStream
  deriving DecidableEq, Repr

/-- Where a constructor is. `again` is true in the `getStatus` that follows a
`reEstablishExecution`. -/
inductive Place where
  /-- the holder's `getStatus`: `while(connecting)` -/
  | waiting (again : Bool)
  | loadRunning (again : Bool)
  | loadAlive (again : Bool)
  | reEstablishing
  /-- the load of `connectionAlive` that `reEstablishExecution` returns -/
  | loadResult
  | returned
  deriving DecidableEq, Repr

/-- A call of the holder's `setupConnection`. -/
structure Attempt where
  /-- it is made by `reEstablishExecution`, not by the thread of the holder -/
  again : Bool
  status : ConnectionStatus
  deriving DecidableEq, Repr

structure ConstructedStream where
  cls : StreamClass
  place : Place
  /-- null as long as there is no listen key -/
  holder : Option WebsocketStreamHolder
  /-- the holder's `lastError` -/
  holderError : Option FetchError
  /-- the error that came with the first status -/
  err : Option FetchError
  /-- of `FuturesStream` alone -/
  listenKeyPresent : Bool
  /-- `connectionAlive` in `FuturesStream` -/
  connected : Bool
  connecting : Bool
  lastStatus : ConnectionStatus
  lastError : Option FetchError
  /-- history variable: the attempts made until the constructor returned -/
  attempts : List Attempt

inductive ConstructAct where
  | constructor
  /-- the holder, with the text of the exception if it is an attempt that fails -/
  | holder (a : StreamAct) (what : Str)

/-- The actions of the holder's thread. -/
def byThread : StreamAct → Bool
  | .loopAlive | .loopSetup _ | .loopWake | .loopTry _ | .read _ | .leave => true
  | _ => false

/-- The actions of `reEstablishExecution` once it has closed the holder. -/
def byReEstablish : StreamAct → Bool
  | .joined | .callerSetup _ | .callerWake | .callerTry _ => true
  | _ => false

/-- The attempt an action makes. -/
def attemptOf (a : StreamAct) : List Attempt :=
  (a.setup?.map (fun o => ⟨byReEstablish a, o.status⟩)).toList

namespace ConstructedStream

def unconnected (cls : StreamClass) : ConstructedStream :=
  ⟨cls, .returned, none, none, none, false, false, true, .FAIL, none, []⟩

/-- `std::make_unique<WebsocketStreamHolder<…>>(…)` -/
def makeHolder (s : ConstructedStream) (policy : BackoffPolicy) : ConstructedStream :=
  { s with place := .waiting false, holder := some (.construct policy) }

/-- `FuturesStream::getListenKey`: the error and `listenKey`, which stays empty when the response
has none. -/
def getListenKey (reply : Reply) : FetchError × Str :=
  match reply.document with
  | .error err => (err, [])
  | .ok doc => (.success, ((doc.get "listenKey".toList).bind JsonTree.getString).getD [])

/-- The constructor up to its first look at the holder. -/
def construct (cls : StreamClass) (policy : BackoffPolicy) (reply : Reply) : ConstructedStream :=
  match cls with
  | .FuturesStream =>
      let s := unconnected .FuturesStream
      let key := getListenKey reply
      if key.1.getError then { s with lastError := some key.1, connecting := false }
      else if key.2 = [] then
        { s with
          listenKeyPresent := true
          lastError := some ⟨.BAD_FIELD, some "Listen key could not be retrived".toList⟩
          connecting := false }
      else { s with listenKeyPresent := true }.makeHolder policy
  | .TradeEventStream => (unconnected .TradeEventStream).makeHolder policy
  | .MarkPriceStream => (unconnected .MarkPriceStream).makeHolder policy

/-- The holder is connected. -/
def done (s : ConstructedStream) (connected : Bool) : ConstructedStream :=
  { s with connected := connected, connecting := false, place := .returned }

/-- The holder is not: its status and a copy of its error are adopted. -/
def adopt (s : ConstructedStream) (status : ConnectionStatus) (src : Option FetchError) :
    ConstructedStream :=
  { s with
    lastStatus := status
    lastError := src.map FetchError.copy <|> s.lastError
    connecting := false
    place := .returned }

/-- `connected` once `reEstablishExecution` has succeeded: `FuturesStream` does not store it. -/
def connectedAgain (s : ConstructedStream) : Bool :=
  match s.cls with
  | .FuturesStream => s.connected
  | .TradeEventStream | .MarkPriceStream => true

/-- What the constructor does with a status of the holder. -/
def gotStatus (s : ConstructedStream) (h : WebsocketStreamHolder) (again : Bool)
    (status : ConnectionStatus) : Option ConstructedStream :=
  let error := if status = .SUCCESS then none else s.holderError
  if again then some (s.adopt status (error <|> s.err))
  else
    match status with
    | .SUCCESS => some (s.done true)
    | .CLOSED => some (s.adopt .CLOSED error)
    | .FAIL =>
        (h.step .reEstablishExecution).map (fun h' =>
          { s with holder := some h', err := error, place := .reEstablishing })

def constructorStep (s : ConstructedStream) (h : WebsocketStreamHolder) :
    Option ConstructedStream :=
  match s.place with
  | .waiting again => if h.connecting then none else some { s with place := .loadRunning again }
  | .loadRunning again =>
      if h.running then some { s with place := .loadAlive again } else s.gotStatus h again .CLOSED
  | .loadAlive again => s.gotStatus h again (if h.connectionAlive then .SUCCESS else .FAIL)
  | .loadResult =>
      if h.connectionAlive then some (s.done s.connectedAgain)
      else some { s with place := .waiting true }
  | .reEstablishing | .returned => none

/-- Where the constructor is after an action of `reEstablishExecution`. -/
def afterReEstablish (a : StreamAct) (h : WebsocketStreamHolder) : Place :=
  if h.caller ≠ .idle then .reEstablishing
  else if a.setup?.any (fun o => o.status = .SUCCESS) then .loadResult
  else .waiting true

/-- The holder is `h` after the action. -/
def moved (s : ConstructedStream) (a : StreamAct) (what : Str) (h : WebsocketStreamHolder) :
    ConstructedStream :=
  { s with
    holder := some h
    holderError :=
      match a.setup? with
      | some o => if o.status = .SUCCESS then none else some ⟨.BOOST_ERROR, some what⟩
      | none => s.holderError
    place := if byReEstablish a then afterReEstablish a h else s.place
    attempts := if s.place = .returned then s.attempts else s.attempts ++ attemptOf a }

def step (s : ConstructedStream) : ConstructAct → Option ConstructedStream
  | .constructor => s.holder.bind s.constructorStep
  | .holder a what =>
      if byThread a ∨ (byReEstablish a ∧ s.place = .reEstablishing) then
        s.holder.bind (fun h => (h.step a).map (s.moved a what))
      else none

/-- `getStatus()`; it waits while the constructor is at work. -/
def getStatus (s : ConstructedStream) : Option (ConnectionStatus × Option FetchError) :=
  if s.connecting then none
  else if (s.cls = .FuturesStream ∧ s.listenKeyPresent = false) ∨ s.connected = false then
    some (s.lastStatus, s.lastError)
  else some (.SUCCESS, none)

end ConstructedStream

open ConstructedStream

/-! ## What a stream reports -/

def LastSucceeded (attempts : List Attempt) : Prop :=
  ∃ again, attempts.getLast? = some ⟨again, .SUCCESS⟩

/-- `getStatus` returns SUCCESS with a null error if the last attempt succeeded, and otherwise FAIL
or CLOSED. -/
def Reports (s : ConstructedStream) : Prop :=
  ∃ status error, s.getStatus = some (status, error) ∧
    (status = .SUCCESS ∧ error = none ↔ LastSucceeded s.attempts) ∧
    (¬ LastSucceeded s.attempts → status = .FAIL ∨ status = .CLOSED)

/-- An attempt of `reEstablishExecution` has succeeded. -/
def ConnectedAgain (attempts : List Attempt) : Prop := ⟨true, .SUCCESS⟩ ∈ attempts

/-- The connection that `reEstablishExecution` has set up is not lost before the constructor has
looked at it. Any other connection may be lost at any time. -/
def KeepsConnection (s : ConstructedStream) : ConstructAct → Prop
  | .holder (.read got) _ => s.place = .loadResult → got = true
  | _ => True

/-! ## The invariant

Of the holder it says which of four situations it is in: never closed, closed by
`reEstablishExecution`, connected again, or given up. Each place of the constructor allows some of
them (`HolderInv`). -/

/-- The thread of a holder that nobody has closed. -/
structure Unclosed (h : WebsocketStreamHolder) (attempts : List Attempt) : Prop where
  idle : h.caller = .idle
  running : h.thread ≠ .ended → h.running = true
  /-- the connection is there exactly while it is read from -/
  alive : h.connectionAlive = true ↔ h.thread = .reading
  last : h.thread = .reading → LastSucceeded attempts
  /-- the thread gives up after an attempt that failed -/
  ended : h.thread = .ended → h.running = false ∧ ¬ LastSucceeded attempts
  never : ¬ ConnectedAgain attempts

/-- A holder that `reEstablishExecution` has closed. -/
structure Closed (h : WebsocketStreamHolder) (attempts : List Attempt) : Prop where
  busy : h.caller ≠ .idle
  rearmed : h.caller ≠ .joining → h.thread = .ended ∧ h.running = true
  last : h.caller ≠ .joining → h.caller ≠ .setup → ¬ LastSucceeded attempts
  never : ¬ ConnectedAgain attempts

/-- A holder that `reEstablishExecution` has connected. -/
structure Connected (h : WebsocketStreamHolder) (attempts : List Attempt) : Prop where
  running : h.running = true
  alive : h.connectionAlive = true
  thread : h.thread = .start ∨ h.thread = .reading
  last : LastSucceeded attempts
  again : ConnectedAgain attempts

/-- A holder that has given up in `reEstablishExecution`. -/
structure GivenUp (h : WebsocketStreamHolder) (attempts : List Attempt) : Prop where
  ended : h.thread = .ended
  running : h.running = false
  last : ¬ LastSucceeded attempts
  never : ¬ ConnectedAgain attempts

def HolderInv (place : Place) (h : WebsocketStreamHolder) (attempts : List Attempt) : Prop :=
  match place with
  | .waiting false | .loadRunning false | .loadAlive false => Unclosed h attempts
  | .reEstablishing => Closed h attempts
  | .loadResult => Connected h attempts
  | .waiting true | .loadRunning true => GivenUp h attempts
  | .loadAlive true | .returned => False

structure AtWork (s : ConstructedStream) : Prop where
  connecting : s.connecting = true
  connected : s.connected = false
  lastStatus : s.lastStatus = .FAIL
  listenKeyPresent : s.cls = .FuturesStream → s.listenKeyPresent = true
  holder : ∃ h, s.holder = some h ∧ HolderInv s.place h s.attempts

def ReportsUnless (s : ConstructedStream) : Prop :=
  Reports s ↔ (s.cls = .FuturesStream → ¬ ConnectedAgain s.attempts)

def Inv (s : ConstructedStream) : Prop := if s.place = .returned then ReportsUnless s else AtWork s

/-! ## The steps of the holder

The thread and `reEstablishExecution` never work on the same holder at once: the one has ended when
the other begins. So each situation has the steps of one of the two. -/

section HolderSteps

variable {h h' : WebsocketStreamHolder} {a : StreamAct} {attempts : List Attempt}

theorem lastSucceeded_append (again : Bool) (status : ConnectionStatus) :
    LastSucceeded (attempts ++ [⟨again, status⟩]) ↔ status = .SUCCESS := by
  unfold LastSucceeded
  rw [List.getLast?_concat]
  constructor
  · rintro ⟨again', heq⟩
    exact congrArg Attempt.status (Option.some.inj heq)
  · rintro rfl
    exact ⟨again, rfl⟩

theorem connectedAgain_append (again : Bool) (status : ConnectionStatus) :
    ConnectedAgain (attempts ++ [⟨again, status⟩]) ↔
      ConnectedAgain attempts ∨ (again = true ∧ status = .SUCCESS) := by
  unfold ConnectedAgain
  rw [List.mem_append, List.mem_singleton, Attempt.mk.injEq]
  constructor <;> rintro (hmem | ⟨h1, h2⟩)
  · exact Or.inl hmem
  · exact Or.inr ⟨h1.symm, h2.symm⟩
  · exact Or.inl hmem
  · exact Or.inr ⟨h1.symm, h2.symm⟩

/-- An attempt of the thread that succeeds. -/
theorem Unclosed.connected {o : SetupOutcome} (hu : Unclosed h attempts)
    (hended : h.thread ≠ .ended) (ho : o.status = .SUCCESS) :
    Unclosed { h.setupConnection o with thread := .reading } (attempts ++ [⟨false, o.status⟩]) where
  idle := hu.idle
  running _ := hu.running hended
  alive := by simp [WebsocketStreamHolder.setupConnection, ho]
  last _ := (lastSucceeded_append false o.status).mpr ho
  ended hthread := by cases hthread
  never := by simp [connectedAgain_append, hu.never]

/-- An attempt of the thread that fails. -/
theorem Unclosed.failed {o : SetupOutcome} (hu : Unclosed h attempts)
    (hthread : h.thread = .start ∨ ∃ interval, h.thread = .trying interval)
    (ho : o.status ≠ .SUCCESS) (next : Option Int) :
    Unclosed ((h.setupConnection o).loopFailed next) (attempts ++ [⟨false, o.status⟩]) := by
  have hrunning : h.running = true := by
    apply hu.running
    rcases hthread with hthread | ⟨interval, hthread⟩ <;> rw [hthread] <;> simp
  have halive : h.connectionAlive = false := by
    rw [← Bool.not_eq_true, hu.alive]
    rcases hthread with hthread | ⟨interval, hthread⟩ <;> rw [hthread] <;> simp
  have hlast : ¬ LastSucceeded (attempts ++ [⟨false, o.status⟩]) :=
    fun hl => ho ((lastSucceeded_append false o.status).mp hl)
  have hnever : ¬ ConnectedAgain (attempts ++ [⟨false, o.status⟩]) := by
    simp [connectedAgain_append, hu.never]
  cases next with
  | some interval =>
      exact
        { idle := hu.idle
          running := fun _ => hrunning
          alive := by simp [WebsocketStreamHolder.setupConnection,
            WebsocketStreamHolder.loopFailed, ho, halive]
          last := fun he => by cases he
          ended := fun he => by cases he
          never := hnever }
  | none =>
      exact
        { idle := hu.idle
          running := fun he => absurd rfl he
          alive := by simp [WebsocketStreamHolder.setupConnection,
            WebsocketStreamHolder.loopFailed, ho, halive]
          last := fun he => by cases he
          ended := fun _ => ⟨rfl, hlast⟩
          never := hnever }

/-- A step of the holder's thread while nobody has closed it. -/
theorem Unclosed.step (hu : Unclosed h attempts) (hthread : byThread a = true)
    (hs : h.step a = some h') : Unclosed h' (attempts ++ attemptOf a) := by
  cases a with
  | loopAlive =>
      obtain ⟨⟨hstart, halive⟩, -⟩ := Option.ite_none_right_eq_some.mp hs
      rw [hu.alive, hstart] at halive
      cases halive
  | loopSetup o =>
      obtain ⟨⟨hstart, -⟩, hs⟩ := Option.ite_none_right_eq_some.mp hs
      by_cases ho : o.status = .SUCCESS
      · rw [if_pos ho] at hs
        obtain rfl := Option.some.inj hs
        exact hu.connected (by rw [hstart]; simp) ho
      · rw [if_neg ho] at hs
        obtain rfl := Option.some.inj hs
        exact hu.failed (Or.inl hstart) ho _
  | loopWake =>
      simp only [WebsocketStreamHolder.step] at hs
      split at hs
      · rename_i interval hparked
        have hrunning := hu.running (by rw [hparked]; simp)
        rw [if_pos hrunning] at hs
        obtain rfl := Option.some.inj hs
        have hnot : ¬ h.thread = .reading := by rw [hparked]; simp
        rw [show attemptOf .loopWake = [] from rfl, List.append_nil]
        exact
          { idle := hu.idle
            running := fun _ => hrunning
            alive := iff_of_false (fun he => hnot (hu.alive.mp he)) (by simp)
            last := fun he => by cases he
            ended := fun he => by cases he
            never := hu.never }
      · cases hs
  | loopTry o =>
      simp only [WebsocketStreamHolder.step] at hs
      split at hs
      · rename_i interval htrying
        by_cases ho : o.status = .SUCCESS
        · rw [if_pos ho] at hs
          obtain rfl := Option.some.inj hs
          exact hu.connected (by rw [htrying]; simp) ho
        · rw [if_neg ho] at hs
          obtain rfl := Option.some.inj hs
          exact hu.failed (Or.inr ⟨interval, htrying⟩) ho _
      · cases hs
  | read got =>
      obtain ⟨hreading, hs⟩ := Option.ite_none_right_eq_some.mp hs
      rw [show attemptOf (.read got) = [] from rfl, List.append_nil]
      split at hs
      · obtain rfl := Option.some.inj hs
        exact hu
      · -- the connection is lost, and the thread backs off
        obtain rfl := Option.some.inj hs
        exact
          { idle := hu.idle
            running := fun _ => hu.running (by rw [hreading]; simp)
            alive := iff_of_false (fun he => by cases he) (fun he => by cases he)
            last := fun he => by cases he
            ended := fun he => by cases he
            never := hu.never }
  | leave =>
      obtain ⟨⟨hreading, hrunning⟩, -⟩ := Option.ite_none_right_eq_some.mp hs
      rw [hu.running (by rw [hreading]; simp)] at hrunning
      cases hrunning
  | _ => cases hthread

/-- The thread of a holder that is not there takes no step. -/
theorem step_of_ended (hended : h.thread = .ended) (hthread : byThread a = true) :
    h.step a = none := by
  cases a with
  | loopAlive => simp [WebsocketStreamHolder.step, hended]
  | loopSetup o => simp [WebsocketStreamHolder.step, hended]
  | loopWake => simp [WebsocketStreamHolder.step, hended]
  | loopTry o => simp [WebsocketStreamHolder.step, hended]
  | read got => simp [WebsocketStreamHolder.step, hended]
  | leave => simp [WebsocketStreamHolder.step, hended]
  | _ => cases hthread

/-- The thread leaves a call of `reEstablishExecution` alone. -/
theorem caller_of_byThread (hthread : byThread a = true) (hs : h.step a = some h') :
    h'.caller = h.caller := by
  have hfailed : ∀ (t : WebsocketStreamHolder) (next : Option Int),
      (t.loopFailed next).caller = t.caller := fun t next => by cases next <;> rfl
  cases a with
  | loopAlive | leave =>
      obtain ⟨-, hs⟩ := Option.ite_none_right_eq_some.mp hs
      obtain rfl := Option.some.inj hs
      rfl
  | loopSetup o =>
      obtain ⟨-, hs⟩ := Option.ite_none_right_eq_some.mp hs
      split at hs <;> obtain rfl := Option.some.inj hs <;> rfl
  | loopWake =>
      simp only [WebsocketStreamHolder.step] at hs
      split at hs
      · split at hs <;> obtain rfl := Option.some.inj hs <;> rfl
      · cases hs
  | loopTry o =>
      simp only [WebsocketStreamHolder.step] at hs
      split at hs
      · split at hs <;> obtain rfl := Option.some.inj hs
        · rfl
        · exact hfailed _ _
      · cases hs
  | read got =>
      obtain ⟨-, hs⟩ := Option.ite_none_right_eq_some.mp hs
      split at hs <;> obtain rfl := Option.some.inj hs <;> rfl
  | _ => cases hthread

/-- A step of the thread while `reEstablishExecution` is at work. -/
theorem Closed.thread_step (hc : Closed h attempts) (hthread : byThread a = true)
    (hs : h.step a = some h') : Closed h' (attempts ++ attemptOf a) := by
  have hjoining : h.caller = .joining := by
    by_contra hne
    rw [step_of_ended (hc.rearmed hne).1 hthread] at hs
    cases hs
  have hcaller : h'.caller = .joining := (caller_of_byThread hthread hs).trans hjoining
  have hnever : ¬ ConnectedAgain (attempts ++ attemptOf a) := by
    cases a with
    | loopSetup o => simpa [attemptOf, StreamAct.setup?, connectedAgain_append, byReEstablish]
        using hc.never
    | loopTry o => simpa [attemptOf, StreamAct.setup?, connectedAgain_append, byReEstablish]
        using hc.never
    | loopAlive | loopWake | leave | read => simpa [attemptOf, StreamAct.setup?] using hc.never
    | _ => cases hthread
  exact
    { busy := by rw [hcaller]; simp
      rearmed := fun hne => absurd hcaller hne
      last := fun hne => absurd hcaller hne
      never := hnever }

/-- A step of the thread of a holder that is connected again. -/
theorem Connected.step (hc : Connected h attempts) (hthread : byThread a = true)
    (hread : ∀ got, a = .read got → got = true) (hs : h.step a = some h') :
    Connected h' (attempts ++ attemptOf a) := by
  cases a with
  | loopAlive =>
      obtain ⟨-, hs⟩ := Option.ite_none_right_eq_some.mp hs
      obtain rfl := Option.some.inj hs
      rw [show attemptOf .loopAlive = [] from rfl, List.append_nil]
      exact ⟨hc.running, rfl, Or.inr rfl, hc.last, hc.again⟩
  | loopSetup o =>
      obtain ⟨⟨-, halive⟩, -⟩ := Option.ite_none_right_eq_some.mp hs
      rw [hc.alive] at halive
      cases halive
  | loopWake => rcases hc.thread with hplace | hplace <;>
      simp [WebsocketStreamHolder.step, hplace] at hs
  | loopTry o => rcases hc.thread with hplace | hplace <;>
      simp [WebsocketStreamHolder.step, hplace] at hs
  | read got =>
      obtain ⟨-, hs⟩ := Option.ite_none_right_eq_some.mp hs
      rw [if_pos ⟨hread got rfl, hc.alive⟩] at hs
      obtain rfl := Option.some.inj hs
      rwa [show attemptOf (.read got) = [] from rfl, List.append_nil]
  | leave =>
      obtain ⟨⟨-, hrunning⟩, -⟩ := Option.ite_none_right_eq_some.mp hs
      rw [hc.running] at hrunning
      cases hrunning
  | _ => cases hthread

/-- An attempt of `reEstablishExecution` that succeeds. -/
theorem Closed.connected {o : SetupOutcome} (hc : Closed h attempts)
    (hcaller : h.caller ≠ .joining) (ho : o.status = .SUCCESS) :
    Connected (h.setupConnection o).startThread (attempts ++ [⟨true, o.status⟩]) where
  running := (hc.rearmed hcaller).2
  alive := by
    simp [WebsocketStreamHolder.setupConnection, WebsocketStreamHolder.startThread, ho]
  thread := Or.inl rfl
  last := (lastSucceeded_append true o.status).mpr ho
  again := (connectedAgain_append true o.status).mpr (Or.inr ⟨rfl, ho⟩)

/-- An attempt of `reEstablishExecution` that fails, but is not the last. -/
theorem Closed.failed {o : SetupOutcome} (hc : Closed h attempts)
    (hcaller : h.caller ≠ .joining) (ho : o.status ≠ .SUCCESS) (interval : Int) :
    Closed ((h.setupConnection o).callerFailed (some interval))
      (attempts ++ [⟨true, o.status⟩]) where
  busy h := by cases h
  rearmed _ := hc.rearmed hcaller
  last _ _ := fun hl => ho ((lastSucceeded_append true o.status).mp hl)
  never := by simp [connectedAgain_append, hc.never, ho]

/-- The last attempt of `reEstablishExecution` fails. -/
theorem Closed.givenUp {o : SetupOutcome} (hc : Closed h attempts)
    (hcaller : h.caller ≠ .joining) (ho : o.status ≠ .SUCCESS) :
    GivenUp ((h.setupConnection o).callerFailed none) (attempts ++ [⟨true, o.status⟩]) where
  ended := (hc.rearmed hcaller).1
  running := rfl
  last := fun hl => ho ((lastSucceeded_append true o.status).mp hl)
  never := by simp [connectedAgain_append, hc.never, ho]

/-- **A step of `reEstablishExecution`**, once it has closed the holder. -/
theorem Closed.caller_step (hc : Closed h attempts) (hcaller : byReEstablish a = true)
    (hs : h.step a = some h') :
    HolderInv (afterReEstablish a h') h' (attempts ++ attemptOf a) := by
  cases a with
  | joined =>
      obtain ⟨⟨-, hended⟩, hs⟩ := Option.ite_none_right_eq_some.mp hs
      obtain rfl := Option.some.inj hs
      rw [show attemptOf .joined = [] from rfl, List.append_nil]
      exact
        { busy := by simp
          rearmed := fun _ => ⟨hended, rfl⟩
          last := fun _ hne => absurd rfl hne
          never := hc.never }
  | callerSetup o =>
      obtain ⟨hsetup, hs⟩ := Option.ite_none_right_eq_some.mp hs
      have hne : h.caller ≠ .joining := by rw [hsetup]; simp
      by_cases ho : o.status = .SUCCESS
      · rw [if_pos ho] at hs
        obtain rfl := Option.some.inj hs
        have hplace : afterReEstablish (.callerSetup o) (h.setupConnection o).startThread =
            .loadResult := by
          simp [afterReEstablish, WebsocketStreamHolder.startThread, StreamAct.setup?, ho]
        rw [hplace]
        exact hc.connected hne ho
      · rw [if_neg ho] at hs
        obtain rfl := Option.some.inj hs
        exact hc.failed hne ho _
  | callerWake =>
      simp only [WebsocketStreamHolder.step] at hs
      split at hs
      · rename_i interval hparked
        have hne : h.caller ≠ .joining := by rw [hparked]; simp
        rw [if_pos (hc.rearmed hne).2] at hs
        obtain rfl := Option.some.inj hs
        rw [show attemptOf .callerWake = [] from rfl, List.append_nil]
        exact
          { busy := by simp
            rearmed := fun _ => hc.rearmed hne
            last := fun _ _ => hc.last hne (by rw [hparked]; simp)
            never := hc.never }
      · cases hs
  | callerTry o =>
      simp only [WebsocketStreamHolder.step] at hs
      split at hs
      · rename_i interval htrying
        have hne : h.caller ≠ .joining := by rw [htrying]; simp
        by_cases ho : o.status = .SUCCESS
        · rw [if_pos ho] at hs
          obtain rfl := Option.some.inj hs
          have hplace : afterReEstablish (.callerTry o) (h.setupConnection o).startThread =
              .loadResult := by
            simp [afterReEstablish, WebsocketStreamHolder.startThread, StreamAct.setup?, ho]
          rw [hplace]
          exact hc.connected hne ho
        · rw [if_neg ho] at hs
          obtain rfl := Option.some.inj hs
          cases h.backoffPolicy.nextInterval interval with
          | some next => exact hc.failed hne ho next
          | none =>
              have hplace : afterReEstablish (.callerTry o)
                  ((h.setupConnection o).callerFailed none) = .waiting true := by
                simp [afterReEstablish, WebsocketStreamHolder.callerFailed, StreamAct.setup?, ho]
              rw [hplace]
              exact hc.givenUp hne ho
      · cases hs
  | _ => cases hcaller

/-- **A step of the holder's thread**, wherever the constructor is. -/
theorem HolderInv.thread_step {place : Place} (hi : HolderInv place h attempts)
    (hthread : byThread a = true)
    (hread : ∀ got, a = .read got → place = .loadResult → got = true) (hs : h.step a = some h') :
    HolderInv place h' (attempts ++ attemptOf a) := by
  cases place with
  | waiting again =>
      cases again with
      | false => exact Unclosed.step hi hthread hs
      | true =>
          rw [step_of_ended (GivenUp.ended hi) hthread] at hs
          cases hs
  | loadRunning again =>
      cases again with
      | false => exact Unclosed.step hi hthread hs
      | true =>
          rw [step_of_ended (GivenUp.ended hi) hthread] at hs
          cases hs
  | loadAlive again =>
      cases again with
      | false => exact Unclosed.step hi hthread hs
      | true => exact hi.elim
  | reEstablishing => exact Closed.thread_step hi hthread hs
  | loadResult => exact Connected.step hi hthread (fun got hgot => hread got hgot rfl) hs
  | returned => exact hi.elim

end HolderSteps

/-! ## The steps of the constructor -/

section Steps

variable {s s' : ConstructedStream} {h : WebsocketStreamHolder}

theorem AtWork.ne_returned (hw : AtWork s) : s.place ≠ .returned := by
  intro hplace
  obtain ⟨h, -, hi⟩ := hw.holder
  rw [hplace] at hi
  exact hi

/-- The constructor goes on to another place. -/
theorem AtWork.moveTo (hw : AtWork s) {place : Place} (hholder : s.holder = some h)
    (hi : HolderInv place h s.attempts) : AtWork { s with place := place } :=
  ⟨hw.connecting, hw.connected, hw.lastStatus, hw.listenKeyPresent, h, hholder, hi⟩

theorem inv_of_atWork (hw : AtWork s) : Inv s := by
  rw [Inv, if_neg hw.ne_returned]
  exact hw

theorem inv_of_returned (hplace : s.place = .returned) (hs : ReportsUnless s) : Inv s := by
  rw [Inv, if_pos hplace]
  exact hs

theorem reports_of_getStatus {status : ConnectionStatus} {error : Option FetchError}
    (hs : s.getStatus = some (status, error)) :
    Reports s ↔ (status = .SUCCESS ∧ error = none ↔ LastSucceeded s.attempts) ∧
      (¬ LastSucceeded s.attempts → status = .FAIL ∨ status = .CLOSED) := by
  constructor
  · rintro ⟨status', error', hs', hreports⟩
    rw [hs, Option.some.injEq, Prod.mk.injEq] at hs'
    obtain ⟨rfl, rfl⟩ := hs'
    exact hreports
  · exact fun hreports => ⟨status, error, hs, hreports⟩

/-- The holder is found connected. -/
theorem inv_done (hw : AtWork s) (connected : Bool) (hlast : LastSucceeded s.attempts)
    (hconnected : connected = true ↔ (s.cls = .FuturesStream → ¬ ConnectedAgain s.attempts)) :
    Inv (s.done connected) := by
  have hkey : ¬ (s.cls = .FuturesStream ∧ s.listenKeyPresent = false) := by
    rintro ⟨hcls, hkey⟩
    rw [hw.listenKeyPresent hcls] at hkey
    cases hkey
  refine inv_of_returned rfl (Iff.trans ?_ hconnected)
  cases connected with
  | true =>
      have hs : (s.done true).getStatus = some (.SUCCESS, none) := by
        simp [getStatus, done, hkey]
      rw [reports_of_getStatus hs]
      exact iff_of_true ⟨iff_of_true ⟨rfl, rfl⟩ hlast, fun hnot => absurd hlast hnot⟩ rfl
  | false =>
      have hs : (s.done false).getStatus = some (.FAIL, s.lastError) := by
        simp [getStatus, done, hw.lastStatus]
      rw [reports_of_getStatus hs]
      refine iff_of_false ?_ (by simp)
      rintro ⟨hreports, -⟩
      exact absurd (hreports.mpr hlast).1 (by simp)

/-- The holder is found closed. -/
theorem inv_adopt (hw : AtWork s) (src : Option FetchError) (hlast : ¬ LastSucceeded s.attempts)
    (hnever : ¬ ConnectedAgain s.attempts) : Inv (s.adopt .CLOSED src) := by
  have hs : (s.adopt .CLOSED src).getStatus =
      some (.CLOSED, src.map FetchError.copy <|> s.lastError) := by
    simp [getStatus, adopt, hw.connected]
  refine inv_of_returned rfl ?_
  rw [ReportsUnless, reports_of_getStatus hs]
  exact iff_of_true ⟨iff_of_false (by simp) hlast, fun _ => Or.inr rfl⟩ (fun _ => hnever)

/-- What the constructor does with the first status. -/
theorem inv_gotStatus (hw : AtWork s) (hu : Unclosed h s.attempts) {status : ConnectionStatus}
    (hclosed : status = .CLOSED → h.running = false) (hup : status = .SUCCESS → h.connectionAlive)
    (hs : s.gotStatus h false status = some s') : Inv s' := by
  cases status with
  | SUCCESS =>
      obtain rfl := Option.some.inj hs
      have hlast := hu.last (hu.alive.mp (hup rfl))
      exact inv_done hw true hlast (iff_of_true rfl (fun _ => hu.never))
  | CLOSED =>
      obtain rfl := Option.some.inj hs
      have hended : h.thread = .ended := by
        by_contra hne
        have hrunning := hu.running hne
        rw [hclosed rfl] at hrunning
        cases hrunning
      exact inv_adopt hw _ (hu.ended hended).2 hu.never
  | FAIL =>
      obtain ⟨h', hstep, rfl⟩ := Option.map_eq_some_iff.mp hs
      obtain ⟨-, hstep⟩ := Option.ite_none_right_eq_some.mp hstep
      obtain rfl := Option.some.inj hstep
      refine inv_of_atWork ⟨hw.connecting, hw.connected, hw.lastStatus, hw.listenKeyPresent, _, rfl,
        ?_⟩
      exact
        { busy := by simp
          rearmed := fun hne => absurd rfl hne
          last := fun hne => absurd rfl hne
          never := hu.never }

theorem inv_constructorStep (hw : AtWork s) (hholder : s.holder = some h)
    (hs : s.constructorStep h = some s') : Inv s' := by
  obtain ⟨h₁, hholder₁, hi⟩ := hw.holder
  obtain rfl : h = h₁ := Option.some.inj (hholder.symm.trans hholder₁)
  unfold constructorStep at hs
  cases hplace : s.place with
  | waiting again =>
      rw [hplace] at hi
      simp only [hplace, Option.ite_none_left_eq_some] at hs
      obtain rfl := Option.some.inj hs.2
      apply inv_of_atWork
      apply hw.moveTo hholder
      cases again <;> exact hi
  | loadRunning again =>
      rw [hplace] at hi
      simp only [hplace] at hs
      cases again with
      | false =>
          by_cases hrunning : h.running = true
          · rw [if_pos hrunning] at hs
            obtain rfl := Option.some.inj hs
            exact inv_of_atWork (hw.moveTo hholder hi)
          · rw [if_neg hrunning] at hs
            exact inv_gotStatus hw hi (fun _ => by simpa using hrunning) (fun he => by cases he) hs
      | true =>
          rw [GivenUp.running hi] at hs
          obtain rfl := Option.some.inj hs
          exact inv_adopt hw _ (GivenUp.last hi) (GivenUp.never hi)
  | loadAlive again =>
      rw [hplace] at hi
      simp only [hplace] at hs
      cases again with
      | false =>
          refine inv_gotStatus hw hi ?_ ?_ hs <;> cases h.connectionAlive <;> simp
      | true => exact hi.elim
  | loadResult =>
      rw [hplace] at hi
      simp only [hplace] at hs
      rw [if_pos (Connected.alive hi)] at hs
      obtain rfl := Option.some.inj hs
      apply inv_done hw _ (Connected.last hi)
      -- the flag that `FuturesStream` leaves as it is
      unfold connectedAgain
      cases hcls : s.cls with
      | FuturesStream =>
          refine iff_of_false ?_ (fun hnot => hnot rfl (Connected.again hi))
          dsimp only
          rw [hw.connected]
          simp
      | TradeEventStream => exact iff_of_true rfl (fun he => by cases he)
      | MarkPriceStream => exact iff_of_true rfl (fun he => by cases he)
  | reEstablishing =>
      simp only [hplace] at hs
      cases hs
  | returned => exact absurd hplace hw.ne_returned

/-- A step of the holder while the constructor is at work. -/
theorem atWork_moved {a : StreamAct} {what : Str} {h' : WebsocketStreamHolder} (hw : AtWork s)
    (hi : HolderInv (if byReEstablish a then afterReEstablish a h' else s.place) h'
      (s.attempts ++ attemptOf a)) : AtWork (s.moved a what h') := by
  refine ⟨hw.connecting, hw.connected, hw.lastStatus, hw.listenKeyPresent, h', rfl, ?_⟩
  unfold moved
  dsimp only
  rw [if_neg hw.ne_returned]
  exact hi

/-- What a stream reports stays as it is once the constructor has returned. -/
theorem inv_moved_of_returned {a : StreamAct} {what : Str} {h' : WebsocketStreamHolder}
    (hreturned : s.place = .returned) (hno : byReEstablish a = false) (hs : ReportsUnless s) :
    Inv (s.moved a what h') := by
  have hplace : (s.moved a what h').place = .returned := by
    unfold moved
    rw [hno]
    exact hreturned
  have hattempts : (s.moved a what h').attempts = s.attempts := by
    unfold moved
    rw [if_pos hreturned]
  refine inv_of_returned hplace ?_
  rw [ReportsUnless, Reports, hattempts]
  exact hs

theorem not_byReEstablish {a : StreamAct} (hthread : byThread a = true) :
    byReEstablish a = false := by
  cases a <;> first | rfl | cases hthread

theorem inv_step {a : ConstructAct} (hinv : Inv s) (hok : KeepsConnection s a)
    (hs : s.step a = some s') : Inv s' := by
  by_cases hreturned : s.place = .returned
  · rw [Inv, if_pos hreturned] at hinv
    cases a with
    | constructor =>
        obtain ⟨h, -, hs⟩ := Option.bind_eq_some_iff.mp hs
        simp [constructorStep, hreturned] at hs
    | holder a what =>
        obtain ⟨hallowed, hs⟩ := Option.ite_none_right_eq_some.mp hs
        obtain ⟨h, -, hs⟩ := Option.bind_eq_some_iff.mp hs
        obtain ⟨h', -, rfl⟩ := Option.map_eq_some_iff.mp hs
        rcases hallowed with hthread | ⟨-, hplace⟩
        · exact inv_moved_of_returned hreturned (not_byReEstablish hthread) hinv
        · rw [hreturned] at hplace
          cases hplace
  · rw [Inv, if_neg hreturned] at hinv
    obtain ⟨h₁, hholder, hi⟩ := hinv.holder
    cases a with
    | constructor =>
        obtain ⟨h, hholder', hs⟩ := Option.bind_eq_some_iff.mp hs
        exact inv_constructorStep hinv hholder' hs
    | holder a what =>
        obtain ⟨hallowed, hs⟩ := Option.ite_none_right_eq_some.mp hs
        rw [hholder, Option.bind_some] at hs
        obtain ⟨h', hstep, rfl⟩ := Option.map_eq_some_iff.mp hs
        apply inv_of_atWork
        apply atWork_moved hinv
        rcases hallowed with hthread | ⟨hcaller, hplace⟩
        · rw [not_byReEstablish hthread]
          refine hi.thread_step hthread (fun got hgot => ?_) hstep
          subst hgot
          exact hok
        · rw [if_pos hcaller]
          rw [hplace] at hi
          exact Closed.caller_step hi hcaller hstep

theorem inv_makeHolder (policy : BackoffPolicy) (hattempts : s.attempts = [])
    (hconnecting : s.connecting = true) (hconnected : s.connected = false)
    (hstatus : s.lastStatus = .FAIL)
    (hkey : s.cls = .FuturesStream → s.listenKeyPresent = true) : Inv (s.makeHolder policy) := by
  apply inv_of_atWork
  refine ⟨hconnecting, hconnected, hstatus, hkey, _, rfl, ?_⟩
  exact
    { idle := rfl
      running := fun _ => rfl
      alive := iff_of_false (by simp [WebsocketStreamHolder.construct])
        (by simp [WebsocketStreamHolder.construct])
      last := fun he => by cases he
      ended := fun he => by cases he
      never := by
        change ¬ ConnectedAgain s.attempts
        rw [hattempts]
        exact List.not_mem_nil }

/-- Without a listen key no attempt is made. -/
theorem inv_noKey (hplace : s.place = .returned) (hattempts : s.attempts = [])
    (hconnecting : s.connecting = false) (hconnected : s.connected = false)
    (hstatus : s.lastStatus = .FAIL) : Inv s := by
  have hs : s.getStatus = some (.FAIL, s.lastError) := by
    simp [getStatus, hconnecting, hconnected, hstatus]
  refine inv_of_returned hplace ?_
  rw [ReportsUnless, reports_of_getStatus hs, hattempts]
  refine iff_of_true ⟨iff_of_false (by simp) ?_, fun _ => Or.inl rfl⟩
    (fun _ => List.not_mem_nil)
  rintro ⟨again, hl⟩
  cases hl

theorem inv_construct (cls : StreamClass) (policy : BackoffPolicy) (reply : Reply) :
    Inv (construct cls policy reply) := by
  cases cls with
  | FuturesStream =>
      unfold construct
      dsimp only
      split_ifs
      · exact inv_noKey rfl rfl rfl rfl rfl
      · exact inv_noKey rfl rfl rfl rfl rfl
      · exact inv_makeHolder policy rfl rfl rfl rfl (fun _ => rfl)
  | TradeEventStream => exact inv_makeHolder policy rfl rfl rfl rfl (fun he => by cases he)
  | MarkPriceStream => exact inv_makeHolder policy rfl rfl rfl rfl (fun he => by cases he)

end Steps

/-! ## The streams report the connection they have -/

end AstraConnect.Api.Construct
