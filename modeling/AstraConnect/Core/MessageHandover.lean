import AstraConnect.Lib.Transition
import AstraConnect.Core.StreamHolder

set_option autoImplicit false

/-! # The messages a stream hands over (`WebsocketStreamHolder::executionLoop`)

`executionLoop` passes to `func` what `getLatestMessage` has read, and the empty text when nothing
was read, which also ends the connection. All reads go through one `buffer`, which is emptied after
a read that succeeds only.

One call of `executionLoop` runs here, on a buffer that may hold anything, with a log of the
connections it sets up, the messages it reads and the texts it passes. Other threads may clear
`connectionAlive` and `running` between any two of its steps.

In the runs in which no connection is set up with a message in hand (`NoneInHand`), the texts passed
are whole messages if and only if no read that finds bytes left over in the buffer has its text
passed (`hands_over_iff`). Of the other runs this says nothing: the two conditions together are
enough for whole messages, and only the second is shown to be necessary.
-/

namespace AstraConnect.Core.Handover

open Transition

/-! ## The loop -/

inductive Event where
  /-- `setupConnection` has succeeded -/
  | connected
  /-- a read that found `leftover` in the buffer and was completed by `message` -/
  | received (leftover message : List Char)
  /-- a call of `func` -/
  | passed (json : List Char)
  deriving DecidableEq, Repr

/-- Where `executionLoop` is. `inLoop` is false in the `exponentialBackOff` before the loop. -/
inductive Place where
  /-- `if(!connectionAlive) status = setupConnection()` -/
  | entry
  | settingUp
  /-- `exponentialBackOff`: `keepGoing()` before the wait -/
  | checking (inLoop : Bool) (interval : Int)
  /-- in `waitFor`; it ends with `keepGoing()` -/
  | parked (inLoop : Bool) (interval : Int)
  /-- `exponentialBackOff`: in `setupConnection` -/
  | trying (inLoop : Bool) (interval : Int)
  /-- `connectionAlive.store(true)` before the loop -/
  | storing
  /-- `while(running)` -/
  | head
  /-- `getLatestMessage`: `if(connectionAlive)` -/
  | loading
  /-- `getLatestMessage`: `ws.read(buffer, ec)` -/
  | reading
  /-- `if(json.length() == 0) connectionAlive.store(false)` -/
  | clearing
  /-- `if(!connectionAlive) status = exponentialBackOff()` -/
  | deciding
  /-- about to call `func` -/
  | passing
  | ended
  deriving DecidableEq, Repr

structure Loop where
  place : Place
  buffer : List Char
  json : List Char
  connectionAlive : Bool
  running : Bool
  /-- history variable -/
  log : List Event
  deriving DecidableEq, Repr

inductive Act where
  /-- a step of `executionLoop` outside `setupConnection` and `ws.read` -/
  | loop
  /-- `setupConnection` returns -/
  | setup (succeeded : Bool)
  /-- `ws.read` appends a message -/
  | read (message : List Char)
  /-- `ws.read` fails after it has appended some bytes -/
  | readFails (part : List Char)
  /-- another thread stores `connectionAlive = false` -/
  | clearAlive
  /-- another thread stores `running = false` -/
  | clearRunning
  deriving DecidableEq, Repr

namespace Loop

def moveTo (s : Loop) (place : Place) : Loop := { s with place := place }

/-- `running.store(false)`, and the end of the thread. -/
def stop (s : Loop) : Loop := { s with running := false, place := .ended }

/-- A step outside `setupConnection` and `ws.read`. -/
def loopStep (s : Loop) (p : BackoffPolicy) : Option Loop :=
  match s.place with
  | .entry => some (s.moveTo (if s.connectionAlive then .storing else .settingUp))
  | .checking inLoop interval =>
      some (if s.running then s.moveTo (.parked inLoop interval) else s.stop)
  | .parked inLoop interval =>
      some (if s.running then s.moveTo (.trying inLoop interval) else s.stop)
  | .storing => some { s with connectionAlive := true, place := .head }
  | .head => some (s.moveTo (if s.running then .loading else .ended))
  | .loading =>
      some (if s.connectionAlive then s.moveTo .reading
        else { s with json := [], place := .clearing })
  | .clearing =>
      some { s with
        connectionAlive := if s.json = [] then false else s.connectionAlive
        place := .deciding }
  | .deciding =>
      some (s.moveTo (if s.connectionAlive then .passing else .checking true p.delay))
  | .passing => some { s with log := s.log ++ [.passed s.json], place := .head }
  | .settingUp | .trying _ _ | .reading | .ended => none

/-- `setupConnection` succeeds. -/
def connect (s : Loop) (place : Place) : Loop :=
  { s with connectionAlive := true, log := s.log ++ [.connected], place := place }

def step (p : BackoffPolicy) (s : Loop) : Act → Option Loop
  | .loop => s.loopStep p
  | .setup succeeded =>
      match s.place with
      | .settingUp =>
          some (if succeeded then s.connect .storing else s.moveTo (.checking false p.delay))
      | .trying inLoop interval =>
          if succeeded then some (s.connect (if inLoop then .passing else .storing))
          else
            match p.nextInterval interval with
            | some next => some (s.moveTo (.checking inLoop next))
            | none => some s.stop
      | _ => none
  | .read message =>
      if s.place = .reading then
        some { s with
          json := s.buffer ++ message
          buffer := []
          log := s.log ++ [.received s.buffer message]
          place := .clearing }
      else none
  | .readFails part =>
      -- the bytes stay in the buffer
      if s.place = .reading then
        some { s with json := [], buffer := s.buffer ++ part, place := .clearing }
      else none
  | .clearAlive => some { s with connectionAlive := false }
  | .clearRunning => some { s with running := false }

/-- A thread begins `executionLoop`. -/
def start (buffer : List Char) (connectionAlive running : Bool) : Loop :=
  ⟨.entry, buffer, [], connectionAlive, running, []⟩

end Loop

open Loop

/-! ## Whole messages

What the claim about the loop is made of. It is read off the log: a `received` right before a
`passed` is the read whose text was passed. -/

/-- The messages that were read. -/
def messagesOf (log : List Event) : List (List Char) :=
  log.filterMap fun
    | .received _ message => some message
    | _ => none

/-- The non-empty texts that were passed. -/
def textsOf (log : List Event) : List (List Char) :=
  log.filterMap fun
    | .passed json => if json = [] then none else some json
    | _ => none

/-- What the loop owes to `func`. -/
structure HandsOver (log : List Event) : Prop where
  /-- no message is passed twice, and none out of order -/
  once : (textsOf log).Sublist (messagesOf log)
  /-- a text passed is the message that was read right before -/
  whole : ∀ before json after, log = before ++ .passed json :: after → json ≠ [] →
    ∃ earlier leftover, before = earlier ++ [.received leftover json]
  /-- between the messages of two connections the empty text is passed -/
  gap : ∀ before json between next after,
    log = before ++ .passed json :: (between ++ .passed next :: after) → json ≠ [] → next ≠ [] →
      .connected ∈ between → .passed [] ∈ between

/-- A message whose text is passed was read into an empty buffer. -/
def ReadClean (log : List Event) : Prop :=
  ∀ before leftover message json after,
    log = before ++ .received leftover message :: .passed json :: after → json ≠ [] →
      leftover = []

/-- No connection is set up with a message in hand: `connectionAlive` was not cleared by another
thread while the message was read, with `running` cleared too late to stop the backoff. -/
def NoneInHand (s : Loop) : Act → Prop
  | .setup true => s.json = []
  | _ => True

instance (s : Loop) : (a : Act) → Decidable (NoneInHand s a)
  | .setup true => inferInstanceAs (Decidable (s.json = []))
  | .setup false | .loop | .read _ | .readFails _ | .clearAlive | .clearRunning => isTrue trivial

/-! ## Logs

Events are added at the end of a log, one step at a time, and each property of a log is kept by an
event of a kind. `Preceded` and `Gapped` hold of every log of the loop, and with them whole
messages come down to clean reads. -/

section Logs

variable {log before after : List Event} {e x : Event}

/-- An event of a longer log is the last one, or one of the log. -/
theorem concat_eq_append_cons (h : log ++ [e] = before ++ x :: after) :
    (after = [] ∧ log = before ∧ e = x) ∨
      ∃ after', after = after' ++ [e] ∧ log = before ++ x :: after' := by
  rcases List.eq_nil_or_concat after with rfl | ⟨after', y, rfl⟩
  · obtain ⟨hlog, he⟩ := List.append_inj' h rfl
    exact Or.inl ⟨rfl, hlog, List.singleton_inj.mp he⟩
  · rw [List.concat_eq_append] at h
    have hcons : before ++ x :: (after' ++ [y]) = (before ++ x :: after') ++ [y] := by simp
    rw [hcons] at h
    obtain ⟨hlog, he⟩ := List.append_inj' h rfl
    obtain rfl := List.singleton_inj.mp he
    exact Or.inr ⟨after', by rw [List.concat_eq_append], hlog⟩

/-- A text passed is what the read right before it made. -/
def Preceded (log : List Event) : Prop :=
  ∀ before json after, log = before ++ .passed json :: after → json ≠ [] →
    ∃ earlier leftover message, before = earlier ++ [.received leftover message] ∧
      json = leftover ++ message

/-- The empty text has been passed since the last connection, if a message was passed before. -/
def Settled (log : List Event) : Prop :=
  ∀ before json between, log = before ++ .passed json :: between → json ≠ [] →
    .connected ∈ between → .passed [] ∈ between

/-- Between the messages of two connections the empty text is passed. -/
def Gapped (log : List Event) : Prop :=
  ∀ before json between next after,
    log = before ++ .passed json :: (between ++ .passed next :: after) → json ≠ [] → next ≠ [] →
      .connected ∈ between → .passed [] ∈ between

/-- An event that is no call of `func`. -/
def Event.quiet : Event → Prop
  | .passed _ => False
  | _ => True

theorem Preceded.concat (h : Preceded log) (he : e.quiet) : Preceded (log ++ [e]) := by
  intro before json after heq hjson
  rcases concat_eq_append_cons heq with ⟨-, -, rfl⟩ | ⟨after', -, hlog⟩
  · exact he.elim
  · exact h before json after' hlog hjson

theorem Gapped.concat (h : Gapped log) (he : e.quiet) : Gapped (log ++ [e]) := by
  intro before json between next after heq hjson hnext
  have hassoc : before ++ Event.passed json :: (between ++ .passed next :: after) =
      (before ++ .passed json :: between) ++ .passed next :: after := by simp
  rw [hassoc] at heq
  rcases concat_eq_append_cons heq with ⟨-, -, rfl⟩ | ⟨after', -, hlog⟩
  · exact he.elim
  · refine h before json between next after' ?_ hjson hnext
    rw [hlog]
    simp

/-- A call of `func` where nothing is owed. -/
theorem Gapped.concat_passed (h : Gapped log) (next : List Char)
    (hsettled : next ≠ [] → Settled log) : Gapped (log ++ [.passed next]) := by
  intro before json between next' after heq hjson hnext
  have hassoc : before ++ Event.passed json :: (between ++ .passed next' :: after) =
      (before ++ .passed json :: between) ++ .passed next' :: after := by simp
  rw [hassoc] at heq
  rcases concat_eq_append_cons heq with ⟨-, hlog, he⟩ | ⟨after', -, hlog⟩
  · obtain rfl : next = next' := by simpa using he
    exact hsettled hnext before json between hlog hjson
  · refine h before json between next' after' ?_ hjson hnext
    rw [hlog]
    simp

/-- Only a connection unsettles a log. -/
theorem Settled.concat (h : Settled log) (he : e ≠ .connected) : Settled (log ++ [e]) := by
  intro before json between heq hjson hmem
  rcases concat_eq_append_cons heq with ⟨rfl, -, -⟩ | ⟨between', rfl, hlog⟩
  · exact absurd hmem List.not_mem_nil
  · rw [List.mem_append, List.mem_singleton] at hmem
    rcases hmem with hmem | hmem
    · exact List.mem_append_left _ (h before json between' hlog hjson hmem)
    · exact absurd hmem.symm he

theorem settled_concat_empty (log : List Event) : Settled (log ++ [.passed []]) := by
  intro before json between heq hjson _
  rcases concat_eq_append_cons heq with ⟨-, -, he⟩ | ⟨between', rfl, -⟩
  · exact absurd (by simpa using he.symm) hjson
  · simp

theorem Preceded.concat_passed (h : Preceded log) (json : List Char)
    (hlast : json ≠ [] → ∃ earlier leftover message, log = earlier ++ [.received leftover message] ∧
      json = leftover ++ message) : Preceded (log ++ [.passed json]) := by
  intro before json' after heq hjson
  rcases concat_eq_append_cons heq with ⟨-, rfl, he⟩ | ⟨after', -, hlog⟩
  · obtain rfl : json = json' := by simpa using he
    exact hlast hjson
  · exact h before json' after' hlog hjson

theorem sublist_of_whole
    (hwhole : ∀ before json after, log = before ++ .passed json :: after → json ≠ [] →
      ∃ earlier leftover, before = earlier ++ [.received leftover json]) :
    (textsOf log).Sublist (messagesOf log) := by
  -- the message that was read last may still be passed: induction on the log, from its end
  suffices h : (textsOf log).Sublist (messagesOf log) ∧
      ∀ earlier leftover message, log = earlier ++ [.received leftover message] →
        (textsOf log ++ [message]).Sublist (messagesOf log) from h.1
  induction log using List.reverseRecOn with
  | nil => exact ⟨List.Sublist.refl [], fun earlier leftover message heq => by simp at heq⟩
  | append_singleton log e ih =>
      obtain ⟨hsub, hlast⟩ := ih (fun before json after heq =>
        hwhole before json (after ++ [e]) (by rw [heq]; simp))
      have htexts : textsOf (log ++ [e]) = textsOf log ++ textsOf [e] := List.filterMap_append
      have hmessages : messagesOf (log ++ [e]) = messagesOf log ++ messagesOf [e] :=
        List.filterMap_append
      rw [htexts, hmessages]
      cases e with
      | connected =>
          refine ⟨by simpa [textsOf, messagesOf] using hsub, ?_⟩
          intro earlier leftover message heq
          have he := (List.append_inj' heq rfl).2
          simp at he
      | received leftover message =>
          have hsame : textsOf [.received leftover message] = [] := rfl
          have hnew : messagesOf [.received leftover message] = [message] := rfl
          rw [hsame, hnew, List.append_nil]
          refine ⟨hsub.trans (List.sublist_append_left _ _), ?_⟩
          intro earlier leftover' message' heq
          have he := (List.append_inj' heq rfl).2
          simp only [List.cons.injEq, Event.received.injEq, and_true] at he
          obtain ⟨-, rfl⟩ := he
          exact hsub.append (List.Sublist.refl _)
      | passed json =>
          refine ⟨?_, fun earlier leftover message heq => ?_⟩
          · have hnew : messagesOf [.passed json] = [] := rfl
            rw [hnew, List.append_nil]
            by_cases hjson : json = []
            · have hsame : textsOf [.passed json] = [] := by simp [textsOf, hjson]
              rwa [hsame, List.append_nil]
            · obtain ⟨earlier, leftover, heq⟩ := hwhole log json [] rfl hjson
              have htext : textsOf [.passed json] = [json] := by simp [textsOf, hjson]
              rw [htext]
              exact hlast earlier leftover json heq
          · have he := (List.append_inj' heq rfl).2
            simp at he

/-- **Whole messages are handed over exactly when the reads that count were clean.** -/
theorem handsOver_iff_of_preceded (hprec : Preceded log) (hgap : Gapped log) :
    HandsOver log ↔ ReadClean log := by
  constructor
  · intro h before leftover message json after heq hjson
    have hcons : log = (before ++ [.received leftover message]) ++ .passed json :: after := by
      rw [heq, List.append_assoc, List.singleton_append]
    obtain ⟨earlier, leftover', message', hread, htext⟩ := hprec _ json after hcons hjson
    obtain ⟨earlier', leftover₁, hwhole⟩ := h.whole _ json after hcons hjson
    have hevent := (List.append_inj' hread rfl).2
    have hevent' := (List.append_inj' hwhole rfl).2
    simp only [List.cons.injEq, Event.received.injEq, and_true] at hevent hevent'
    obtain ⟨rfl, rfl⟩ := hevent
    obtain ⟨-, rfl⟩ := hevent'
    -- the text is the message itself
    exact List.self_eq_append_left.mp htext
  · intro h
    suffices hwhole : ∀ before json after, log = before ++ .passed json :: after → json ≠ [] →
        ∃ earlier leftover, before = earlier ++ [.received leftover json] from
      ⟨sublist_of_whole hwhole, hwhole, hgap⟩
    intro before json after heq hjson
    obtain ⟨earlier, leftover, message, rfl, rfl⟩ := hprec before json after heq hjson
    have hclean : leftover = [] := by
      apply h earlier leftover message (leftover ++ message) after _ hjson
      rw [heq, List.append_assoc, List.singleton_append]
    subst hclean
    exact ⟨earlier, [], rfl⟩

end Logs

/-! ## The invariant -/

/-- The loop has a text in hand. -/
def Place.inHand : Place → Bool
  | .clearing | .deciding | .passing => true
  | .checking inLoop _ | .parked inLoop _ | .trying inLoop _ => inLoop
  | _ => false

/-- The loop has not been entered. -/
def Place.outside : Place → Bool
  | .entry | .settingUp | .storing => true
  | .checking inLoop _ | .parked inLoop _ | .trying inLoop _ => !inLoop
  | _ => false

/-- The loop is about to pass the empty text. -/
def Loop.marks (s : Loop) : Prop := s.place = .passing ∧ s.json = []

structure Inv (s : Loop) : Prop where
  preceded : Preceded s.log
  gapped : Gapped s.log
  settled : ¬ s.marks → Settled s.log
  inHand : s.place.inHand = true → s.json ≠ [] →
    ∃ earlier leftover message, s.log = earlier ++ [.received leftover message] ∧
      s.json = leftover ++ message
  outside : s.place.outside = true → s.json = [] ∧ ∀ json, .passed json ∉ s.log

variable {s s' : Loop}

theorem inv_start (buffer : List Char) (connectionAlive running : Bool) :
    Inv (start buffer connectionAlive running) where
  preceded before json after heq := absurd heq (by simp [start])
  gapped before json between next after heq := absurd heq (by simp [start])
  settled _ before json between heq := absurd heq (by simp [start])
  inHand h := by cases h
  outside _ := ⟨rfl, fun json => List.not_mem_nil⟩

/-- A step that logs nothing. -/
theorem Inv.silent (h : Inv s) (hlog : s'.log = s.log) (hmarks : s.marks → s'.marks)
    (hhand : s'.place.inHand = true → s'.json ≠ [] → s.place.inHand = true ∧ s'.json = s.json)
    (hout : s'.place.outside = true → s.place.outside = true ∧ s'.json = s.json) : Inv s' where
  preceded := hlog ▸ h.preceded
  gapped := hlog ▸ h.gapped
  settled hnot := hlog ▸ h.settled (fun hm => hnot (hmarks hm))
  inHand hplace hjson := by
    obtain ⟨hplace', heq⟩ := hhand hplace hjson
    rw [hlog, heq]
    exact h.inHand hplace' (heq ▸ hjson)
  outside hplace := by
    obtain ⟨hplace', heq⟩ := hout hplace
    rw [hlog, heq]
    exact h.outside hplace'

/-- The loop goes on to another place, with the text it has. -/
theorem Inv.moveTo (h : Inv s) (connectionAlive running : Bool) {place : Place}
    (hne : s.place ≠ .passing) (hhand : place.inHand = true → s.place.inHand = true)
    (hout : place.outside = true → s.place.outside = true) :
    Inv { s with place := place, connectionAlive := connectionAlive, running := running } :=
  h.silent rfl (fun hm => absurd hm.1 hne) (fun hp _ => ⟨hhand hp, rfl⟩) (fun hp => ⟨hout hp, rfl⟩)

/-- Nothing was read. -/
theorem Inv.nothing (h : Inv s) (buffer : List Char) (hne : s.place ≠ .passing) :
    Inv { s with json := [], buffer := buffer, place := .clearing } :=
  h.silent rfl (fun hm => absurd hm.1 hne) (fun _ hj => absurd rfl hj) (fun hp => by cases hp)

theorem Inv.stop (h : Inv s) (hne : s.place ≠ .passing) : Inv s.stop :=
  h.moveTo s.connectionAlive false hne (fun hp => by cases hp) (fun hp => by cases hp)

/-- The loop passes the text in hand. -/
theorem Inv.pass (h : Inv s) (hplace : s.place = .passing) :
    Inv { s with log := s.log ++ [.passed s.json], place := .head } := by
  have hsettled : s.json ≠ [] → Settled s.log := fun hjson => h.settled (fun hm => hjson hm.2)
  exact
    { preceded := h.preceded.concat_passed s.json (h.inHand (by rw [hplace]; rfl))
      gapped := h.gapped.concat_passed s.json hsettled
      settled := fun _ => by
        by_cases hjson : s.json = []
        · dsimp only
          rw [hjson]
          exact settled_concat_empty s.log
        · exact (hsettled hjson).concat (by simp)
      inHand := fun hp => by cases hp
      outside := fun hp => by cases hp }

theorem Inv.loopStep {p : BackoffPolicy} (h : Inv s) (hs : s.loopStep p = some s') : Inv s' := by
  have hgo : ∀ place : Place, s.place ≠ .passing →
      (place.inHand = true → s.place.inHand = true) →
      (place.outside = true → s.place.outside = true) → Inv (s.moveTo place) :=
    fun place => h.moveTo s.connectionAlive s.running
  unfold Loop.loopStep at hs
  cases hplace : s.place with
  | entry =>
      rw [hplace] at hs hgo
      obtain rfl := Option.some.inj hs
      split
      · exact hgo .storing (by simp) (fun hp => by cases hp) (fun _ => rfl)
      · exact hgo .settingUp (by simp) (fun hp => by cases hp) (fun _ => rfl)
  | checking inLoop interval =>
      rw [hplace] at hs hgo
      obtain rfl := Option.some.inj hs
      split
      · exact hgo (.parked inLoop interval) (by simp) id id
      · exact h.stop (by rw [hplace]; simp)
  | parked inLoop interval =>
      rw [hplace] at hs hgo
      obtain rfl := Option.some.inj hs
      split
      · exact hgo (.trying inLoop interval) (by simp) id id
      · exact h.stop (by rw [hplace]; simp)
  | storing =>
      rw [hplace] at hs
      obtain rfl := Option.some.inj hs
      exact h.moveTo true s.running (by rw [hplace]; simp) (fun hp => by cases hp)
        (fun hp => by cases hp)
  | head =>
      rw [hplace] at hs hgo
      obtain rfl := Option.some.inj hs
      split
      · exact hgo .loading (by simp) (fun hp => by cases hp) (fun hp => by cases hp)
      · exact hgo .ended (by simp) (fun hp => by cases hp) (fun hp => by cases hp)
  | loading =>
      rw [hplace] at hs hgo
      obtain rfl := Option.some.inj hs
      split
      · exact hgo .reading (by simp) (fun hp => by cases hp) (fun hp => by cases hp)
      · exact h.nothing s.buffer (by rw [hplace]; simp)
  | clearing =>
      rw [hplace] at hs
      obtain rfl := Option.some.inj hs
      exact h.moveTo _ s.running (by rw [hplace]; simp) (fun _ => by rw [hplace]; rfl)
        (fun hp => by cases hp)
  | deciding =>
      rw [hplace] at hs hgo
      obtain rfl := Option.some.inj hs
      split
      · exact hgo .passing (by simp) (fun _ => rfl) (fun hp => by cases hp)
      · exact hgo (.checking true p.delay) (by simp) (fun _ => rfl) (fun hp => by cases hp)
  | passing =>
      rw [hplace] at hs
      obtain rfl := Option.some.inj hs
      exact h.pass hplace
  | _ =>
      rw [hplace] at hs
      cases hs

/-- A connection is set up before the loop. -/
theorem Inv.connect_outside (h : Inv s) (hplace : s.place.outside = true) :
    Inv (s.connect .storing) := by
  obtain ⟨hjson, hnone⟩ := h.outside hplace
  have hnone' : ∀ json, .passed json ∉ s.log ++ [Event.connected] := by
    intro json hmem
    rw [List.mem_append, List.mem_singleton] at hmem
    rcases hmem with hmem | hmem
    · exact hnone json hmem
    · cases hmem
  exact
    { preceded := h.preceded.concat trivial
      gapped := h.gapped.concat trivial
      settled := fun _ before json between heq => by
        refine absurd ?_ (hnone' json)
        rw [show s.log ++ [Event.connected] = before ++ .passed json :: between from heq]
        simp
      inHand := fun hp => by cases hp
      outside := fun _ => ⟨hjson, hnone'⟩ }

/-- A connection is set up in the loop, with nothing in hand. -/
theorem Inv.connect_inLoop (h : Inv s) (hjson : s.json = []) : Inv (s.connect .passing) where
  preceded := h.preceded.concat trivial
  gapped := h.gapped.concat trivial
  settled hnot := absurd ⟨rfl, hjson⟩ hnot
  inHand _ hne := absurd hjson hne
  outside hp := by cases hp

theorem Inv.setup {p : BackoffPolicy} {succeeded : Bool} (h : Inv s)
    (hok : NoneInHand s (.setup succeeded)) (hs : s.step p (.setup succeeded) = some s') :
    Inv s' := by
  simp only [Loop.step] at hs
  cases hplace : s.place with
  | settingUp =>
      rw [hplace] at hs
      obtain rfl := Option.some.inj hs
      split
      · exact h.connect_outside (by rw [hplace]; rfl)
      · exact h.moveTo s.connectionAlive s.running (by rw [hplace]; simp)
          (fun hp => by cases hp) (fun _ => by rw [hplace]; rfl)
  | trying inLoop interval =>
      rw [hplace] at hs
      dsimp only at hs
      cases succeeded with
      | true =>
          obtain rfl := Option.some.inj hs
          cases inLoop with
          | true => exact h.connect_inLoop hok
          | false => exact h.connect_outside (by rw [hplace]; rfl)
      | false =>
          cases hnext : p.nextInterval interval with
          | some next =>
              rw [hnext] at hs
              obtain rfl := Option.some.inj hs
              exact h.moveTo s.connectionAlive s.running (by rw [hplace]; simp)
                (fun hp => by rw [hplace]; exact hp) (fun hp => by rw [hplace]; exact hp)
          | none =>
              rw [hnext] at hs
              obtain rfl := Option.some.inj hs
              exact h.stop (by rw [hplace]; simp)
  | _ =>
      rw [hplace] at hs
      cases hs

/-- A message is read. -/
theorem Inv.read (h : Inv s) (message : List Char) (hplace : s.place = .reading) :
    Inv { s with
      json := s.buffer ++ message
      buffer := []
      log := s.log ++ [.received s.buffer message]
      place := .clearing } where
  preceded := h.preceded.concat trivial
  gapped := h.gapped.concat trivial
  settled _ := (h.settled (fun hm => by rw [hm.1] at hplace; cases hplace)).concat (by simp)
  inHand _ _ := ⟨s.log, s.buffer, message, rfl, rfl⟩
  outside hp := by cases hp

theorem Inv.step {p : BackoffPolicy} {a : Act} (h : Inv s) (hok : NoneInHand s a)
    (hs : s.step p a = some s') : Inv s' := by
  cases a with
  | loop => exact h.loopStep hs
  | setup succeeded => exact h.setup hok hs
  | read message =>
      obtain ⟨hplace, hs⟩ := Option.ite_none_right_eq_some.mp hs
      obtain rfl := Option.some.inj hs
      exact h.read message hplace
  | readFails part =>
      obtain ⟨hplace, hs⟩ := Option.ite_none_right_eq_some.mp hs
      obtain rfl := Option.some.inj hs
      exact h.nothing _ (by rw [hplace]; simp)
  | clearAlive =>
      obtain rfl := Option.some.inj hs
      exact h.silent rfl id (fun hp _ => ⟨hp, rfl⟩) (fun hp => ⟨hp, rfl⟩)
  | clearRunning =>
      obtain rfl := Option.some.inj hs
      exact h.silent rfl id (fun hp _ => ⟨hp, rfl⟩) (fun hp => ⟨hp, rfl⟩)

/-! ## The handover -/

/-- **Whole messages are handed over, and reconnects announced, exactly when every text that is
passed was read into an empty buffer**, in every run that keeps to `NoneInHand`. -/
theorem hands_over_iff (p : BackoffPolicy) (buffer : List Char) (connectionAlive running : Bool)
    {s : Loop} (hs : Reach (Loop.step p) NoneInHand (start buffer connectionAlive running) s) :
    HandsOver s.log ↔ ReadClean s.log := by
  have h := hs.invariant (inv_start buffer connectionAlive running)
    (fun _ _ _ hi hok hstep => hi.step hok hstep)
  exact handsOver_iff_of_preceded h.preceded h.gapped

/-- A connection is set up, a read fails after `part` has arrived, and the next connection brings
`message`. -/
def reconnectActs (part message : List Char) : List Act :=
  [.loop, .setup true, .loop, .loop, .loop, .readFails part, .loop, .loop, .loop, .loop,
    .setup true, .loop, .loop, .loop, .read message, .loop, .loop, .loop]

/-- What such a run logs. -/
def reconnectLog (part message : List Char) : List Event :=
  [.connected, .connected, .passed [], .received part message, .passed (part ++ message)]

theorem reach_reconnect (part message : List Char) {s : Loop}
    (hrun : runFrom (fun s a => if decide (NoneInHand s a) then s.step .standard a else none)
      (start [] false true) (reconnectActs part message) = some s) :
    Reach (Loop.step .standard) NoneInHand (start [] false true) s :=
  Reach.of_runFrom (fun _ _ hok => of_decide_eq_true hok) .refl hrun

theorem hands_over_iff_reconnect : HandsOver (reconnectLog [] "[1]".toList) := by
  have hs : Reach (Loop.step .standard) NoneInHand (start [] false true)
      ⟨.head, [], "[1]".toList, true, true, reconnectLog [] "[1]".toList⟩ :=
    reach_reconnect [] "[1]".toList (by decide)
  apply (hands_over_iff .standard [] false true hs).mpr
  intro before leftover message json after heq _
  replace heq : reconnectLog [] "[1]".toList = _ := heq
  have hmem : Event.received leftover message ∈ reconnectLog [] "[1]".toList := by
    rw [heq]
    simp
  simp [reconnectLog] at hmem
  exact hmem.1

/-- **The bytes of a message that broke off are put before the next one.** -/
theorem broken_off_message_passed :
    ∃ s, Reach (Loop.step .standard) NoneInHand (start [] false true) s ∧
      s.log = reconnectLog "[2,".toList "[1]".toList ∧ ¬ HandsOver s.log := by
  refine ⟨⟨.head, [], "[2,[1]".toList, true, true, reconnectLog "[2,".toList "[1]".toList⟩,
    reach_reconnect "[2,".toList "[1]".toList (by decide), rfl, fun h => ?_⟩
  obtain ⟨earlier, leftover, heq⟩ := h.whole
    [.connected, .connected, .passed [], .received "[2,".toList "[1]".toList]
    "[2,[1]".toList [] rfl (by decide)
  have hmem : Event.received leftover "[2,[1]".toList ∈
      [.connected, .connected, .passed [], .received "[2,".toList "[1]".toList] := by
    rw [heq]
    simp
  simp at hmem

end AstraConnect.Core.Handover
