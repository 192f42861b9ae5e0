import TurboScxml.Lib.Machine
import TurboScxml.Router.Operations

/-!
# The Host router in use

The router with what its callers hold: the effect tickets they were given and have not settled, the
caller inside `run_due` and the caller inside `drain`. One action is one locked section, taken by
any caller at any time; the answers of the Sessions and the clock are arbitrary.

* `Ticket`: an accepted ticket with the row and identity, or the intent, it stands for;
* `System`, `Action`, `step`: the transition system, with the references given out so far and the
  identities of the delivered rows as history.
-/

namespace TurboScxml.Router

open Machine

inductive Effect (cfg : Config)
  | send (row : Fin cfg.eventCapacity) (identity : ℕ)
  | cancel (intent : Fin cfg.cancelCapacity) (targetIdentity : ℕ)
  deriving DecidableEq

/-- The `serial`-th accepted ticket, of `source`. -/
structure Ticket (cfg : Config) where
  serial : ℕ
  source : SessionRef
  effect : Effect cfg
  deriving DecidableEq

structure System (cfg : Config) (σ : Type) where
  router : Router cfg σ
  timer : TimerLane cfg
  drain : DrainLane cfg σ
  tickets : List (Ticket cfg)
  nextSerial : ℕ
  issued : List SessionRef
  deliveredIdentities : List ℕ

inductive Action (cfg : Config) (σ : Type)
  | reserve
  | activate (ref : SessionRef) (session : σ) (location : Option Text)
  | attach (session : σ) (location : Option Text)
  | abort (ref : SessionRef)
  | detach (target : SessionRef)
  | setParent (child parent : SessionRef)
  | setExternalAccess (ref : SessionRef) (enabled : Bool)
  | bindInvoke (source : SessionRef) (invokeId : Text) (target : SessionRef)
  | unbindInvoke (source : SessionRef) (invokeId : Text)
  | resolve (source : SessionRef) (target : Text)
  | prepareTarget (source : SessionRef) (target name sendId : Text) (content : Option Content)
      (delayMs : ℕ)
  | prepare (target : SessionRef) (name : Text) (text : Option Text)
  | enqueue (now : ℕ) (target : SessionRef) (name : Text) (text : Option Text)
  | prepareCancel (source : SessionRef) (sendId : Text)
  | commit (now : ℕ) (ticket : Ticket cfg)
  | discard (ticket : Ticket cfg)
  | cancel (target : SessionRef)
  | cancelSource (source : SessionRef)
  | close
  | runDueBegin (maxFires : ℕ)
  | runDueClaim (now : ℕ)
  | runDueSettle (settled : Bool)
  | runDueFinish
  | drainBegin (maxEvents : ℕ)
  | drainClaim
  | drainSettle (status : MailboxStatus)
  | drainFinish

variable {cfg : Config} {σ : Type}

namespace System

def init (cfg : Config) (σ : Type) : System cfg σ where
  router := .init cfg σ
  timer := .idle
  drain := .idle
  tickets := []
  nextSerial := 0
  issued := []
  deliveredIdentities := []

variable (s : System cfg σ)

def settleable (t : Ticket cfg) : Bool :=
  s.tickets.contains t && s.tickets.all fun u => !refsEqual u.source t.source || t.serial ≤ u.serial

def issuedBy : Except Status SessionRef → List SessionRef
  | .ok ref => [ref]
  | .error _ => []

def issue (result : Router cfg σ × Except Status SessionRef) : System cfg σ :=
  { s with router := result.1, issued := s.issued ++ issuedBy result.2 }

def accept {α : Type} (s : System cfg σ) (source : SessionRef)
    (effect : Router cfg σ → α → Effect cfg) (result : Router cfg σ × Except Status α) :
    System cfg σ :=
  match result.2 with
  | .ok x => { s with
      router := result.1
      tickets := s.tickets ++ [⟨s.nextSerial, source, effect result.1 x⟩]
      nextSerial := s.nextSerial + 1 }
  | .error _ => { s with router := result.1 }

variable (r : Router cfg σ)

def sendEffect (i : Fin cfg.eventCapacity) : Effect cfg :=
  .send i (r.rows i).identity

def cancelEffect (k : Fin cfg.cancelCapacity) : Effect cfg :=
  .cancel k (r.cancelRows k).targetIdentity

def commitTicket (now : ℕ) : Effect cfg → Router cfg σ
  | .send i _ => r.ticketCommit now i
  | .cancel k _ => r.cancelCommit k

def discardTicket : Effect cfg → Router cfg σ
  | .send i _ => r.ticketDiscard i
  | .cancel k _ => r.cancelDiscard k

def settle (t : Ticket cfg) (r : Router cfg σ) : System cfg σ :=
  { s with router := r, tickets := s.tickets.erase t }

/-- **One step.** -/
def step [DecidableEq σ] (s : System cfg σ) : Action cfg σ → Option (System cfg σ)
  | .reserve => some (s.issue s.router.reserve)
  | .activate ref session location =>
    some { s with router := (s.router.activate ref session location).1 }
  | .attach session location => some (s.issue (s.router.attach session location))
  | .abort ref => some { s with router := (s.router.abort ref).1 }
  | .detach target => some { s with router := (s.router.detach target).1 }
  | .setParent child parent => some { s with router := (s.router.setParent child parent).1 }
  | .setExternalAccess ref enabled =>
    some { s with router := (s.router.setExternalAccess ref enabled).1 }
  | .bindInvoke source invokeId target =>
    some { s with router := (s.router.bindInvoke source invokeId target).1 }
  | .unbindInvoke source invokeId =>
    some { s with router := (s.router.unbindInvoke source invokeId).1 }
  | .resolve source target => some { s with router := (s.router.resolve source target).1 }
  | .prepareTarget source target name sendId content delayMs =>
    some (s.accept source sendEffect
      (s.router.prepareTarget source target name sendId content delayMs))
  | .prepare target name text =>
    some (s.accept .absent sendEffect (s.router.prepare target name text))
  | .enqueue now target name text =>
    some { s with router := (s.router.enqueue now target name text).1 }
  | .prepareCancel source sendId =>
    some (s.accept source cancelEffect (s.router.prepareCancel source sendId))
  | .commit now t =>
    if s.settleable t then some (s.settle t (commitTicket s.router now t.effect)) else none
  | .discard t =>
    if s.settleable t then some (s.settle t (discardTicket s.router t.effect)) else none
  | .cancel target => some { s with router := (s.router.cancel target).1 }
  | .cancelSource source => some { s with router := (s.router.cancelSource source).1 }
  | .close => some { s with router := s.router.close.1 }
  | .runDueBegin maxFires =>
    match s.router.runDueBegin maxFires with
    | (r, .ok lane) => some { s with router := r, timer := lane }
    | (r, .error _) => some { s with router := r }
  | .runDueClaim now =>
    match s.timer with
    | .scanning count maxFires =>
      let (r, lane) := s.router.runDueClaim now count maxFires
      some { s with router := r, timer := lane }
    | _ => none
  | .runDueSettle settled =>
    match s.timer with
    | .reporting i count maxFires =>
      let (r, lane) := s.router.runDueSettle settled i count maxFires
      some { s with router := r, timer := lane }
    | _ => none
  | .runDueFinish =>
    match s.timer with
    | .leaving _ _ => some { s with router := s.router.runDueFinish, timer := .idle }
    | _ => none
  | .drainBegin maxEvents =>
    match s.router.drainBegin maxEvents with
    | (r, .ok lane) => some { s with router := r, drain := lane }
    | (r, .error _) => some { s with router := r }
  | .drainClaim =>
    match s.drain with
    | .scanning count maxEvents result =>
      let (r, lane) := s.router.drainClaim count maxEvents result
      some { s with router := r, drain := lane }
    | _ => none
  | .drainSettle status =>
    match s.drain with
    | .delivering j _ count maxEvents =>
      let (r, lane) := s.router.drainSettle status j count maxEvents
      some { s with
        router := r
        drain := lane
        deliveredIdentities :=
          if status = .ok then s.deliveredIdentities ++ [(s.router.rows j).identity]
          else s.deliveredIdentities }
    | _ => none
  | .drainFinish =>
    match s.drain with
    | .leaving _ _ => some { s with router := s.router.drainFinish, drain := .idle }
    | _ => none

def Initial : Prop := cfg.accepted = true ∧ s = init cfg σ

abbrev Reachable [DecidableEq σ] (s : System cfg σ) : Prop :=
  Machine.Reachable (step : System cfg σ → Action cfg σ → Option (System cfg σ)) Initial s

end System

def smallConfig : Config where
  endpointCapacity := 2
  eventCapacity := 2
  maxTextBytes := 16
  invokeCapacity := 1
  timerCapacity := 2
  cancelCapacity := 1
  clockGiven := true
  clockValid := true
  deadlineAfter := fun now delayMs => now + delayMs * 1000000

end TurboScxml.Router
