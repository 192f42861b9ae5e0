import TurboScxml.Cnet.FrameIngress
import TurboScxml.Lib.RingBuffer

/-!
# The CNet chunk ingress

`scxml_cnet_ingress.c`: each chunk that CNet delivers against a receive credit becomes a row of hex
text in a ring, and the host drains the rows into the mailbox of a Session.

* `ChunkConfig`, `ChunkIngress`: the tables;
* `ChunkSystem`: the ingress with the chunks that it took and the events that it sent.
-/

namespace TurboScxml.Cnet

/-- `scxml_cnet_ingress_config`. -/
structure ChunkConfig where
  eventName : Text
  capacity : ℕ
  maxChunkBytes : ℕ

/-- The check of `scxml_cnet_ingress_init`. -/
def ChunkConfig.accepted (cfg : ChunkConfig) : Bool :=
  !cfg.eventName.isEmpty && cfg.eventName.length ≤ eventMetadataCapacity &&
    !cfg.eventName.contains '\x00' && cfg.capacity != 0 && cfg.maxChunkBytes != 0 &&
    cfg.maxChunkBytes ≤ eventMetadataCapacity / 2

/-- `scxml_cnet_ingress_impl`. The ring is `rows`, `head` and `pending`. -/
structure ChunkIngress (cfg : ChunkConfig) where
  connection : Connection
  ring : RingBuffer Text cfg.capacity
  peakPending : ℕ
  bound : Bool
  connected : Bool
  armed : Bool
  closed : Bool
  terminal : Bool
  failed : Bool
  firstError : Status
  received : ℕ
  delivered : ℕ
  cancelled : ℕ
  rejectedFull : ℕ
  rejectedOversize : ℕ
  staleCallbacks : ℕ

structure SessionEvent where
  name : Text
  text : Text
  deriving DecidableEq

namespace ChunkIngress

variable {cfg : ChunkConfig}

theorem capacity_pos (h : cfg.accepted = true) : 0 < cfg.capacity := by
  simp only [ChunkConfig.accepted, Bool.and_eq_true, bne_iff_ne] at h
  exact Nat.pos_of_ne_zero h.1.1.2

def emptyRing (h : 0 < cfg.capacity) : RingBuffer Text cfg.capacity :=
  ⟨fun _ => [], ⟨0, h⟩, 0, Nat.zero_le _⟩

def init (cfg : ChunkConfig) (h : cfg.accepted = true) : ChunkIngress cfg where
  connection := ⟨0, 0⟩
  ring := emptyRing (capacity_pos h)
  peakPending := 0
  bound := false
  connected := false
  armed := false
  closed := false
  terminal := false
  failed := false
  firstError := .ok
  received := 0
  delivered := 0
  cancelled := 0
  rejectedFull := 0
  rejectedOversize := 0
  staleCallbacks := 0

variable (e : ChunkIngress cfg) (connection : Connection)

def connectionMatches : Bool := e.bound && e.connection == connection

def markFailure (error : Status) : ChunkIngress cfg :=
  if e.failed then e else { e with failed := true, firstError := error }

def stale : ChunkIngress cfg := { e with staleCallbacks := e.staleCallbacks + 1 }

/-- `observe_state`. -/
def onState (state : ConnectionState) : ChunkIngress cfg :=
  if !e.connectionMatches connection then e.stale
  else match state with
    | .connected => { e with connected := true }
    | .closing => { e with connected := false }
    | .closed => { e with connected := false, armed := false, terminal := true }
    | .failed status =>
      { e with connected := false, armed := false, terminal := true }.markFailure
        (Egress.failureStatus status)
    | .other => e

/-- `observe_receive`. -/
def onReceive (view : Ingress.ReceiveView) : ChunkIngress cfg :=
  if !e.connectionMatches connection then e.stale
  else if !e.armed then e.markFailure .eproto
  else
    let e : ChunkIngress cfg := { e with armed := false }
    if e.closed then { e with cancelled := e.cancelled + 1 }
    else if !view.isBytes then e.markFailure .eproto
    else if view.data.length > cfg.maxChunkBytes then
      { e with rejectedOversize := e.rejectedOversize + 1 }.markFailure .emsgsize
    else if room : e.ring.count < cfg.capacity then
      { e with
        ring := e.ring.push (Ingress.hexText view.data) room
        received := e.received + 1
        peakPending := max e.peakPending (e.ring.count + 1) }
    else { e with rejectedFull := e.rejectedFull + 1 }.markFailure .enobufs

def bind : ChunkIngress cfg × Status :=
  if connection.generation = 0 then (e, .einval)
  else if e.bound || e.closed then (e, .ebusy)
  else ({ e with bound := true, connection }, .ok)

/-- `scxml_cnet_ingress_arm`, with the answer of `cnet_receive`. -/
def arm (answer : Status) : ChunkIngress cfg × Status :=
  if !e.bound then (e, .einval)
  else if e.closed || e.terminal then (e, .eshutdown)
  else if e.failed then (e, e.firstError)
  else if !e.connected then (e, .enotconn)
  else if e.armed then (e, .ebusy)
  else if e.ring.count = cfg.capacity then
    ({ e with rejectedFull := e.rejectedFull + 1 }, .enobufs)
  else ({ e with armed := answer == .ok }, answer)

def rowEvent (cfg : ChunkConfig) (row : Text) : SessionEvent := ⟨cfg.eventName, row⟩

/-- The loop of `scxml_cnet_ingress_drain`; the mailbox answers its `k`-th row with `answers k`. -/
def drainLoop (answers : ℕ → MailboxStatus) :
    ℕ → ChunkIngress cfg → List SessionEvent →
      ChunkIngress cfg × List SessionEvent × Option MailboxStatus
  | 0, e, sent => (e, sent, none)
  | left + 1, e, sent =>
    if e.ring.count = 0 then (e, sent, none)
    else match answers sent.length with
      | .ok =>
        drainLoop answers left { e with ring := e.ring.pop [], delivered := e.delivered + 1 }
          (sent ++ [rowEvent cfg (e.ring.cells e.ring.head)])
      | .full => (e, sent, some .full)
      | status => (e.markFailure .eproto, sent, some status)

/-- `scxml_cnet_ingress_drain`, with the events that the mailbox took. -/
def drain (maxEvents : ℕ) (answers : ℕ → MailboxStatus) :
    ChunkIngress cfg × List SessionEvent × MailboxStatus :=
  if maxEvents = 0 then (e, [], .invalidArgument)
  else if e.closed then (e, [], .closed)
  else if e.failed then (e, [], .invalidArgument)
  else
    let (e', sent, status) := drainLoop answers maxEvents e []
    (e', sent, status.getD (if sent.length ≠ 0 then .ok else .empty))

def close : ChunkIngress cfg × Status :=
  if e.closed then (e, .ealready)
  else ({ e with
    closed := true
    cancelled := e.cancelled + e.ring.count
    ring := emptyRing e.ring.head.pos }, .ok)

/-- `scxml_cnet_ingress_is_quiescent`. -/
def quiescent : Bool :=
  e.closed && !e.armed && e.ring.count == 0 && (!e.bound || e.terminal)

end ChunkIngress

structure ChunkSystem (cfg : ChunkConfig) where
  ingress : ChunkIngress cfg
  chunks : List (List UInt8)
  sent : List SessionEvent

inductive ChunkAction
  | bind (connection : Connection)
  | arm (answer : Status)
  | state (connection : Connection) (state : ConnectionState)
  | receive (connection : Connection) (view : Ingress.ReceiveView)
  | drain (maxEvents : ℕ) (answers : ℕ → MailboxStatus)
  | close

namespace ChunkSystem

variable {cfg : ChunkConfig}

/-- **One step.** CNet calls back at any time. -/
def step (s : ChunkSystem cfg) : ChunkAction → Option (ChunkSystem cfg)
  | .bind connection => some { s with ingress := (s.ingress.bind connection).1 }
  | .arm answer => some { s with ingress := (s.ingress.arm answer).1 }
  | .state connection state => some { s with ingress := s.ingress.onState connection state }
  | .receive connection view =>
    let e := s.ingress.onReceive connection view
    some { s with
      ingress := e
      chunks := if e.received = s.ingress.received then s.chunks else s.chunks ++ [view.data] }
  | .drain maxEvents answers =>
    let result := s.ingress.drain maxEvents answers
    some { s with ingress := result.1, sent := s.sent ++ result.2.1 }
  | .close => some { s with ingress := s.ingress.close.1 }

def Initial (s : ChunkSystem cfg) : Prop :=
  ∃ h : cfg.accepted = true, s = ⟨.init cfg h, [], []⟩

abbrev Reachable (s : ChunkSystem cfg) : Prop := Machine.Reachable step Initial s

end ChunkSystem

end TurboScxml.Cnet
