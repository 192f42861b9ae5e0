import TurboScxml.Cnet.Egress
import TurboScxml.Lib.Framing
import TurboScxml.Router.Model

/-!
# The CNet frame ingress

`scxml_cnet_frame_ingress.c`: the bytes of one CNet connection are cut into frames, each after its
size in two bytes, and every frame is enqueued in the Host router as an event whose data is its hex
text. CNet gives one chunk for each receive credit; the host asks for the decoding of the chunk.

* tables: `IngressConfig`, `Ingress`;
* `publishFrame`, `takeByte`, `processLoop`, `process`: the decoder, with the answers of the router;
* `IngressSystem`, `IngressAction`: the ingress with the bytes received and the events enqueued.
-/

namespace TurboScxml

open Machine

namespace Cnet

/-- `scxml_cnet_frame_ingress_config`. -/
structure IngressConfig where
  target : Router.SessionRef
  eventName : Text
  maxReceiveBytes : ℕ
  maxFrameBytes : ℕ

def eventDataCapacity : ℕ := 4096

/-- The check of `scxml_cnet_frame_ingress_init`. -/
def IngressConfig.accepted (cfg : IngressConfig) : Bool :=
  cfg.target.generation != 0 && !cfg.eventName.isEmpty &&
    cfg.eventName.length ≤ eventMetadataCapacity && !cfg.eventName.contains '\x00' &&
    cfg.maxFrameBytes != 0 && cfg.maxFrameBytes ≤ eventMetadataCapacity / 2 &&
    cfg.maxReceiveBytes != 0 && cfg.maxReceiveBytes ≤ eventDataCapacity

/-- `scxml_cnet_frame_ingress_impl`; the sizes are lengths. -/
structure Ingress (cfg : IngressConfig) where
  connection : Connection
  chunk : List UInt8
  chunkPos : ℕ
  header : List UInt8
  frame : List UInt8
  frameExpected : ℕ
  bound : Bool
  connected : Bool
  armed : Bool
  terminal : Bool
  closed : Bool
  failed : Bool
  firstError : Status
  receivedChunks : ℕ
  acceptedFrames : ℕ
  rejectedFrames : ℕ
  hostFull : ℕ
  cancelledBytes : ℕ
  staleCallbacks : ℕ

structure HostEvent where
  target : Router.SessionRef
  name : Text
  text : Text
  deriving DecidableEq

namespace Ingress

variable {cfg : IngressConfig}

def init (cfg : IngressConfig) : Ingress cfg where
  connection := ⟨0, 0⟩
  chunk := []
  chunkPos := 0
  header := []
  frame := []
  frameExpected := 0
  bound := false
  connected := false
  armed := false
  terminal := false
  closed := false
  failed := false
  firstError := .ok
  receivedChunks := 0
  acceptedFrames := 0
  rejectedFrames := 0
  hostFull := 0
  cancelledBytes := 0
  staleCallbacks := 0

variable (e : Ingress cfg) (connection : Connection)

def isBoundTo : Bool :=
  e.bound && e.connection == connection

def markError (status : Status) : Ingress cfg :=
  if e.failed then e
  else { e with firstError := status, failed := true, rejectedFrames := e.rejectedFrames + 1 }

def stale : Ingress cfg := { e with staleCallbacks := e.staleCallbacks + 1 }

def onState (state : ConnectionState) : Ingress cfg :=
  if !e.isBoundTo connection then e.stale
  else match state with
    | .connected => { e with connected := true }
    | .closing => { e with connected := false }
    | .closed => { e with connected := false, terminal := true, armed := false }
    | .failed status =>
      { e with connected := false, terminal := true, armed := false }.markError
        (Egress.failureStatus status)
    | .other => e

/-- What `on_receive` reads of a `cnet_receive_view`. -/
structure ReceiveView where
  /-- The kind is `CNET_MESSAGE_BYTES`. -/
  isBytes : Bool
  data : List UInt8

def onReceive (view : ReceiveView) : Ingress cfg :=
  if !e.isBoundTo connection then e.stale
  else if !e.armed then e.markError .eproto
  else
    let e : Ingress cfg := { e with armed := false }
    if e.closed then { e with cancelledBytes := e.cancelledBytes + view.data.length }
    else if !view.isBytes || view.data.isEmpty then e.markError .eproto
    else if view.data.length > cfg.maxReceiveBytes then e.markError .emsgsize
    else if e.chunkPos ≠ e.chunk.length ∨ e.chunk.length ≠ 0 then e.markError .ebusy
    else { e with chunk := view.data, chunkPos := 0, receivedChunks := e.receivedChunks + 1 }

def bind : Ingress cfg × Status :=
  if connection.generation = 0 then (e, .einval)
  else if e.bound || e.closed then (e, .ebusy)
  else ({ e with bound := true, connection }, .ok)

def frameComplete : Bool :=
  e.frameExpected != 0 && e.frame.length == e.frameExpected

/-- `scxml_cnet_frame_ingress_arm`, with the answer of CNet. -/
def arm (answer : Status) : Ingress cfg × Status :=
  if !e.bound then (e, .einval)
  else if e.closed || e.terminal then (e, .eshutdown)
  else if e.failed then (e, e.firstError)
  else if !e.connected then (e, .enotconn)
  else if e.armed then (e, .ebusy)
  else if e.chunk.length ≠ 0 || e.frameComplete then (e, .enobufs)
  else ({ e with armed := answer == .ok }, answer)

def hexDigit (n : ℕ) : Char := "0123456789abcdef".toList.getD n '0'

def hexText (frame : List UInt8) : Text :=
  frame.flatMap fun c => [hexDigit (c.toNat / 16), hexDigit (c.toNat % 16)]

def frameEvent (cfg : IngressConfig) (frame : List UInt8) : HostEvent :=
  ⟨cfg.target, cfg.eventName, hexText frame⟩

/-- `publish_frame`, with the answer of the router. -/
def publishFrame (answer : Status) : Ingress cfg :=
  match answer with
  | .ok => { e with
      acceptedFrames := e.acceptedFrames + 1
      header := []
      frameExpected := 0
      frame := [] }
  | .enobufs => { e with hostFull := e.hostFull + 1 }
  | status => e.markError status

def takeByte (byte : UInt8) : Ingress cfg :=
  match e.header with
  | [] => { e with chunkPos := e.chunkPos + 1, header := [byte] }
  | [high] =>
    let sized : Ingress cfg := { e with
      chunkPos := e.chunkPos + 1
      header := [high, byte]
      frameExpected := Framing.prefixedSize high byte }
    if sized.frameExpected = 0 then sized.markError .eproto
    else if sized.frameExpected > cfg.maxFrameBytes then sized.markError .emsgsize
    else sized
  | _ => { e with chunkPos := e.chunkPos + 1, frame := e.frame ++ [byte] }

def dropChunk : Ingress cfg := { e with chunk := [], chunkPos := 0 }

structure LoopResult (cfg : IngressConfig) where
  ingress : Ingress cfg
  published : List HostEvent
  returned : Option Status

/-- The loop of `scxml_cnet_frame_ingress_process`, after `published` events; the router answers the
`k`-th attempt with `answers k`. -/
def processLoop (maxFrames : ℕ) (answers : ℕ → Status) :
    ℕ → Ingress cfg → List HostEvent → LoopResult cfg
  | 0, e, published => ⟨e, published, none⟩
  | fuel + 1, e, published =>
    if published.length < maxFrames then
      if e.frameComplete then
        let answer := answers published.length
        if answer = .ok then
          processLoop maxFrames answers fuel (e.publishFrame answer)
            (published ++ [frameEvent cfg e.frame])
        else ⟨e.publishFrame answer, published, some answer⟩
      else match e.chunk[e.chunkPos]? with
        | none => ⟨e.dropChunk, published, none⟩
        | some byte =>
          let e' := e.takeByte byte
          if e'.failed then ⟨e', published, some e'.firstError⟩
          else processLoop maxFrames answers fuel e' published
    else ⟨e, published, none⟩

variable (e : Ingress cfg)

def fuel : ℕ := 2 * (e.chunk.length - e.chunkPos) + 2

def midFrame : Bool :=
  (e.frameExpected == 0 && !e.header.isEmpty) ||
    (e.frameExpected != 0 && e.frame.length != e.frameExpected)

/-- `scxml_cnet_frame_ingress_process`, with the accepted events. -/
def process (maxFrames : ℕ) (answers : ℕ → Status) : Ingress cfg × List HostEvent × Status :=
  if maxFrames = 0 then (e, [], .einval)
  else if e.closed then (e, [], .eshutdown)
  else if e.failed then (e, [], e.firstError)
  else
    let result := processLoop maxFrames answers e.fuel e []
    match result.returned with
    | some status => (result.ingress, result.published, status)
    | none =>
      let e' := if result.ingress.chunkPos = result.ingress.chunk.length
        then result.ingress.dropChunk else result.ingress
      if e'.terminal && e'.chunk.isEmpty && e'.midFrame then
        let failed := e'.markError .eproto
        (failed, result.published, failed.firstError)
      else (e', result.published, .ok)

def close : Ingress cfg × Status :=
  if e.closed then (e, .ealready)
  else ({ e with
    closed := true
    cancelledBytes := e.cancelledBytes +
      (e.chunk.length - e.chunkPos + e.frame.length + e.header.length)
    chunk := []
    chunkPos := 0
    frame := []
    frameExpected := 0
    header := [] }, .ok)

end Ingress

structure IngressSystem (cfg : IngressConfig) where
  ingress : Ingress cfg
  received : List UInt8
  enqueued : List HostEvent

inductive IngressAction
  | bind (connection : Connection)
  /-- The credit is given or refused. -/
  | arm (answer : Status)
  | connected (connection : Connection)
  | closing (connection : Connection)
  | closed (connection : Connection)
  | receive (connection : Connection) (data : List UInt8)
  | process (maxFrames : ℕ) (full : ℕ → Bool)
  | close

namespace IngressSystem

variable {cfg : IngressConfig}

def init (cfg : IngressConfig) : IngressSystem cfg := ⟨.init cfg, [], []⟩

def hostAnswers (full : ℕ → Bool) (k : ℕ) : Status := if full k then .enobufs else .ok

/-- **One step.** CNet delivers only against a credit. -/
def step (s : IngressSystem cfg) : IngressAction → Option (IngressSystem cfg)
  | .bind connection => some { s with ingress := (s.ingress.bind connection).1 }
  | .arm answer => some { s with ingress := (s.ingress.arm answer).1 }
  | .connected connection => some { s with ingress := s.ingress.onState connection .connected }
  | .closing connection => some { s with ingress := s.ingress.onState connection .closing }
  | .closed connection => some { s with ingress := s.ingress.onState connection .closed }
  | .receive connection data =>
    if s.ingress.isBoundTo connection then
      if s.ingress.armed ∧ data ≠ [] ∧ data.length ≤ cfg.maxReceiveBytes then
        some { s with
          ingress := s.ingress.onReceive connection ⟨true, data⟩
          received := if s.ingress.closed then s.received else s.received ++ data }
      else none
    else some { s with ingress := s.ingress.onReceive connection ⟨true, data⟩ }
  | .process maxFrames full =>
    let result := s.ingress.process maxFrames (hostAnswers full)
    some { s with ingress := result.1, enqueued := s.enqueued ++ result.2.1 }
  | .close => some { s with ingress := s.ingress.close.1 }

def Initial (s : IngressSystem cfg) : Prop := cfg.accepted = true ∧ s = init cfg

abbrev Reachable (s : IngressSystem cfg) : Prop :=
  Machine.Reachable (step : IngressSystem cfg → IngressAction → Option (IngressSystem cfg))
    Initial s

end IngressSystem

end Cnet

end TurboScxml
