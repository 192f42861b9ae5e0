import Mathlib.Logic.Function.Basic
import TurboScxml.Lib.EffectLog
import TurboScxml.Lib.Machine

/-!
# Completion mailboxes

The mailboxes of `voicexml_cmeta_session.c` between the providers and the owner of a session. The
functions that fill them differ in their checks and in how they give up a claim:

* `Interface`: what one mailbox and its functions do;
* `State.stepCall`: the atomic steps of a call of `try_complete`;
* `State.stepOwner`: the atomic steps of the owner, which arms, empties and closes the mailbox.

`epoch`, `armedWith`, `awaiting`, `accepted`, `consumed` and the log of the leases are no part of
the source.
-/

namespace TurboScxml.Voice

open EffectLog Function

namespace Mailbox

/-! ## Data -/

inductive Cell
  | disarmed | empty | writing | ready | closed
  deriving DecidableEq

inductive Refusal
  | stale | full | closed | incompatible | invalid
  deriving DecidableEq

inductive Result
  | accepted
  | refused (why : Refusal)
  deriving DecidableEq

structure View (I : Type) where
  inFlight : Bool
  generation : ℕ
  item : I
  deriving DecidableEq

/-- What `run_ready` does with a recording. -/
inductive Consumption
  /-- It is released, after a result slot was reset. -/
  | discard (reset : Option ℕ)
  | adopt (slot : ℕ)
  | lose
  /-- `run_ready` returns at once. -/
  | stop
  deriving DecidableEq

/-- A mailbox for the completions `C` of the items `I`. -/
structure Interface (C I ρ : Type) where
  generation : C → ℕ
  /-- Whether a completion carries a recording. -/
  lease : C → Bool
  /-- The checks of the arguments, and those of the session before the state is loaded. -/
  arguments : C → Option Refusal
  enter : View I → C → Option Refusal
  /-- The checks before and after the claim, for the loaded generation. -/
  check : View I → ℕ → C → Option Refusal
  recheck : View I → ℕ → C → Option Refusal
  /-- A claim is given up by a store of `EMPTY`. -/
  stores : C → Bool
  /-- A claim that was given up is reported as closed if the mailbox is. -/
  reportsClosed : C → Bool
  reportsStale : C → Bool
  scrub : C → C → Option C
  /-- The variables that `commit` sets before it arms the mailbox. -/
  note : View I → Option (View I)
  runnable : View I → Bool
  consume : View I → ℕ → C → ρ → Consumption
  /-- The variables after `run_ready` took a completion. -/
  after : View I → View I
  /-- `run_ready` resets the generation of the mailbox. -/
  zeroes : Bool
  settles : Bool
  note_generation : ∀ v w, note v = some w → w.generation = v.generation
  arguments_generation : ∀ c, arguments c = none → generation c ≠ 0
  recheck_generation : ∀ v g c, recheck v g c = none → generation c = g
  settles_lease : settles = true → ∀ c, lease c = false

inductive Pc
  | start | entered | loaded | checked | claimed | writing | written
  | leaving (why : Refusal)
  | returned (result : Result)
  deriving DecidableEq

inductive Owner
  | idle | committing | numbered | arming | taken | emptied | quit | settling
  | closing (previous : Cell)
  | gone
  deriving DecidableEq

structure State (C I ι : Type) where
  cell : Cell
  generation : ℕ
  payload : Option (ι × C)
  view : View I
  prepared : Bool
  results : List (ℕ × ι)
  pc : ι → Pc
  owner : Owner
  epoch : ℕ
  armedWith : ℕ → ℕ
  /-- The armed generation was neither completed nor withdrawn. -/
  awaiting : Bool
  accepted : List (ℕ × ι)
  consumed : List (ℕ × ι × C)
  leases : List (Effect ι)

inductive Action (I ι ρ : Type)
  | call (i : ι)
  | select (generation : ℕ) (item : I)
  | prepare
  | discard
  | commit
  | runReady
  | settle
  | reset (slot : ℕ)
  | close
  | proceed (reply : ρ)

section Steps

variable {C I ρ ι : Type} [DecidableEq ι] (api : Interface C I ρ) (completion : ι → C)

/-! ## Calls -/

/-- What a call returns that finds no empty mailbox. -/
def missed : Cell → Refusal
  | .closed => .closed
  | .disarmed => .stale
  | _ => .full

def Interface.unpublished (c : C) (cell : Cell) : Refusal :=
  if cell = .disarmed ∧ api.reportsStale c = false then .full else missed cell

/-- What a call returns that gives up its claim. -/
def Interface.left (c : C) (cell : Cell) (why : Refusal) : Refusal :=
  if cell = .closed ∧ api.reportsClosed c = true then .closed else why

namespace State

variable (s : State C I ι) (i : ι)

def goto (pc : Pc) : State C I ι := { s with pc := update s.pc i pc }

def refuse (why : Refusal) : State C I ι := s.goto i (.returned (.refused why))

/-- The exchange of `EMPTY` for `WRITING`. -/
def claim : State C I ι :=
  if s.cell = .empty then ({ s with cell := .writing } : State C I ι).goto i .claimed
  else s.refuse i (missed s.cell)

/-- The exchange of `WRITING` for `READY`. -/
def publish : State C I ι :=
  let c := completion i
  if s.cell = .writing then
    ({ s with
      cell := .ready
      awaiting := false
      accepted := (s.epoch, i) :: s.accepted
      leases := if api.lease c = true then s.leases ++ [.accepted i] else s.leases }
      : State C I ι).goto i (.returned .accepted)
  else
    ({ s with
      payload := s.payload.bind fun p => (api.scrub c p.2).map fun d => (p.1, d) }
      : State C I ι).refuse i (api.unpublished c s.cell)

def leave (why : Refusal) : State C I ι :=
  let c := completion i
  if api.stores c = true then ({ s with cell := .empty } : State C I ι).refuse i why
  else if s.cell = .writing then
    ({ s with
      cell := .disarmed
      awaiting := s.awaiting && s.generation != api.generation c } : State C I ι).refuse i why
  else s.refuse i (api.left c s.cell why)

def check (refused : Option Refusal) (pc : Pc) : State C I ι :=
  refused.elim (s.goto i pc) (s.refuse i)

/-- The next atomic step of a call of `try_complete`. -/
def stepCall : Option (State C I ι) :=
  let c := completion i
  match s.pc i with
  | .start =>
    -- a session that is gone has no mailbox
    let entered := if s.owner = .gone then some .closed else api.enter s.view c
    some (s.check i ((api.arguments c).or entered) .entered)
  | .entered => some (if s.cell = .empty then s.goto i .loaded else s.refuse i (missed s.cell))
  | .loaded => some (s.check i (api.check s.view s.generation c) .checked)
  | .checked => some (s.claim i)
  | .claimed =>
    -- nobody reads what a call leaves in the payload that it gives up
    some ((api.recheck s.view s.generation c).elim (s.goto i .writing) fun why =>
      s.goto i (.leaving why))
  | .writing => some (({ s with payload := some (i, c) } : State C I ι).goto i .written)
  | .written => some (s.publish api completion i)
  | .leaving why => some (s.leave api completion i why)
  | .returned _ => none

/-! ## The owner -/

omit [DecidableEq ι] in
def recording : List ι :=
  s.payload.toList.filterMap fun p => if api.lease p.2 = true then some p.1 else none

def releasePayload : State C I ι :=
  { s with payload := none, leases := s.leases ++ (s.recording api).map .discarded }

def releaseResults (gone : ℕ → Bool) : State C I ι :=
  { s with
    results := s.results.filter fun r => !gone r.1
    leases := s.leases ++ ((s.results.filter fun r => gone r.1).map (·.2)).map .discarded }

def resetResult (slot : ℕ) : State C I ι := s.releaseResults fun k => k == slot

def adopt (slot : ℕ) : State C I ι :=
  let t := s.resetResult slot
  { t with
    payload := none
    results := (t.recording api).map (fun i => (slot, i)) ++ t.results }

/-- `run_ready` is done with the recording. -/
def settleConsumption : Consumption → State C I ι
  | .discard none => { s.releasePayload api with owner := .emptied }
  | .discard (some slot) => { (s.resetResult slot).releasePayload api with owner := .emptied }
  | .adopt slot => { s.adopt api slot with owner := .emptied }
  | .lose => { s with owner := .emptied }
  | .stop => { s with owner := .idle }

/-- `settle`, behind its exchange or store of `CLOSED`. -/
def shut (previous : Cell) : State C I ι :=
  let t := if previous = .ready then s.releasePayload api else { s with payload := none }
  { t.releaseResults (fun _ => true) with
    generation := 0
    view := { s.view with inFlight := false }
    prepared := false
    owner := .gone }

def proceed (reply : ρ) : Option (State C I ι) :=
  match s.owner with
  | .idle => none
  | .committing => some { s with generation := s.view.generation, owner := .numbered }
  | .numbered =>
    some { s with
      cell := .empty
      awaiting := true
      epoch := s.epoch + 1
      armedWith := update s.armedWith (s.epoch + 1) s.generation
      owner := .arming }
  | .arming => some { s with view := { s.view with inFlight := true }, owner := .idle }
  | .taken =>
    match s.payload with
    | none => some { s with owner := .emptied }
    | some p => some (s.settleConsumption api (api.consume s.view s.generation p.2 reply))
  | .emptied =>
    some { s with
      view := api.after s.view
      generation := if api.zeroes = true then 0 else s.generation
      owner := .quit }
  | .quit => some { s with cell := .disarmed, owner := .idle }
  | .settling =>
    some { s with
      cell := if s.cell = .closed then .closed else .disarmed
      view := { s.view with inFlight := false, generation := 0 }
      prepared := false
      owner := .idle }
  | .closing previous => some (s.shut api previous)
  | .gone => none

def begin : Action I ι ρ → Option (State C I ι)
  | .select generation item =>
    some { s with view := { s.view with generation := generation, item := item } }
  | .prepare =>
    if s.prepared = true ∨ s.view.inFlight = true then none else some { s with prepared := true }
  | .discard => if s.prepared = false then none else some { s with prepared := false }
  | .commit =>
    if s.prepared = false ∨ s.view.inFlight = true ∨ s.view.generation = 0 ∨
        s.cell ≠ .disarmed then none
    else (api.note s.view).map fun view =>
      { s with prepared := false, payload := none, view := view, owner := .committing }
  | .runReady =>
    if api.runnable s.view = false ∨ s.cell ≠ .ready then none
    else some { s with
      cell := .writing
      consumed := s.payload.toList.map (fun p => (s.epoch, p)) ++ s.consumed
      owner := .taken }
  | .settle =>
    if api.settles = false then none
    else some { s with generation := 0, awaiting := false, owner := .settling }
  | .close =>
    some { s with cell := .closed, awaiting := false, owner := .closing s.cell }
  | _ => none

end State

def step (s : State C I ι) : Action I ι ρ → Option (State C I ι)
  | .call i => s.stepCall api completion i
  | .proceed reply => s.proceed api reply
  | .reset slot =>
    if s.owner = .idle ∨ s.owner = .taken then some (s.resetResult slot) else none
  | action => if s.owner = .idle then s.begin api action else none

def Init (s : State C I ι) : Prop :=
  s.cell = .disarmed ∧ s.owner = .idle ∧ s.payload = none ∧ s.results = [] ∧
    (∀ i, s.pc i = .start) ∧ s.generation = 0 ∧ s.awaiting = false ∧ s.epoch = 0 ∧
    s.armedWith 0 = 0 ∧ s.accepted = [] ∧ s.consumed = [] ∧ s.leases = []

end Steps

end Mailbox

end TurboScxml.Voice
