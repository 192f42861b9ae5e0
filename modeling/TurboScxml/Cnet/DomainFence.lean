import TurboScxml.Basic
import TurboScxml.Lib.Machine

/-!
# The admission fence of a domain

`scxml_cnet_domain_fence.c`: a fence holds at most three generations of a plugin. Submissions are
admitted for the current one only. A submission and a quiescence probe run a callback of the caller,
which may call the fence again; the flag `submitting` is set meanwhile.

* `Fence` and its calls, each split where a callback runs: `attach`, `activate`, `submitBegin`,
  `submitEnd`, `retireBegin`, `retireEnd`, `close`, `destroy`;
* `System.step`: calls and returns of callbacks in any nesting, with the history of admissions,
  switches and retirements.
-/

namespace TurboScxml.Cnet

namespace DomainFence

/-- The Salts error codes that the fence returns. -/
inductive Status
  | ok | invalid | busy | shutdown | already | range | noEntry | protocol | permission
  deriving DecidableEq

/-- `scxml_cnet_domain_fence_impl`. A slot that holds 0 is empty. -/
structure Fence where
  current : ℕ
  staged : ℕ
  draining : ℕ
  latest : ℕ
  epoch : ℕ
  accepted : ℕ
  rejected : ℕ
  switches : ℕ
  retired : ℕ
  failedSubmissions : ℕ
  closed : Bool
  submitting : Bool
  deriving DecidableEq

/-- The slots that `selected` can point to. -/
inductive Slot
  | current | staged | draining
  deriving DecidableEq

namespace Fence

def init : Fence := ⟨0, 0, 0, 0, 0, 0, 0, 0, 0, 0, false, false⟩

variable (f : Fence)

def attached : ℕ :=
  (f.current != 0).toNat + (f.staged != 0).toNat + (f.draining != 0).toNat

variable (generation : ℕ)

def attach : Fence × Status :=
  if generation = 0 then (f, .invalid)
  else if f.submitting then (f, .busy)
  else if f.closed then (f, .shutdown)
  else if generation ≤ f.latest then (f, .already)
  else if f.attached = 2 ∨ f.draining ≠ 0 ∨ f.staged ≠ 0 then (f, .busy)
  else if f.current = 0 then
    if f.epoch = uint64Max then (f, .range)
    else ({ f with current := generation, epoch := f.epoch + 1, latest := generation }, .ok)
  else ({ f with staged := generation, latest := generation }, .ok)

def activate : Fence × Status :=
  if generation = 0 then (f, .invalid)
  else if f.submitting = true ∨ f.draining ≠ 0 then (f, .busy)
  else if f.closed then (f, .shutdown)
  else if f.staged ≠ generation then (f, .noEntry)
  else if f.current = 0 ∨ f.epoch = uint64Max then (f, .protocol)
  else
    ({ f with
      draining := f.current
      current := f.staged
      staged := 0
      epoch := f.epoch + 1
      switches := f.switches + 1 }, .ok)

/-- `scxml_cnet_domain_fence_try_submit` up to its callback. -/
def submitBegin (given : Bool) : Fence × Option Status :=
  if generation = 0 ∨ given = false then (f, some .invalid)
  else if f.submitting then (f, some .busy)
  else if f.closed then (f, some .shutdown)
  else if generation ≠ f.current then ({ f with rejected := f.rejected + 1 }, some .permission)
  else ({ f with submitting := true }, none)

def submitEnd (accepted : Bool) : Fence :=
  if accepted then { f with submitting := false, accepted := f.accepted + 1 }
  else { f with submitting := false, failedSubmissions := f.failedSubmissions + 1 }

def select : Except Status Slot :=
  if generation = f.draining then .ok .draining
  else if generation = f.staged then .ok .staged
  else if generation = f.current then
    if f.closed then .ok .current else .error .busy
  else .error .noEntry

def clear : Slot → Fence
  | .current => { f with current := 0, retired := f.retired + 1 }
  | .staged => { f with staged := 0, retired := f.retired + 1 }
  | .draining => { f with draining := 0, retired := f.retired + 1 }

/-- `scxml_cnet_domain_fence_retire` up to its probe. -/
def retireBegin (given : Bool) : Fence × Except Status Slot :=
  if generation = 0 then (f, .error .invalid)
  else if f.submitting then (f, .error .busy)
  else
    match f.select generation with
    | .error status => (f, .error status)
    | .ok slot =>
      if given then ({ f with submitting := true }, .ok slot)
      else if slot ≠ .staged then (f, .error .invalid)
      else (f.clear slot, .error .ok)

/-- `scxml_cnet_domain_fence_retire` after its probe. -/
def retireEnd (slot : Slot) (ready : Bool) : Fence × Status :=
  if ready then ({ f with submitting := false }.clear slot, .ok)
  else ({ f with submitting := false }, .busy)

def close : Fence × Status :=
  if f.submitting then (f, .busy)
  else if f.closed then (f, .already)
  else ({ f with closed := true }, .ok)

/-- `scxml_cnet_domain_fence_destroy`; `none`: it is freed. -/
def destroy : Option Fence × Status :=
  if f.submitting = true ∨ f.closed = false ∨ f.attached ≠ 0 then (some f, .busy)
  else (none, .ok)

end Fence

/-! ## Calls and callbacks -/

inductive Event
  | current (generation : ℕ)
  /-- `try_submit` called its callback. -/
  | admitted (generation : ℕ)
  | retired (generation : ℕ)
  deriving DecidableEq

inductive Frame
  | submit
  | probe (slot : Slot) (generation : ℕ)
  deriving DecidableEq

/-- A fence with the running callbacks and its history. -/
structure System where
  fence : Option Fence
  frames : List Frame
  log : List Event
  deriving DecidableEq

inductive Action
  | attach (generation : ℕ)
  | activate (generation : ℕ)
  | trySubmit (generation : ℕ) (given : Bool)
  | retire (generation : ℕ) (given : Bool)
  | close
  | destroy
  | return (answer : Bool)

namespace System

def init : System := ⟨some .init, [], []⟩

variable (s : System)

def changed (before after : Fence) : System :=
  { s with
    fence := some after
    log := if after.current = before.current then s.log else s.log ++ [.current after.current] }

def trySubmit (f : Fence) (generation : ℕ) (given : Bool) : System :=
  match f.submitBegin generation given with
  | (f', some _) => { s with fence := some f' }
  | (f', none) =>
    { fence := some f', frames := .submit :: s.frames, log := s.log ++ [.admitted generation] }

def retire (f : Fence) (generation : ℕ) (given : Bool) : System :=
  match f.retireBegin generation given with
  | (f', .ok slot) => { s with fence := some f', frames := .probe slot generation :: s.frames }
  | (f', .error .ok) => { s with fence := some f', log := s.log ++ [.retired generation] }
  | (f', .error _) => { s with fence := some f' }

def callbackReturn (f : Fence) (answer : Bool) : Frame → List Frame → System
  | .submit, frames => { s with fence := some (f.submitEnd answer), frames }
  | .probe slot generation, frames =>
    { fence := some (f.retireEnd slot answer).1
      frames
      log := if answer then s.log ++ [.retired generation] else s.log }

def step (a : Action) : Option System :=
  match s.fence with
  | none => none
  | some f =>
    match a with
    | .attach generation => some (s.changed f (f.attach generation).1)
    | .activate generation => some (s.changed f (f.activate generation).1)
    | .trySubmit generation given => some (s.trySubmit f generation given)
    | .retire generation given => some (s.retire f generation given)
    | .close => some { s with fence := some f.close.1 }
    | .destroy => some { s with fence := f.destroy.1 }
    | .return answer =>
      match s.frames with
      | [] => none
      | frame :: frames => some (s.callbackReturn f answer frame frames)

def Initial : Prop := s = init

abbrev Reachable : Prop := Machine.Reachable step Initial s

end System

/-! ## Exclusivity -/

variable (log : List Event)

def switched : List ℕ :=
  log.filterMap fun
    | .current generation => some generation
    | _ => none

def admitted : List ℕ :=
  log.filterMap fun
    | .admitted generation => some generation
    | _ => none

def retirements : List ℕ :=
  log.filterMap fun
    | .retired generation => some generation
    | _ => none

/-- The generations are in order. -/
structure Fence.Ordered (f : Fence) : Prop where
  draining_current : f.draining ≠ 0 → f.current ≠ 0 → f.draining < f.current
  current_staged : f.current ≠ 0 → f.staged ≠ 0 → f.current < f.staged
  draining_staged : f.draining ≠ 0 → f.staged ≠ 0 → f.draining < f.staged
  current_latest : f.current ≤ f.latest
  staged_latest : f.staged ≤ f.latest
  draining_latest : f.draining ≤ f.latest

/-- A submission is only admitted for the current generation. -/
def Exclusive : Prop :=
  ∀ before after generation, log = before ++ .admitted generation :: after →
    (switched before).getLast? = some generation ∧ generation ∉ retirements before

def EpochStep (s s' : System) : Prop :=
  ∀ f f', s.fence = some f → s'.fence = some f' →
    (f'.epoch = f.epoch + 1 ∧ f'.current ≠ 0 ∧ f'.current ≠ f.current ∧
      f'.current ∉ switched s.log) ∨
    (f'.epoch = f.epoch ∧ (f'.current = f.current ∨ f'.current = 0))

end DomainFence

end TurboScxml.Cnet
