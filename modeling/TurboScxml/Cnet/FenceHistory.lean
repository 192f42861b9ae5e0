import Mathlib.Data.List.Basic
import Mathlib.Tactic.SplitIfs
import Mathlib.Tactic.Push
import TurboScxml.Cnet.DomainFence

/-!
# The history of an admission fence

* `LogSound`, `FenceSound`: the history, and how the fence and the running callbacks agree with it;
* `Sound.step`: kept by each step; the flag `submitting` lets at most one callback run;
* **`reachable_exclusive`**: the exclusivity of generations in every state.
-/

namespace TurboScxml.Cnet

namespace DomainFence

variable {f f' : Fence} {s s' : System} {log : List Event} {generation : ℕ}

/-! ## What the calls do -/

namespace Fence

variable (f)

theorem attach_cases (generation : ℕ) : (f.attach generation).1 = f ∨
    (f.submitting = false ∧ f.closed = false ∧ f.latest < generation ∧ f.staged = 0 ∧
      f.draining = 0 ∧
      ((f.current = 0 ∧ (f.attach generation).1 =
          { f with current := generation, epoch := f.epoch + 1, latest := generation }) ∨
        (f.current ≠ 0 ∧ (f.attach generation).1 =
          { f with staged := generation, latest := generation }))) := by
  unfold attach
  split_ifs with hzero hsubmitting hclosed hlatest hfull hcurrent hepoch
  · exact .inl rfl
  · exact .inl rfl
  · exact .inl rfl
  · exact .inl rfl
  · exact .inl rfl
  · exact .inl rfl
  · push Not at hfull
    exact .inr ⟨by simpa using hsubmitting, by simpa using hclosed, by omega, hfull.2.2, hfull.2.1,
      .inl ⟨hcurrent, rfl⟩⟩
  · push Not at hfull
    exact .inr ⟨by simpa using hsubmitting, by simpa using hclosed, by omega, hfull.2.2, hfull.2.1,
      .inr ⟨hcurrent, rfl⟩⟩

theorem activate_cases (generation : ℕ) : (f.activate generation).1 = f ∨
    (f.submitting = false ∧ f.closed = false ∧ f.draining = 0 ∧ f.staged ≠ 0 ∧ f.current ≠ 0 ∧
      (f.activate generation).1 =
        { f with
          draining := f.current
          current := f.staged
          staged := 0
          epoch := f.epoch + 1
          switches := f.switches + 1 }) := by
  unfold activate
  split_ifs with hzero hbusy hclosed hstaged hcurrent
  · exact .inl rfl
  · exact .inl rfl
  · exact .inl rfl
  · exact .inl rfl
  · exact .inl rfl
  · push Not at hbusy hcurrent hstaged
    exact .inr ⟨by simpa using hbusy.1, by simpa using hclosed, hbusy.2, by rwa [hstaged],
      hcurrent.1, rfl⟩

theorem submitBegin_cases (generation : ℕ) (given : Bool) :
    (∃ rejected status, f.submitBegin generation given = ({ f with rejected }, some status)) ∨
    (f.submitting = false ∧ f.closed = false ∧ f.current = generation ∧ generation ≠ 0 ∧
      f.submitBegin generation given = ({ f with submitting := true }, none)) := by
  unfold submitBegin
  split_ifs with hinvalid hsubmitting hclosed hcurrent
  · exact .inl ⟨_, _, rfl⟩
  · exact .inl ⟨_, _, rfl⟩
  · exact .inl ⟨_, _, rfl⟩
  · exact .inl ⟨_, _, rfl⟩
  · push Not at hinvalid hcurrent
    exact .inr ⟨by simpa using hsubmitting, by simpa using hclosed, hcurrent.symm, hinvalid.1, rfl⟩

def slot (f : Fence) : Slot → ℕ
  | .current => f.current
  | .staged => f.staged
  | .draining => f.draining

variable {f}

theorem select_ok {selected : Slot} (h : f.select generation = .ok selected) :
    f.slot selected = generation ∧ (selected = .current → f.closed = true) := by
  unfold select at h
  split_ifs at h with hdraining hstaged hcurrent hclosed
  · cases h
    exact ⟨hdraining.symm, fun h => by cases h⟩
  · cases h
    exact ⟨hstaged.symm, fun h => by cases h⟩
  · cases h
    exact ⟨hcurrent.symm, fun _ => hclosed⟩

variable (f)

theorem retireBegin_cases (generation : ℕ) (given : Bool) :
    (∃ status, f.retireBegin generation given = (f, .error status) ∧ status ≠ .ok) ∨
    (f.submitting = false ∧ generation ≠ 0 ∧ ∃ selected, f.slot selected = generation ∧
      (selected = .current → f.closed = true) ∧
      (f.retireBegin generation given = ({ f with submitting := true }, .ok selected) ∨
        f.retireBegin generation given = (f.clear selected, .error .ok))) := by
  unfold retireBegin
  split
  · exact .inl ⟨_, rfl, by simp⟩
  rename_i hzero
  split
  · exact .inl ⟨_, rfl, by simp⟩
  rename_i hsubmitting
  cases hselect : f.select generation with
  | error status =>
    refine .inl ⟨status, rfl, ?_⟩
    unfold select at hselect
    split_ifs at hselect <;> cases hselect <;> simp
  | ok selected =>
    obtain ⟨hslot, hcurrent⟩ := select_ok hselect
    dsimp only
    split_ifs with hgiven hstaged
    · exact .inr ⟨by simpa using hsubmitting, hzero, selected, hslot, hcurrent, .inl rfl⟩
    · exact .inl ⟨_, rfl, by simp⟩
    · exact .inr ⟨by simpa using hsubmitting, hzero, selected, hslot, hcurrent, .inr rfl⟩

end Fence

/-! ## The invariant -/

@[simp] theorem switched_append (l l' : List Event) :
    switched (l ++ l') = switched l ++ switched l' :=
  List.filterMap_append

@[simp] theorem admitted_append (l l' : List Event) :
    admitted (l ++ l') = admitted l ++ admitted l' :=
  List.filterMap_append

@[simp] theorem retirements_append (l l' : List Event) :
    retirements (l ++ l') = retirements l ++ retirements l' :=
  List.filterMap_append

structure LogSound (log : List Event) : Prop where
  ascending : (switched log).Pairwise (· < ·)
  nondecreasing : (admitted log).Pairwise (· ≤ ·)
  exclusive : Exclusive log
  once : (retirements log).Nodup
  known : ∀ g ∈ admitted log, g ∈ switched log

/-- The fence agrees with its callbacks and its history. -/
structure FenceSound (f : Fence) (frames : List Frame) (log : List Event) : Prop where
  ordered : f.Ordered
  callback : (f.submitting = false ∧ frames = []) ∨
    (f.submitting = true ∧ ∃ frame, frames = [frame])
  probe : ∀ selected g, Frame.probe selected g ∈ frames →
    f.slot selected = g ∧ g ≠ 0 ∧ (selected = .current → f.closed = true)
  current : f.current ≠ 0 → (switched log).getLast? = some f.current
  emptied : f.current = 0 → f.closed = true ∨ switched log = []
  bounds : ∀ g ∈ switched log, g ≤ f.latest ∧ (f.staged ≠ 0 → g < f.staged)
  gone : ∀ g ∈ retirements log, g ≤ f.latest ∧ g ≠ 0 ∧ g ≠ f.current ∧ g ≠ f.staged ∧
    g ≠ f.draining

structure Sound (s : System) : Prop where
  log : LogSound s.log
  fence : ∀ f, s.fence = some f → FenceSound f s.frames s.log

theorem init_sound : Sound System.init where
  log := by
    refine ⟨.nil, .nil, fun before after generation h => ?_, .nil, by simp [System.init, admitted]⟩
    simp [System.init] at h
  fence f h := by
    cases h
    constructor
    · constructor <;> simp [Fence.init]
    · exact .inl ⟨rfl, rfl⟩
    · simp [System.init]
    · simp [Fence.init]
    · exact fun _ => .inr rfl
    · simp [System.init, switched]
    · simp [System.init, retirements]

theorem LogSound.le_last (h : LogSound log) {g last : ℕ} (hg : g ∈ switched log)
    (hlast : (switched log).getLast? = some last) : g ≤ last := by
  obtain ⟨init, hinit⟩ := List.getLast?_eq_some_iff.mp hlast
  have hsorted := h.ascending
  rw [hinit] at hg hsorted
  rcases List.mem_append.mp hg with hg | hg
  · exact Nat.le_of_lt ((List.pairwise_append.mp hsorted).2.2 g hg last (by simp))
  · exact Nat.le_of_eq (List.mem_singleton.mp hg)

theorem Exclusive.append (h : Exclusive log) {event : Event}
    (hevent : ∀ g, event = .admitted g →
      (switched log).getLast? = some g ∧ g ∉ retirements log) : Exclusive (log ++ [event]) := by
  intro before after g heq
  rcases List.eq_nil_or_concat after with rfl | ⟨after', last, rfl⟩
  · obtain ⟨rfl, hlast⟩ := List.append_inj' heq rfl
    exact hevent g (List.cons.inj hlast).1
  · rw [List.concat_eq_append, ← List.cons_append, ← List.append_assoc] at heq
    obtain ⟨rfl, -⟩ := List.append_inj' heq rfl
    exact h before after' g rfl

theorem LogSound.current (h : LogSound log) (hnew : ∀ g ∈ switched log, g < generation) :
    LogSound (log ++ [.current generation]) where
  ascending := by
    rw [switched_append]
    refine List.pairwise_append.mpr ⟨h.ascending, by simp [switched], ?_⟩
    intro g hg g' hg'
    obtain rfl : g' = generation := by simpa [switched] using hg'
    exact hnew g hg
  nondecreasing := by simpa [admitted] using h.nondecreasing
  exclusive := h.exclusive.append fun g hg => by cases hg
  once := by simpa [retirements] using h.once
  known g hg := by
    rw [switched_append]
    exact List.mem_append_left _ (h.known g (by simpa [admitted] using hg))

theorem LogSound.admission (h : LogSound log)
    (hlast : (switched log).getLast? = some generation)
    (hretired : generation ∉ retirements log) : LogSound (log ++ [.admitted generation]) where
  ascending := by simpa [switched] using h.ascending
  nondecreasing := by
    rw [admitted_append]
    refine List.pairwise_append.mpr ⟨h.nondecreasing, by simp [admitted], ?_⟩
    intro g hg g' hg'
    obtain rfl : g' = generation := by simpa [admitted] using hg'
    exact h.le_last (h.known g hg) hlast
  exclusive := h.exclusive.append fun g hg => by
    cases hg
    exact ⟨hlast, hretired⟩
  once := by simpa [retirements] using h.once
  known g hg := by
    rw [switched_append]
    refine List.mem_append_left _ ?_
    rw [admitted_append] at hg
    rcases List.mem_append.mp hg with hg | hg
    · exact h.known g hg
    · obtain rfl : g = generation := by simpa [admitted] using hg
      exact List.mem_of_getLast? hlast

theorem LogSound.retire (h : LogSound log) (hnew : generation ∉ retirements log) :
    LogSound (log ++ [.retired generation]) where
  ascending := by simpa [switched] using h.ascending
  nondecreasing := by simpa [admitted] using h.nondecreasing
  exclusive := h.exclusive.append fun g hg => by cases hg
  once := by
    rw [retirements_append]
    refine List.nodup_append.mpr ⟨h.once, by simp [retirements], ?_⟩
    intro g hg g' hg'
    obtain rfl : g' = generation := by simpa [retirements] using hg'
    rintro rfl
    exact hnew hg
  known g hg := by
    simpa [switched] using h.known g (by simpa [admitted] using hg)

/-! ## One step -/

namespace FenceSound

variable {frames : List Frame}

theorem idle (h : FenceSound f frames log) (hsubmitting : f.submitting = false) : frames = [] := by
  rcases h.callback with ⟨-, hframes⟩ | ⟨hset, -⟩
  · exact hframes
  · rw [hsubmitting] at hset
    cases hset

theorem enter (h : FenceSound f frames log) (hsubmitting : f.submitting = false) (frame : Frame)
    (hframe : ∀ selected g, frame = .probe selected g →
      f.slot selected = g ∧ g ≠ 0 ∧ (selected = .current → f.closed = true)) :
    FenceSound { f with submitting := true } (frame :: frames) log where
  ordered := { h.ordered with }
  callback := .inr ⟨rfl, frame, by rw [h.idle hsubmitting]⟩
  probe selected g hmem := by
    rw [h.idle hsubmitting, List.mem_singleton] at hmem
    cases selected <;> exact hframe _ g hmem.symm
  current := h.current
  emptied := h.emptied
  bounds := h.bounds
  gone := h.gone

theorem leave {frame : Frame} (h : FenceSound f (frame :: frames) log) (accepted failed : ℕ) :
    FenceSound { f with submitting := false, accepted, failedSubmissions := failed } frames log where
  ordered := { h.ordered with }
  callback := by
    rcases h.callback with ⟨-, hframes⟩ | ⟨-, _, hframes⟩
    · cases hframes
    · exact .inl ⟨rfl, (List.cons.inj hframes).2⟩
  probe selected g hmem := by
    cases selected <;> exact h.probe _ g (List.mem_cons_of_mem _ hmem)
  current := h.current
  emptied := h.emptied
  bounds := h.bounds
  gone := h.gone

variable (h : FenceSound f frames log)
include h

theorem reject (rejected : ℕ) : FenceSound { f with rejected } frames log where
  ordered := { h.ordered with }
  callback := h.callback
  probe selected g hmem := by
    cases selected <;> exact h.probe _ g hmem
  current := h.current
  emptied := h.emptied
  bounds := h.bounds
  gone := h.gone

theorem admission (generation : ℕ) : FenceSound f frames (log ++ [.admitted generation]) where
  ordered := h.ordered
  callback := h.callback
  probe := h.probe
  current := by simpa [switched] using h.current
  emptied := by simpa [switched] using h.emptied
  bounds := by simpa [switched] using h.bounds
  gone := by simpa [retirements] using h.gone

theorem close : FenceSound { f with closed := true } frames log where
  ordered := { h.ordered with }
  callback := h.callback
  probe selected g hmem := by
    obtain ⟨hslot, hzero, -⟩ := h.probe selected g hmem
    cases selected <;> exact ⟨hslot, hzero, fun _ => rfl⟩
  current := h.current
  emptied _ := .inl rfl
  bounds := h.bounds
  gone := h.gone

theorem slot_fresh {selected : Slot} (hslot : f.slot selected = generation) :
    generation ∉ retirements log ∧ generation ≤ f.latest := by
  refine ⟨fun hmem => ?_, ?_⟩
  · obtain ⟨-, -, hcurrent, hstaged, hdraining⟩ := h.gone generation hmem
    cases selected with
    | current => exact hcurrent hslot.symm
    | staged => exact hstaged hslot.symm
    | draining => exact hdraining hslot.symm
  · rw [← hslot]
    cases selected with
    | current => exact h.ordered.current_latest
    | staged => exact h.ordered.staged_latest
    | draining => exact h.ordered.draining_latest

omit h

theorem clear (h : FenceSound f [] log) {selected : Slot} (hslot : f.slot selected = generation)
    (hzero : generation ≠ 0) (hclosed : selected = .current → f.closed = true) :
    FenceSound (f.clear selected) [] (log ++ [.retired generation]) := by
  obtain ⟨hdc, hcs, hds, hcl, hsl, hdl⟩ := h.ordered
  have hfresh := h.slot_fresh hslot
  have hswitched : switched (log ++ [.retired generation]) = switched log := by simp [switched]
  have hretired : ∀ g ∈ retirements (log ++ [.retired generation]),
      g ∈ retirements log ∨ g = generation := by
    intro g hg
    rw [retirements_append] at hg
    rcases List.mem_append.mp hg with hg | hg
    · exact .inl hg
    · exact .inr (by simpa [retirements] using hg)
  have hcallback : (f.clear selected).submitting = f.submitting := by cases selected <;> rfl
  refine ⟨?_, ?_, by simp, ?_, ?_, ?_, ?_⟩
  · cases selected <;> constructor <;> simp only [Fence.clear] <;> first | assumption | omega
  · rw [hcallback]
    exact h.callback
  · rw [hswitched]
    cases selected with
    | current => exact fun hne => absurd rfl hne
    | staged => exact h.current
    | draining => exact h.current
  · rw [hswitched]
    cases selected with
    | current => exact fun _ => .inl (hclosed rfl)
    | staged => exact h.emptied
    | draining => exact h.emptied
  · rw [hswitched]
    cases selected with
    | current => exact h.bounds
    | staged => exact fun g hg => ⟨(h.bounds g hg).1, fun hne => absurd rfl hne⟩
    | draining => exact h.bounds
  · intro g hg
    rcases hretired g hg with hg | rfl
    · obtain ⟨hle, hne, hcurrent, hstaged, hdraining⟩ := h.gone g hg
      cases selected <;> exact ⟨hle, hne, by assumption, by assumption, by assumption⟩
    · cases selected with
      | current =>
        have hslot : f.current = g := hslot
        refine ⟨hfresh.2, hzero, hzero, fun hsame => ?_, fun hsame => ?_⟩
        · have hsame : g = f.staged := hsame
          omega
        · have hsame : g = f.draining := hsame
          omega
      | staged =>
        have hslot : f.staged = g := hslot
        refine ⟨hfresh.2, hzero, fun hsame => ?_, hzero, fun hsame => ?_⟩
        · have hsame : g = f.current := hsame
          omega
        · have hsame : g = f.draining := hsame
          omega
      | draining =>
        have hslot : f.draining = g := hslot
        refine ⟨hfresh.2, hzero, fun hsame => ?_, fun hsame => ?_, hzero⟩
        · have hsame : g = f.current := hsame
          omega
        · have hsame : g = f.staged := hsame
          omega

theorem attachCurrent (h : FenceSound f [] log) (hlatest : f.latest < generation)
    (hstaged : f.staged = 0) (hdraining : f.draining = 0) (epoch : ℕ) :
    FenceSound { f with current := generation, epoch, latest := generation } []
      (log ++ [.current generation]) := by
  have hswitched : switched (log ++ [.current generation]) = switched log ++ [generation] := by
    simp [switched]
  have hretired : retirements (log ++ [.current generation]) = retirements log := by
    simp [retirements]
  refine ⟨?_, h.callback, by simp, ?_, ?_, ?_, ?_⟩
  · constructor <;> simp [hstaged, hdraining]
  · intro _
    simp [hswitched]
  · intro hzero
    have hzero : generation = 0 := hzero
    omega
  · intro g hg
    rw [hswitched] at hg
    refine ⟨?_, fun hne => absurd hstaged hne⟩
    rcases List.mem_append.mp hg with hg | hg
    · exact Nat.le_of_lt (Nat.lt_of_le_of_lt (h.bounds g hg).1 hlatest)
    · exact Nat.le_of_eq (List.mem_singleton.mp hg)
  · intro g hg
    rw [hretired] at hg
    obtain ⟨hle, hne, -, hstaged', hdraining'⟩ := h.gone g hg
    exact ⟨Nat.le_of_lt (Nat.lt_of_le_of_lt hle hlatest), hne,
      Nat.ne_of_lt (Nat.lt_of_le_of_lt hle hlatest), hstaged', hdraining'⟩

theorem attachStaged (h : FenceSound f [] log) (hlatest : f.latest < generation)
    (hdraining : f.draining = 0) (hcurrent : f.current ≠ 0) :
    FenceSound { f with staged := generation, latest := generation } [] log := by
  obtain ⟨-, -, -, hcl, -, -⟩ := h.ordered
  have hbehind : ∀ g, g ≤ f.latest → g < generation := fun g hg => Nat.lt_of_le_of_lt hg hlatest
  refine ⟨?_, h.callback, by simp, h.current, fun hzero => absurd hzero hcurrent, ?_, ?_⟩
  · constructor <;> simp [hdraining] <;> omega
  · intro g hg
    have hlt := hbehind g (h.bounds g hg).1
    exact ⟨Nat.le_of_lt hlt, fun _ => hlt⟩
  · intro g hg
    obtain ⟨hle, hne, hcurrent', -, hdraining'⟩ := h.gone g hg
    have hlt := hbehind g hle
    exact ⟨Nat.le_of_lt hlt, hne, hcurrent', Nat.ne_of_lt hlt, hdraining'⟩

theorem activate (h : FenceSound f [] log) (hstaged : f.staged ≠ 0) (hcurrent : f.current ≠ 0)
    (epoch switches : ℕ) :
    FenceSound
      { f with draining := f.current, current := f.staged, staged := 0, epoch, switches } []
      (log ++ [.current f.staged]) := by
  obtain ⟨-, hcs, -, hcl, hsl, -⟩ := h.ordered
  have hswitched : switched (log ++ [.current f.staged]) = switched log ++ [f.staged] := by
    simp [switched]
  have hretired : retirements (log ++ [.current f.staged]) = retirements log := by
    simp [retirements]
  refine ⟨?_, h.callback, by simp, ?_, ?_, ?_, ?_⟩
  · constructor
    · exact fun _ _ => hcs hcurrent hstaged
    · exact fun _ hne => absurd rfl hne
    · exact fun _ hne => absurd rfl hne
    · exact hsl
    · exact Nat.zero_le _
    · exact hcl
  · intro _
    simp [hswitched]
  · exact fun hzero => absurd hzero hstaged
  · intro g hg
    rw [hswitched] at hg
    refine ⟨?_, fun hne => absurd rfl hne⟩
    rcases List.mem_append.mp hg with hg | hg
    · exact (h.bounds g hg).1
    · rw [List.mem_singleton.mp hg]
      exact hsl
  · intro g hg
    rw [hretired] at hg
    obtain ⟨hle, hne, hcurrent', hstaged', -⟩ := h.gone g hg
    exact ⟨hle, hne, hstaged', hne, hcurrent'⟩

end FenceSound

/-! ## Runs -/

namespace Sound

variable (h : Sound s)
include h

variable (hfence : s.fence = some f)
include hfence

theorem unchanged (rejected : ℕ) : Sound { s with fence := some { f with rejected } } where
  log := h.log
  fence f' hf' := by
    cases hf'
    exact (h.fence f hfence).reject rejected

theorem attach (generation : ℕ) : Sound (s.changed f (f.attach generation).1) := by
  have hsound := h.fence f hfence
  rcases f.attach_cases generation with heq | ⟨hsubmitting, hclosed, hlatest, hstaged, hdraining, hcase⟩
  · rw [heq]
    simpa [System.changed] using h.unchanged hfence f.rejected
  have hframes := hsound.idle hsubmitting
  rw [hframes] at hsound
  rcases hcase with ⟨hcurrent, heq⟩ | ⟨hcurrent, heq⟩
  · have hne : generation ≠ f.current := by omega
    -- an open fence without a current generation never had one
    have hnone : switched s.log = [] := by
      rcases hsound.emptied hcurrent with hset | hnone
      · rw [hclosed] at hset
        cases hset
      · exact hnone
    rw [heq]
    simp only [System.changed, hne, if_false]
    refine ⟨h.log.current (by simp [hnone]), fun f' hf' => ?_⟩
    cases hf'
    simp only [hframes]
    exact hsound.attachCurrent hlatest hstaged hdraining _
  · rw [heq]
    simp only [System.changed, if_true]
    refine ⟨h.log, fun f' hf' => ?_⟩
    cases hf'
    simp only [hframes]
    exact hsound.attachStaged hlatest hdraining hcurrent

theorem activate (generation : ℕ) : Sound (s.changed f (f.activate generation).1) := by
  have hsound := h.fence f hfence
  rcases f.activate_cases generation with heq | ⟨hsubmitting, -, -, hstaged, hcurrent, heq⟩
  · rw [heq]
    simpa [System.changed] using h.unchanged hfence f.rejected
  have hframes := hsound.idle hsubmitting
  rw [hframes] at hsound
  have hlt := hsound.ordered.current_staged hcurrent hstaged
  rw [heq]
  simp only [System.changed, Nat.ne_of_gt hlt, if_false]
  refine ⟨h.log.current fun g hg => (hsound.bounds g hg).2 hstaged, fun f' hf' => ?_⟩
  cases hf'
  simp only [hframes]
  exact hsound.activate hstaged hcurrent _ _

theorem trySubmit (generation : ℕ) (given : Bool) : Sound (s.trySubmit f generation given) := by
  have hsound := h.fence f hfence
  unfold System.trySubmit
  rcases f.submitBegin_cases generation given with
    ⟨rejected, status, heq⟩ | ⟨hsubmitting, -, hcurrent, hzero, heq⟩
  · rw [heq]
    exact h.unchanged hfence rejected
  · rw [heq]
    subst hcurrent
    refine ⟨h.log.admission (hsound.current hzero) fun hmem => ?_, fun f' hf' => ?_⟩
    · exact (hsound.gone _ hmem).2.2.1 rfl
    · cases hf'
      exact (hsound.enter hsubmitting .submit fun _ _ heq => by cases heq).admission _

theorem retire (generation : ℕ) (given : Bool) : Sound (s.retire f generation given) := by
  have hsound := h.fence f hfence
  unfold System.retire
  rcases f.retireBegin_cases generation given with
    ⟨status, heq, hstatus⟩ | ⟨hsubmitting, hzero, selected, hslot, hclosed, heq | heq⟩
  · rw [heq]
    cases status with
    | ok => exact absurd rfl hstatus
    | _ => exact h.unchanged hfence f.rejected
  · rw [heq]
    refine ⟨h.log, fun f' hf' => ?_⟩
    cases hf'
    refine hsound.enter hsubmitting (.probe selected generation) fun selected' g hframe => ?_
    cases hframe
    exact ⟨hslot, hzero, hclosed⟩
  · rw [heq]
    refine ⟨h.log.retire (hsound.slot_fresh hslot).1, fun f' hf' => ?_⟩
    cases hf'
    have hframes := hsound.idle hsubmitting
    rw [hframes] at hsound
    simp only [hframes]
    exact hsound.clear hslot hzero hclosed

theorem close : Sound { s with fence := f.close.1 } := by
  have hsound := h.fence f hfence
  refine ⟨h.log, fun f' hf' => ?_⟩
  unfold Fence.close at hf'
  split_ifs at hf' <;> cases hf'
  · exact hsound
  · exact hsound
  · exact hsound.close

theorem destroy : Sound { s with fence := f.destroy.1 } := by
  refine ⟨h.log, fun f' hf' => ?_⟩
  unfold Fence.destroy at hf'
  split_ifs at hf'
  · cases hf'
    exact h.fence f hfence

theorem callbackReturn (answer : Bool) {frame : Frame}
    {frames : List Frame} (hframes : s.frames = frame :: frames) :
    Sound (s.callbackReturn f answer frame frames) := by
  have hsound := h.fence f hfence
  rw [hframes] at hsound
  cases frame with
  | submit =>
    refine ⟨h.log, fun f' hf' => ?_⟩
    cases answer <;> cases hf' <;> exact hsound.leave _ _
  | probe selected generation =>
    have hleft := hsound.leave f.accepted f.failedSubmissions
    cases answer with
    | false =>
      refine ⟨h.log, fun f' hf' => ?_⟩
      cases hf'
      exact hleft
    | true =>
      obtain ⟨hslot, hzero, hclosed⟩ := hsound.probe selected generation List.mem_cons_self
      have hnone : frames = [] := hleft.idle rfl
      rw [hnone] at hleft
      refine ⟨h.log.retire (hsound.slot_fresh hslot).1, fun f' hf' => ?_⟩
      cases hf'
      simp only [System.callbackReturn, hnone, if_true]
      exact hleft.clear (by cases selected <;> exact hslot) hzero hclosed

omit hfence

/-- **One step.** -/
theorem step {a : Action} (hstep : s.step a = some s') : Sound s' := by
  unfold System.step at hstep
  split at hstep
  · cases hstep
  rename_i f hfence
  cases a with
  | attach generation =>
    cases hstep
    exact h.attach hfence generation
  | activate generation =>
    cases hstep
    exact h.activate hfence generation
  | trySubmit generation given =>
    cases hstep
    exact h.trySubmit hfence generation given
  | retire generation given =>
    cases hstep
    exact h.retire hfence generation given
  | close =>
    cases hstep
    exact h.close hfence
  | destroy =>
    cases hstep
    exact h.destroy hfence
  | «return» answer =>
    dsimp only at hstep
    split at hstep
    · cases hstep
    · rename_i frame frames hframes
      cases hstep
      exact h.callbackReturn hfence answer hframes

omit h

end Sound

theorem reachable_sound (h : System.Reachable s) : Sound s := by
  refine h.invariant ?_ ?_
  · rintro _ rfl
    exact init_sound
  · intro s a s' hs hstep
    exact hs.step hstep

/-! ## The epoch -/

theorem EpochStep.kept (hfence : s.fence = some f)
    (h : ∀ f', s'.fence = some f' → f'.epoch = f.epoch ∧ (f'.current = f.current ∨ f'.current = 0)) :
    EpochStep s s' := by
  intro f₀ f' hf₀ hf'
  rw [hfence] at hf₀
  cases hf₀
  exact .inr (h f' hf')

theorem clear_epoch (f : Fence) (selected : Slot) : (f.clear selected).epoch = f.epoch ∧
    ((f.clear selected).current = f.current ∨ (f.clear selected).current = 0) := by
  cases selected <;> simp [Fence.clear]

/-- **The epoch** counts the steps that make a new generation current. -/
theorem Sound.epoch (h : Sound s) {a : Action} (hstep : s.step a = some s') : EpochStep s s' := by
  unfold System.step at hstep
  split at hstep
  · cases hstep
  rename_i f hfence
  have hsound := h.fence f hfence
  cases a with
  | attach generation =>
    cases hstep
    rcases f.attach_cases generation with
      heq | ⟨-, hclosed, hlatest, -, -, ⟨hcurrent, heq⟩ | ⟨-, heq⟩⟩
    · exact .kept hfence fun f' hf' => by
        cases hf'
        simp [heq]
    · intro f₀ f' hf₀ hf'
      rw [hfence] at hf₀
      cases hf₀
      cases hf'
      refine .inl ?_
      rw [heq]
      refine ⟨rfl, by dsimp only; omega, by dsimp only; omega, fun hmem => ?_⟩
      have hle := (hsound.bounds _ hmem).1
      dsimp only at hle
      omega
    · exact .kept hfence fun f' hf' => by
        cases hf'
        simp [heq]
  | activate generation =>
    cases hstep
    rcases f.activate_cases generation with heq | ⟨-, -, -, hstaged, hcurrent, heq⟩
    · exact .kept hfence fun f' hf' => by
        cases hf'
        simp [heq]
    · intro f₀ f' hf₀ hf'
      rw [hfence] at hf₀
      cases hf₀
      cases hf'
      refine .inl ?_
      rw [heq]
      have hlt := hsound.ordered.current_staged hcurrent hstaged
      refine ⟨rfl, hstaged, Nat.ne_of_gt hlt, fun hmem => ?_⟩
      exact Nat.lt_irrefl _ ((hsound.bounds _ hmem).2 hstaged)
  | trySubmit generation given =>
    cases hstep
    refine .kept hfence fun f' hf' => ?_
    unfold System.trySubmit at hf'
    rcases f.submitBegin_cases generation given with ⟨_, _, heq⟩ | ⟨-, -, -, -, heq⟩
    · rw [heq] at hf'
      cases hf'
      exact ⟨rfl, .inl rfl⟩
    · rw [heq] at hf'
      cases hf'
      exact ⟨rfl, .inl rfl⟩
  | retire generation given =>
    cases hstep
    refine .kept hfence fun f' hf' => ?_
    unfold System.retire at hf'
    rcases f.retireBegin_cases generation given with
      ⟨status, heq, -⟩ | ⟨-, -, selected, -, -, heq | heq⟩
    · rw [heq] at hf'
      cases status <;> cases hf' <;> exact ⟨rfl, .inl rfl⟩
    · rw [heq] at hf'
      cases hf'
      exact ⟨rfl, .inl rfl⟩
    · rw [heq] at hf'
      cases hf'
      exact clear_epoch f selected
  | close =>
    cases hstep
    refine .kept hfence fun f' hf' => ?_
    unfold Fence.close at hf'
    split_ifs at hf' <;> cases hf' <;> exact ⟨rfl, .inl rfl⟩
  | destroy =>
    cases hstep
    refine .kept hfence fun f' hf' => ?_
    unfold Fence.destroy at hf'
    split_ifs at hf'
    · cases hf'
      exact ⟨rfl, .inl rfl⟩
  | «return» answer =>
    dsimp only at hstep
    split at hstep
    · cases hstep
    · rename_i frame frames hframes
      cases hstep
      refine .kept hfence fun f' hf' => ?_
      cases frame with
      | submit => cases answer <;> cases hf' <;> exact ⟨rfl, .inl rfl⟩
      | probe selected generation =>
        cases answer with
        | false =>
          cases hf'
          exact ⟨rfl, .inl rfl⟩
        | true =>
          cases hf'
          exact clear_epoch _ selected

/-- **Main.** In every reachable state the slots are ordered, admissions are made for the current
generation and never for an older one than before, no generation is retired twice, and the epoch
counts the changes of the current one. -/
theorem reachable_exclusive (h : System.Reachable s) :
    (∀ f, s.fence = some f → f.Ordered) ∧ (admitted s.log).Pairwise (· ≤ ·) ∧ Exclusive s.log ∧
      (retirements s.log).Nodup ∧ ∀ a s', s.step a = some s' → EpochStep s s' := by
  have hsound := reachable_sound h
  exact ⟨fun f hf => (hsound.fence f hf).ordered, hsound.log.nondecreasing, hsound.log.exclusive,
    hsound.log.once, fun a s' hstep => hsound.epoch hstep⟩

def switchRun : List Action :=
  [.attach 3, .attach 5, .trySubmit 3 true, .activate 5, .trySubmit 3 true, .return true,
    .activate 5, .trySubmit 3 true, .trySubmit 5 true, .return false, .retire 3 true, .return true]

def switchedState : System := (Machine.exec System.step .init switchRun).get (by rfl)

theorem switchedState_exclusive :
    (∀ f, switchedState.fence = some f → f.Ordered) ∧
      (admitted switchedState.log).Pairwise (· ≤ ·) ∧ Exclusive switchedState.log ∧
      (retirements switchedState.log).Nodup ∧
      ∀ a s', switchedState.step a = some s' → EpochStep switchedState s' :=
  reachable_exclusive
    (Machine.Reachable.runs (.of_init rfl) (Machine.exec_runs (Option.some_get _).symm))

end DomainFence

end TurboScxml.Cnet
