import TurboScxml.Basic
import TurboScxml.Lib.Handles

/-!
# Programs with plugin actions

`scxml_plugin.c`: a program with actions of plugins holds a lease on each of these plugins until it
is destroyed.

* `Registry`, `Release`: the plugins and the core compiler, which are parameters;
* `compileCmeta`, `destroy`: the calls, with the log of their leases;
* **`leases_settle`**: the leases of a program, from its compilation through all its destructions.
-/

namespace TurboScxml.Plugin

open Handles

/-- `cmeta_plugin_ref`. -/
structure Ref where
  slot : ℕ
  generation : ℕ
  deriving DecidableEq

/-- `cmeta_plugin_status`, without `CMETA_PLUGIN_OK`. -/
inductive PluginError
  | incompatibleContract
  | other (code : ℕ)
  deriving DecidableEq

/-- `scxml_plugin_status`. -/
inductive Status
  | ok | invalidArgument | allocationFailed | pluginError | incompatibleExport | compileFailed
  deriving DecidableEq

/-- `scxml_plugin_action_v1`. -/
structure Action where
  plugin : Ref
  exportId : Text
  contractId : Text
  contractVersion : ℕ
  requiredCapabilities : ℕ
  namespaceUri : Text
  localName : Text

/-- `scxml_cmeta_custom_action_v2`. -/
structure CustomAction (C : Type) where
  namespaceUri : Text
  localName : Text
  callable : C

/-- The registry, and `scxml_compile_cmeta_v4`. -/
structure Registry (M E C P : Type) where
  refValid : Ref → Bool
  acquire : Ref → Except PluginError M
  findExport : M → Text → Except PluginError E
  requireFunction : E → Text → ℕ → ℕ → Option PluginError
  /-- `plugin_callable`. -/
  callable : E → Option C
  compile : List (CustomAction C) → Option P

/-- `scxml_plugin_lease_row` with a valid lease. -/
structure Lease (M : Type) where
  ref : Ref
  manifest : M

/-- `scxml_plugin_program_impl`. -/
structure Program (M P : Type) where
  core : Option P
  leases : List (Lease M)

structure Taken (M C : Type) where
  leases : List (Lease M)
  actions : List (CustomAction C)
  log : List (Event Ref)

structure Failure (M : Type) where
  status : Status
  plugin : Option PluginError
  leases : List (Lease M)
  log : List (Event Ref)

variable {M E C P : Type}

namespace Registry

variable (reg : Registry M E C P)

/-- `plugin_action_valid`. -/
def actionValid (action : Action) : Bool :=
  reg.refValid action.plugin && !action.exportId.isEmpty && !action.contractId.isEmpty &&
    !action.namespaceUri.isEmpty && !action.localName.isEmpty

/-- `acquire_manifest`: at most one lease a plugin. -/
def acquireManifest (leases : List (Lease M)) (ref : Ref) :
    Except PluginError (M × List (Lease M) × List (Event Ref)) :=
  match leases.find? fun lease => lease.ref = ref with
  | some lease => .ok (lease.manifest, leases, [])
  | none =>
    match reg.acquire ref with
    | .error error => .error error
    | .ok manifest => .ok (manifest, leases ++ [⟨ref, manifest⟩], [.taken ref])

/-- One round of the loop over the plugin actions. -/
def takeAction (t : Taken M C) (action : Action) : Except (Failure M) (Taken M C) :=
  if reg.actionValid action = false then .error ⟨.invalidArgument, none, t.leases, t.log⟩
  else
    match reg.acquireManifest t.leases action.plugin with
    | .error error => .error ⟨.pluginError, some error, t.leases, t.log⟩
    | .ok (manifest, leases, log) =>
      match reg.findExport manifest action.exportId with
      | .error error => .error ⟨.incompatibleExport, some error, leases, t.log ++ log⟩
      | .ok entry =>
        match reg.requireFunction entry action.contractId action.contractVersion
          action.requiredCapabilities, reg.callable entry with
        | some error, _ => .error ⟨.incompatibleExport, some error, leases, t.log ++ log⟩
        | none, none =>
          .error ⟨.incompatibleExport, some .incompatibleContract, leases, t.log ++ log⟩
        | none, some callable =>
          .ok ⟨leases, t.actions ++ [⟨action.namespaceUri, action.localName, callable⟩],
            t.log ++ log⟩

end Registry

structure Released (M : Type) where
  kept : List (Lease M)
  log : List (Event Ref)
  first : Option PluginError

/-- The answers of `cmeta_plugin_registry_release` in one call, and whether the lease that it was
given is then valid: a lease that is taken back is cleared, one that is refused is left alone. -/
structure Release where
  answer : Ref → Option PluginError
  leaseValid : Ref → Bool
  clears : ∀ ref, answer ref = none → leaseValid ref = false
  keeps : ∀ ref error, answer ref = some error → leaseValid ref = true

/-- The loop of `release_leases`, with the rows that are still valid behind it. -/
def releaseFrom (release : Release) : List (Lease M) → Released M
  | [] => ⟨[], [], none⟩
  | lease :: rest =>
    let released := releaseFrom release rest
    { kept := if release.leaseValid lease.ref then lease :: released.kept else released.kept
      log := if release.answer lease.ref = none then .returned lease.ref :: released.log
        else released.log
      first := (release.answer lease.ref).or released.first }

theorem releaseFrom_taken {release : Release} {lease : Lease M} (rest : List (Lease M))
    (h : release.answer lease.ref = none) :
    releaseFrom release (lease :: rest) =
      { releaseFrom release rest with
        log := .returned lease.ref :: (releaseFrom release rest).log } := by
  simp [releaseFrom, h, release.clears _ h]

theorem releaseFrom_refused {release : Release} {lease : Lease M} {error : PluginError}
    (rest : List (Lease M)) (h : release.answer lease.ref = some error) :
    releaseFrom release (lease :: rest) =
      { releaseFrom release rest with
        kept := lease :: (releaseFrom release rest).kept
        first := some error } := by
  simp [releaseFrom, h, release.keeps _ _ h]

/-- `release_leases`, from the last row to the first. -/
def releaseLeases (release : Release) (leases : List (Lease M)) : Released M :=
  releaseFrom release leases.reverse

structure Outcome (M P : Type) where
  status : Status
  plugin : Option PluginError
  program : Option (Program M P)
  log : List (Event Ref)

def fail (release : Release) (f : Failure M) : Outcome M P :=
  let released := releaseLeases release f.leases
  ⟨f.status, f.plugin.or released.first, none, f.log ++ released.log⟩

/-- `scxml_plugin_compile_cmeta_v1`. -/
def compileCmeta (reg : Registry M E C P) (release : Release)
    (static : List (CustomAction C)) (actions : List Action) : Outcome M P :=
  match actions.foldlM reg.takeAction ⟨[], static, []⟩ with
  | .error f => fail release f
  | .ok t =>
    match reg.compile t.actions with
    | none => fail release ⟨.compileFailed, none, t.leases, t.log⟩
    | some core => ⟨.ok, none, some ⟨some core, t.leases⟩, t.log⟩

/-- `scxml_plugin_program_destroy`. -/
def destroy (release : Release) : Option (Program M P) → Outcome M P
  | none => ⟨.invalidArgument, none, none, []⟩
  | some program =>
    let released := releaseLeases release program.leases
    if released.first.isSome then
      ⟨.pluginError, released.first, some ⟨none, released.kept.reverse⟩, released.log⟩
    else ⟨.ok, none, none, released.log⟩

/-- Some calls of `scxml_plugin_program_destroy`. -/
def destroyAll : List Release → Option (Program M P) →
    Option (Program M P) × List (Event Ref)
  | [], program => (program, [])
  | release :: rest, program =>
    let outcome := destroy release program
    let later := destroyAll rest outcome.program
    (later.1, outcome.log ++ later.2)

/-! ## The leases -/

def heldBy (leases : List (Lease M)) : List Ref := (leases.map Lease.ref).reverse

variable {leases : List (Lease M)}

theorem releaseFrom_settles (release : Release)
    (front : List Ref) (hnodup : (front ++ leases.map Lease.ref).Nodup) :
    Settles (front ++ leases.map Lease.ref) (releaseFrom release leases).log
      (front ++ (releaseFrom release leases).kept.map Lease.ref) := by
  induction leases generalizing front with
  | nil => exact .nil _
  | cons lease rest ih =>
    rw [List.map_cons] at hnodup ⊢
    cases hanswer : release.answer lease.ref with
    | none =>
      rw [releaseFrom_taken rest hanswer]
      have hfront : lease.ref ∉ front := fun hmem =>
        (List.disjoint_of_nodup_append hnodup) hmem List.mem_cons_self
      have hstep : step (front ++ lease.ref :: rest.map Lease.ref) (.returned lease.ref)
          = some (front ++ rest.map Lease.ref) := by
        rw [step, if_pos (by simp), List.erase_append_right _ hfront, List.erase_cons_head]
      exact settles_cons.mpr ⟨_, hstep, ih front (hnodup.sublist (by simp))⟩
    | some error =>
      rw [releaseFrom_refused rest hanswer]
      have hrest := ih (front ++ [lease.ref]) (by simpa using hnodup)
      simpa using hrest

theorem releaseFrom_kept (release : Release) (leases : List (Lease M)) :
    (releaseFrom release leases).kept.Sublist leases ∧
      (∀ lease ∈ (releaseFrom release leases).kept, (release.answer lease.ref).isSome = true) ∧
      ((releaseFrom release leases).first = none → (releaseFrom release leases).kept = []) := by
  induction leases with
  | nil => exact ⟨.refl _, by simp [releaseFrom], fun _ => rfl⟩
  | cons lease rest ih =>
    obtain ⟨hsub, hrefused, hnone⟩ := ih
    cases hrelease : release.answer lease.ref with
    | none =>
      rw [releaseFrom_taken rest hrelease]
      exact ⟨hsub.cons _, hrefused, hnone⟩
    | some error =>
      rw [releaseFrom_refused rest hrelease]
      refine ⟨hsub.cons_cons _, fun other hother => ?_, fun h => (by cases h)⟩
      rcases List.mem_cons.mp hother with rfl | hother
      · rw [hrelease]
        rfl
      · exact hrefused other hother

theorem releaseLeases_settles (release : Release) (hnodup : (heldBy leases).Nodup) :
    Settles (heldBy leases) (releaseLeases release leases).log
      ((releaseLeases release leases).kept.map Lease.ref) := by
  rw [heldBy, ← List.map_reverse] at hnodup ⊢
  exact releaseFrom_settles release [] hnodup

structure Holds (log : List (Event Ref)) (leases : List (Lease M)) : Prop where
  settles : Settles [] log (heldBy leases)
  nodup : (heldBy leases).Nodup

theorem Holds.acquire (reg : Registry M E C P) {log log' : List (Event Ref)}
    {leases leases' : List (Lease M)} {ref : Ref} {manifest : M} (h : Holds log leases)
    (hacquire : reg.acquireManifest leases ref = .ok (manifest, leases', log')) :
    Holds (log ++ log') leases' ∧ ref ∈ leases'.map Lease.ref ∧
      leases.map Lease.ref ⊆ leases'.map Lease.ref := by
  unfold Registry.acquireManifest at hacquire
  split at hacquire
  · rename_i lease hfind
    cases hacquire
    have hlease : lease.ref = ref := by simpa using List.find?_some hfind
    rw [List.append_nil]
    exact ⟨h, hlease ▸ List.mem_map_of_mem (List.mem_of_find?_eq_some hfind), fun _ hr => hr⟩
  · rename_i hnone
    split at hacquire
    · cases hacquire
    · cases hacquire
      have hfree : ref ∉ heldBy leases := by
        simpa [heldBy] using List.find?_eq_none.mp hnone
      have hheld : heldBy (leases ++ [⟨ref, manifest⟩]) = ref :: heldBy leases := by simp [heldBy]
      refine ⟨⟨?_, ?_⟩, by simp, by simp⟩
      · rw [hheld]
        exact h.settles.append (.take hfree)
      · rw [hheld]
        exact List.nodup_cons.mpr ⟨hfree, h.nodup⟩

/-- The leases held cover the wanted ones. -/
def Covers (before wanted : List Ref) : Except (Failure M) (Taken M C) → Prop
  | .error f => Holds f.log f.leases
  | .ok t => Holds t.log t.leases ∧ before ⊆ t.leases.map Lease.ref ∧
      wanted ⊆ t.leases.map Lease.ref

/-- **One round** takes at most the lease that it needs. -/
theorem takeAction_covers (reg : Registry M E C P) {t : Taken M C} (action : Action)
    (h : Holds t.log t.leases) :
    Covers (t.leases.map Lease.ref) [action.plugin] (reg.takeAction t action) := by
  unfold Registry.takeAction
  split_ifs
  · exact h
  cases hacquire : reg.acquireManifest t.leases action.plugin with
  | error error => exact h
  | ok r =>
    obtain ⟨manifest, leases, log⟩ := r
    obtain ⟨hholds, hmem, hsub⟩ := h.acquire reg hacquire
    dsimp only
    cases reg.findExport manifest action.exportId with
    | error error => exact hholds
    | ok entry =>
      dsimp only
      cases reg.requireFunction entry action.contractId action.contractVersion
        action.requiredCapabilities with
      | some error => exact hholds
      | none =>
        cases reg.callable entry with
        | none => exact hholds
        | some callable => exact ⟨hholds, hsub, by simpa using hmem⟩

theorem takeActions_covers (reg : Registry M E C P) (actions : List Action) {t : Taken M C}
    (h : Holds t.log t.leases) :
    Covers (t.leases.map Lease.ref) (actions.map Action.plugin)
      (actions.foldlM reg.takeAction t) := by
  induction actions generalizing t with
  | nil => exact ⟨h, fun _ hr => hr, by simp⟩
  | cons action rest ih =>
    have hround := takeAction_covers reg action h
    rw [List.foldlM_cons]
    cases htake : reg.takeAction t action with
    | error f =>
      rw [htake] at hround
      exact hround
    | ok next =>
      rw [htake] at hround
      obtain ⟨hnext, hbefore, hwanted⟩ := hround
      have hrest := ih hnext
      dsimp only [bind, Except.bind]
      cases hend : rest.foldlM reg.takeAction next with
      | error f =>
        rw [hend] at hrest
        exact hrest
      | ok t' =>
        rw [hend] at hrest
        obtain ⟨hholds, hbefore', hwanted'⟩ := hrest
        refine ⟨hholds, fun _ hr => hbefore' (hbefore hr), ?_⟩
        rw [List.map_cons]
        exact List.cons_subset.mpr ⟨hbefore' (hwanted List.mem_cons_self), hwanted'⟩

def programLeases (program : Option (Program M P)) : List (Lease M) :=
  (program.map Program.leases).getD []

/-- **Destructions** return each lease once. -/
theorem destroyAll_settles (calls : List Release)
    {program : Option (Program M P)} (hnodup : (heldBy (programLeases program)).Nodup) :
    Settles (heldBy (programLeases program)) (destroyAll calls program).2
      (heldBy (programLeases (destroyAll calls program).1)) := by
  induction calls generalizing program with
  | nil => exact .nil _
  | cons release rest ih =>
    unfold destroyAll
    have hfirst : Settles (heldBy (programLeases program)) (destroy release program).log
        (heldBy (programLeases (destroy release program).program)) ∧
          (heldBy (programLeases (destroy release program).program)).Nodup := by
      cases program with
      | none => exact ⟨.nil _, hnodup⟩
      | some program =>
        have hsettles : Settles (heldBy program.leases) (releaseLeases release program.leases).log
            ((releaseLeases release program.leases).kept.map Lease.ref) :=
          releaseLeases_settles release hnodup
        obtain ⟨hsub, -, hnone⟩ := releaseFrom_kept release program.leases.reverse
        have hkept : heldBy (releaseLeases release program.leases).kept.reverse
            = (releaseLeases release program.leases).kept.map Lease.ref := by
          rw [heldBy, List.map_reverse, List.reverse_reverse]
        unfold destroy
        dsimp only
        split_ifs with herror
        · refine ⟨?_, ?_⟩
          · dsimp only [programLeases, Option.map_some, Option.getD_some]
            rw [hkept]
            exact hsettles
          · dsimp only [programLeases, Option.map_some, Option.getD_some]
            rw [hkept]
            refine hnodup.sublist ?_
            rw [heldBy, ← List.map_reverse]
            exact hsub.map _
        · have hall := hnone (Option.not_isSome_iff_eq_none.mp herror)
          refine ⟨?_, List.nodup_nil⟩
          have hempty : (releaseLeases release program.leases).kept = [] := hall
          rw [hempty] at hsettles
          exact hsettles
    exact hfirst.1.append (ih hfirst.2)

/-- **Main.** A compilation and all later destructions take and return each lease at most once. A
program covers the plugins of its actions, and one that is gone holds nothing; a compilation that
fails keeps what the registry did not take back. -/
theorem leases_settle (reg : Registry M E C P) (release : Release)
    (static : List (CustomAction C)) (actions : List Action)
    (calls : List Release) :
    (∀ program, (compileCmeta reg release static actions).program = some program →
      actions.map Action.plugin ⊆ program.leases.map Lease.ref ∧
      Settles [] ((compileCmeta reg release static actions).log
          ++ (destroyAll calls (some program)).2)
        (heldBy (programLeases (destroyAll calls (some program)).1))) ∧
    ((compileCmeta reg release static actions).program = none →
      ∃ kept, Settles [] (compileCmeta reg release static actions).log kept ∧
        ∀ ref ∈ kept, (release.answer ref).isSome = true) := by
  have hstart : Holds ([] : List (Event Ref)) ([] : List (Lease M)) := ⟨.nil _, List.nodup_nil⟩
  have hfail : ∀ f : Failure M, Holds f.log f.leases →
      ∃ kept, Settles [] (fail release f : Outcome M P).log kept ∧
        ∀ ref ∈ kept, (release.answer ref).isSome = true := by
    intro f hf
    refine ⟨_, hf.settles.append (releaseLeases_settles release hf.nodup), fun ref href => ?_⟩
    obtain ⟨lease, hlease, rfl⟩ := List.mem_map.mp href
    exact (releaseFrom_kept release f.leases.reverse).2.1 lease hlease
  have hall := takeActions_covers reg actions (t := ⟨[], static, []⟩) hstart
  unfold compileCmeta
  cases htaken : actions.foldlM reg.takeAction ⟨[], static, []⟩ with
  | error f =>
    rw [htaken] at hall
    exact ⟨fun _ h => (by cases h), fun _ => hfail f hall⟩
  | ok t =>
    rw [htaken] at hall
    obtain ⟨hholds, -, hwanted⟩ := hall
    dsimp only
    cases reg.compile t.actions with
    | none => exact ⟨fun _ h => (by cases h), fun _ => hfail _ hholds⟩
    | some core =>
      refine ⟨fun program h => ?_, fun h => (by cases h)⟩
      cases h
      have hnodup : (heldBy (programLeases (some (⟨some core, t.leases⟩ : Program M P)))).Nodup :=
        hholds.nodup
      exact ⟨hwanted, hholds.settles.append (destroyAll_settles calls hnodup)⟩

end TurboScxml.Plugin
