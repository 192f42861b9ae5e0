import TurboScxml.Voice.ScopeProjection

/-!
# Scripts and compiled locations

A script reaches the storage that a compiled location of the same path resolves to.

* `apart_bindingsOf_iff`, `free_bindingsOf_iff`: when the projection of a chain is not refused;
* `Agrees`: the projection succeeds, and the script and the location agree on one path;
* `Clear`: the condition on the tables, the engine and the declared flags;
* `scripts_agree_iff`: they agree exactly then.
-/

namespace TurboScxml.Voice.Scopes

open Properties

variable (P : Program) (E : Engine) (storage : Storage)

inductive Live (chain : List ℕ) : Name → Cell → Prop
  | slot {id index : ℕ} {row : ScopeRow} {slot : Slot} (mem : id ∈ chain)
      (hrow : P.scopes[id]? = some row) (hslot : row.slots[index]? = some slot)
      (declared : storage.declared id index = true) : Live chain slot.name (.slot id index)
  | root {field : ℕ} {slot : Slot} (hslot : P.root[field]? = some slot) :
      Live chain slot.name (.root field)

def Named (chain : List ℕ) (s : Namespace) : Prop :=
  s = .application ∨ (ownerOf P chain s).isSome

section

variable {P E storage} {chain : List ℕ} {heap : Objects} {name : Name}

theorem live_iff {cell : Cell} :
    Live P storage chain name cell ↔
      ∃ binding ∈ bindingsOf P storage chain, binding.name = name ∧ binding.cell = cell := by
  constructor
  · rintro (⟨hid, hrow, hslot, hdeclared⟩ | hslot)
    · obtain ⟨k, hk⟩ := List.mem_iff_getElem?.mp hid
      exact ⟨_, List.mem_append_left _ (mem_chainBindings.mpr ⟨k, _, _, hk, hrow,
        mem_slotBindings.mpr ⟨_, _, hslot, hdeclared, rfl⟩⟩), rfl, rfl⟩
    · exact ⟨_, List.mem_append_right _ (mem_rootBindings.mpr ⟨_, _, hslot, rfl⟩), rfl, rfl⟩
  · rintro ⟨binding, hmem, rfl, rfl⟩
    rcases List.mem_append.mp hmem with hslot | hroot
    · obtain ⟨k, id, row, hk, hrow, hbinding⟩ := mem_chainBindings.mp hslot
      obtain ⟨index, slot, hentry, hdeclared, rfl⟩ := mem_slotBindings.mp hbinding
      exact .slot (List.mem_of_getElem? hk) hrow hentry hdeclared
    · obtain ⟨field, slot, hentry, rfl⟩ := mem_rootBindings.mp hroot
      exact .root hentry

variable {binding : Binding}

theorem bound_of_mem (h : binding ∈ bindingsOf P storage chain) :
    binding.bound = storage.bound binding.cell := by
  rcases List.mem_append.mp h with hslot | hroot
  · obtain ⟨_, _, _, -, -, hbinding⟩ := mem_chainBindings.mp hslot
    obtain ⟨_, _, -, -, rfl⟩ := mem_slotBindings.mp hbinding
    rfl
  · obtain ⟨_, _, -, rfl⟩ := mem_rootBindings.mp hroot
    rfl

theorem imported_iff :
    Imported E (bindingsOf P storage chain) ↔
      ∀ name cell, Live P storage chain name cell → storage.bound cell = true →
        E.imports cell = true := by
  constructor
  · intro h name cell hlive hbound
    obtain ⟨binding, hmem, -, rfl⟩ := live_iff.mp hlive
    exact h binding hmem ((bound_of_mem hmem).trans hbound)
  · intro h binding hmem hbound
    exact h binding.name binding.cell (live_iff.mpr ⟨binding, hmem, rfl, rfl⟩)
      ((bound_of_mem hmem).symm.trans hbound)

theorem housed (hactive : Active P chain) :
    Housed (fun s => rankOf P s 0 chain) (bindingsOf P storage chain) := by
  intro binding hmem s hshown
  rw [rankOf_isSome_iff]
  rcases (shows_iff hactive hmem).mp hshown with ⟨id, index, howner, -, -⟩ | ⟨field, -, -, hs⟩
  · exact .inr (by rw [howner]; rfl)
  · rcases hs with happlication | ⟨rfl, hform⟩
    · exact .inl happlication
    · refine .inr ?_
      rw [formOf] at hform
      cases howner : ownerOf P chain .dialog with
      | none =>
        rw [howner] at hform
        cases hform
      | some id => rfl

theorem tagged : Tagged (bindingsOf P storage chain) := by
  intro binding hmem hresult
  rcases List.mem_append.mp hmem with hslot | hroot
  · obtain ⟨_, _, _, -, -, hbinding⟩ := mem_chainBindings.mp hslot
    obtain ⟨_, _, -, -, rfl⟩ := mem_slotBindings.mp hbinding
    cases hresult
  · obtain ⟨_, _, -, rfl⟩ := mem_rootBindings.mp hroot
    simp [rootBinding]

/-! ## When no definition is refused -/

variable {rank id : ℕ}

theorem slotBindings_pairwise {row : ScopeRow} (hrow : P.scopes[id]? = some row) :
    (slotBindings storage rank id row).Pairwise fun one other => one.name ≠ other.name := by
  have hnodup := P.slots_nodup row (List.mem_of_getElem? hrow)
  have hzip : (row.slots.zipIdx.map Prod.fst).Pairwise fun one other => one.name ≠ other.name := by
    rw [List.zipIdx_map_fst]
    exact List.pairwise_map.mp hnodup
  rw [slotBindings, List.pairwise_filterMap]
  refine (List.pairwise_map.mp hzip).imp fun {one other} hne b hb b' hb' => ?_
  dsimp only at hb hb'
  split at hb
  next =>
    cases hb
    split at hb'
    next =>
      cases hb'
      exact hne
    next => cases hb'
  next => cases hb

theorem rootBindings_pairwise {form : Option ℕ} :
    (rootBindings P storage rank form).Pairwise fun one other => one.name ≠ other.name := by
  have hzip : (P.root.zipIdx.map Prod.fst).Pairwise fun one other => one.name ≠ other.name := by
    rw [List.zipIdx_map_fst]
    exact List.pairwise_map.mp P.root_nodup
  rw [rootBindings, List.pairwise_map]
  exact (List.pairwise_map.mp hzip).imp fun {one other} hne => hne

variable {s : Namespace}

theorem shows_of_mem_chainBindings (h : binding ∈ chainBindings P storage rank chain)
    (hs : binding.shows s = true) : ∃ id ∈ chain, namespaceOf P id = some s := by
  obtain ⟨k, id, row, hk, hrow, hbinding⟩ := mem_chainBindings.mp h
  obtain ⟨index, slot, -, -, rfl⟩ := mem_slotBindings.mp hbinding
  refine ⟨id, List.mem_of_getElem? hk, ?_⟩
  rw [namespaceOf, hrow]
  simpa [Binding.shows] using hs

theorem Active.tail (h : Active P (id :: chain)) : Active P chain :=
  ⟨fun x hx => h.present x (by simp [hx]),
    h.nodup.sublist ((List.sublist_cons_self id chain).filterMap (namespaceOf P))⟩

theorem chainBindings_apart (hactive : Active P chain) :
    Apart (chainBindings P storage rank chain) := by
  induction chain generalizing rank with
  | nil => exact List.Pairwise.nil
  | cons id chain ih =>
    obtain ⟨row, hrow⟩ : ∃ row, P.scopes[id]? = some row :=
      ⟨_, List.getElem?_eq_getElem (hactive.present id (by simp))⟩
    rw [Apart, chainBindings, hrow, Option.elim_some, List.pairwise_append]
    refine ⟨(slotBindings_pairwise hrow).imp fun {one other} hne s _ _ => hne, ih hactive.tail, ?_⟩
    intro one hone other hother s hshown hshown'
    obtain ⟨index, slot, -, -, rfl⟩ := mem_slotBindings.mp hone
    obtain ⟨id', hid', hs'⟩ := shows_of_mem_chainBindings hother hshown'
    have hs : namespaceOf P id = some s := by
      rw [namespaceOf, hrow]
      simpa [Binding.shows] using hshown
    have hnodup := hactive.nodup
    rw [List.filterMap_cons, hs, List.nodup_cons] at hnodup
    exact absurd (List.mem_filterMap.mpr ⟨id', hid', hs'⟩) hnodup.1

/-- The form shows no name both as a declared slot and as the result of a field or subdialog. -/
def NoClash (P : Program) (declared : Declared) (chain : List ℕ) : Prop :=
  ∀ id index name field, ownerOf P chain .dialog = some id →
    declaredSlot P declared id name = some index → rootField P name = some field →
    (formOf P chain).any (fun form => formUsesRootField P form field) = false

theorem apart_bindingsOf_iff (hactive : Active P chain) :
    Apart (bindingsOf P storage chain) ↔ NoClash P storage.declared chain := by
  rw [Apart, bindingsOf, List.pairwise_append]
  constructor
  · rintro ⟨-, -, hcross⟩ id index name field howner hdeclared hroot
    obtain ⟨hid, hspace⟩ := ownerOf_spec howner
    obtain ⟨row, hrow, hkind⟩ := Option.bind_eq_some_iff.mp hspace
    obtain ⟨k, hk⟩ := List.mem_iff_getElem?.mp hid
    obtain ⟨hflag, slot, hslot, hname⟩ := (declaredSlot_eq_some hrow).mp hdeclared
    obtain ⟨root, hentry, hname'⟩ := rootField_eq_some.mp hroot
    rw [Bool.eq_false_iff]
    intro huses
    refine hcross _ (mem_chainBindings.mpr ⟨k, id, row, hk, hrow,
      mem_slotBindings.mpr ⟨index, slot, hslot, hflag, rfl⟩⟩) _
      (mem_rootBindings.mpr ⟨field, root, hentry, rfl⟩) .dialog (by simp [Binding.shows, hkind])
      (rootBinding_shows.mpr (.inr ⟨rfl, huses⟩)) (hname.trans hname'.symm)
  · intro hclash
    refine ⟨chainBindings_apart hactive,
      rootBindings_pairwise.imp fun {one other} hne s _ _ => hne, ?_⟩
    intro one hone other hother s hshown hshown' hname
    obtain ⟨field, root, hentry, rfl⟩ := mem_rootBindings.mp hother
    obtain ⟨id, hid, hspace⟩ := shows_of_mem_chainBindings hone hshown
    rcases rootBinding_shows.mp hshown' with rfl | ⟨rfl, huses⟩
    · exact namespaceOf_ne_application id hspace
    · have hmem : one ∈ bindingsOf P storage chain := List.mem_append_left _ hone
      obtain ⟨k, id', row, hk, hrow, hbinding⟩ := mem_chainBindings.mp hone
      obtain ⟨index, hindex, hcell⟩ := slotBindings_name hrow hbinding
      rcases (shows_iff hactive hmem).mp hshown with
        ⟨owner, index', howner, hdeclared, -⟩ | ⟨field', hfield, -, -⟩
      · rw [hclash owner index' one.name field howner hdeclared
          (rootField_eq_some.mpr ⟨root, hentry, hname.symm⟩)] at huses
        cases huses
      · rw [hcell] at hfield
        cases hfield

theorem named_iff : Named P chain s ↔ (rankOf P s 0 chain).isSome :=
  rankOf_isSome_iff.symm

theorem bare_bindingsOf (hactive : Active P chain) (name : Name) :
    BareCase (P := P) name 0 chain (bindingsOf P storage chain)
      (bare P storage.declared name chain) := by
  have h : BareCase (P := P) name 0 chain
      (chainBindings P storage 0 chain ++
        rootBindings P storage (0 + chain.length) (formOf P chain))
      (bare P storage.declared name chain) := bare_cases hactive.present name 0 (formOf P chain)
  rwa [Nat.zero_add] at h

variable {bindings : List Binding} {ranks : Namespace → Option ℕ}

theorem visible_of_find? (hfind : bindings.find? (·.name == name) = some binding)
    (hcloser : ∀ s k, name = s.name → ranks s = some k → binding.rank ≤ k) :
    binding.name = name ∧ ∃ i, bindings[i]? = some binding ∧
      binding.visible ranks (bindings.take i) = true := by
  obtain ⟨hname, i, hi, hbinding, hearlier⟩ := List.find?_eq_some_iff_getElem.mp hfind
  have hname : binding.name = name := by simpa using hname
  refine ⟨hname, i, by rw [List.getElem?_eq_getElem hi, hbinding], ?_⟩
  rw [Binding.visible, Bool.and_eq_true, Bool.not_eq_true', List.any_eq_false, List.all_eq_true]
  constructor
  · intro other hother
    obtain ⟨j, hj, rfl⟩ := List.mem_iff_getElem.mp hother
    rw [List.length_take] at hj
    have := hearlier j (by omega)
    simpa [hname] using this
  · intro s _
    cases hs : ranks s with
    | none => rfl
    | some k =>
      by_cases hsame : name = s.name
      · have := hcloser s k hsame hs
        simp [this]
      · simp [hname, hsame]

theorem hidden_eq_false {k : ℕ} (hs : ranks s = some k)
    (hfarther : ∀ binding ∈ bindings, binding.name = s.name → k < binding.rank) :
    hidden ranks bindings s = false := by
  rw [hidden, List.any_eq_false]
  intro binding hmem
  by_cases hname : binding.name = s.name
  · have := hfarther binding hmem hname
    simp [hs, this]
  · simp [hname]

variable (storage) in
theorem global_defined (hactive : Active P chain)
    (h : (∃ binding ∈ bindingsOf P storage chain, binding.name = name) ∨
      ∃ s, Named P chain s ∧ name = s.name) :
    ∃ property, ((.global, name), property) ∈
      cellDefinitions (fun s => rankOf P s 0 chain) [] (bindingsOf P storage chain) ++
        ownerDefinitions (fun s => rankOf P s 0 chain) (bindingsOf P storage chain) := by
  have hbare : BareCase (P := P) name 0 chain (bindingsOf P storage chain)
      (bare P storage.declared name chain) := bare_bindingsOf hactive name
  generalize bare P storage.declared name chain = target at hbare
  cases hbare with
  | cell find closer =>
    obtain ⟨hname, i, hi, hvisible⟩ := visible_of_find? find closer
    exact ⟨_, List.mem_append_left _ (mem_cellDefinitions.mpr
      ⟨i, _, hi, mem_definitions_global.mpr ⟨hvisible, hname.symm, rfl⟩⟩)⟩
  | scope named ranked farther =>
    refine ⟨_, List.mem_append_right _ (mem_ownerDefinitions_global.mpr
      ⟨_, by rw [ranked]; rfl, hidden_eq_false ranked ?_, named, rfl⟩)⟩
    exact fun binding hmem hname => farther binding hmem (hname.trans named.symm)
  | nothing unbound unnamed =>
    rcases h with ⟨binding, hmem, hname⟩ | ⟨s, hs, hname⟩
    · exact absurd hname (unbound binding hmem)
    · rw [named_iff, unnamed s hname] at hs
      cases hs

theorem free_bindingsOf_iff (hactive : Active P chain) :
    Free E (fun s => rankOf P s 0 chain) (bindingsOf P storage chain) ↔
      (∀ name cell, Live P storage chain name cell → E.own name ≠ some false) ∧
        ∀ s, Named P chain s → E.own s.name ≠ some false := by
  have hown : ∀ name, (E.objects (.global, name)).any Property.frozen = false ↔
      E.own name ≠ some false := by
    intro name
    rw [Engine.objects]
    cases hname : E.own name with
    | none => simp
    | some configurable => cases configurable <;> simp [Property.frozen]
  constructor
  · intro h
    refine ⟨fun name cell hlive => ?_, fun s hs => ?_⟩
    · obtain ⟨binding, hmem, hname, -⟩ := live_iff.mp hlive
      obtain ⟨property, hd⟩ := global_defined storage hactive (.inl ⟨binding, hmem, hname⟩)
      exact (hown name).mp (h _ hd)
    · obtain ⟨property, hd⟩ := global_defined storage hactive (.inr ⟨s, hs, rfl⟩)
      exact (hown s.name).mp (h _ hd)
  · rintro ⟨hlive, hnamed⟩ ⟨⟨object, name⟩, property⟩ hd
    cases object with
    | scope s => rfl
    | global =>
      refine (hown name).mpr ?_
      rcases List.mem_append.mp hd with hcell | howner
      · obtain ⟨j, binding, hj, hbinding⟩ := mem_cellDefinitions.mp hcell
        obtain ⟨-, rfl, -⟩ := mem_definitions_global.mp hbinding
        exact hlive _ _ (live_iff.mpr ⟨binding, List.mem_of_getElem? hj, rfl, rfl⟩)
      · obtain ⟨s, hs, -, rfl, -⟩ := mem_ownerDefinitions_global.mp howner
        exact hnamed s (named_iff.mpr hs)

/-! ## Scripts -/

def Reaches (bindings : List Binding) (outcome : Outcome) (candidate : Candidate) : Prop :=
  ∃ i binding, bindings[i]? = some binding ∧ binding.cell = candidate.cell ∧
    outcome = .cell i candidate.rest

theorem member_reaches (hactive : Active P chain)
    (hheap : Projected E (fun s => rankOf P s 0 chain) (bindingsOf P storage chain) heap)
    (hs : Named P chain s) (path : List Name) :
    (∀ candidate, selectMember P storage.declared chain s path = some candidate →
      Reaches (bindingsOf P storage chain) (readMember heap s path) candidate ∧
        Reaches (bindingsOf P storage chain) (writeMember heap s path) candidate) ∧
    (selectMember P storage.declared chain s path = none →
      writeMember heap s path = .throws ∧
        (readMember heap s path = .throws ↔ 2 ≤ (path.dropWhile (· == s.name)).length)) := by
  induction path with
  | nil => simp [selectMember, readMember, writeMember]
  | cons name rest ih =>
    have hmember : MemberCase name s (bindingsOf P storage chain)
        (member P storage.declared chain s name) := member_cases hactive (named_iff.mp hs) name
    rw [selectMember, readMember, writeMember]
    generalize member P storage.declared chain s name = target at hmember
    cases hmember with
    | cell mem shown named =>
      obtain ⟨i, hi⟩ := List.mem_iff_getElem?.mp mem
      have haccessor := hheap.shown hi shown
      rw [named] at haccessor
      rw [haccessor]
      refine ⟨fun candidate hcandidate => ?_, fun hnone => by cases hnone⟩
      cases hcandidate
      exact ⟨⟨i, _, hi, rfl, rfl⟩, ⟨i, _, hi, rfl, rfl⟩⟩
    | scope unbound named =>
      have howner : heap (.scope s, s.name) = some (.owner s) := by
        refine hheap.self (named_iff.mp hs) ?_
        rw [selfHidden, List.any_eq_false]
        intro binding hmem hboth
        rw [Bool.and_eq_true, beq_iff_eq] at hboth
        exact unbound binding hmem hboth.2 (hboth.1.trans named.symm)
      rw [named, howner, List.dropWhile_cons_of_pos (by simp)]
      exact ih
    | nothing unbound unnamed =>
      rw [hheap.absent unbound unnamed, List.dropWhile_cons_of_neg (by simpa using unnamed)]
      refine ⟨fun candidate hnone => (by cases hnone), fun _ => ⟨rfl, ?_⟩⟩
      cases rest with
      | nil => simp
      | cons next rest => simp

/-- The engine has a global of the name, its own or inherited. -/
def Engine.has (E : Engine) (name : Name) : Bool := (E.own name).isSome || E.inherited name

/-- A script fails at a path that selects nothing. -/
def Unfound (P : Program) (E : Engine) (chain : List ℕ) : List Name → Prop
  | [] => False
  | first :: rest =>
    (∀ s, Named P chain s → first = s.name → 2 ≤ (rest.dropWhile (· == first)).length) ∧
      ((∀ s, Named P chain s → first ≠ s.name) → E.has first = true →
        E.reads (first :: rest) = false ∧ E.writes (first :: rest) = false)

theorem engineOutcome_eq_throws {succeeds : Bool} :
    engineOutcome succeeds = .throws ↔ succeeds = false := by
  cases succeeds <;> simp [engineOutcome]

variable {path : List Name}

theorem script_reaches (hactive : Active P chain)
    (hheap : Projected E (fun s => rankOf P s 0 chain) (bindingsOf P storage chain) heap)
    (hpath : path ≠ []) (hparses : E.parses path = true) :
    (∀ candidate, select P storage.declared chain path = some candidate →
      Reaches (bindingsOf P storage chain) (evaluate E heap path) candidate ∧
        Reaches (bindingsOf P storage chain) (assign E heap path) candidate) ∧
    (select P storage.declared chain path = none →
      (evaluate E heap path = .throws ∧ assign E heap path = .throws ↔
        Unfound P E chain path)) := by
  cases path with
  | nil => exact absurd rfl hpath
  | cons first rest =>
    have hbare : BareCase (P := P) first 0 chain (bindingsOf P storage chain)
        (bare P storage.declared first chain) := bare_bindingsOf hactive first
    rw [select, evaluate, assign, hparses]
    generalize bare P storage.declared first chain = target at hbare
    cases hbare with
    | cell find closer =>
      obtain ⟨hname, i, hi, hvisible⟩ := visible_of_find? find closer
      have haccessor := hheap.visible hi hvisible
      rw [hname] at haccessor
      rw [haccessor]
      refine ⟨fun candidate hcandidate => ?_, fun hnone => by cases hnone⟩
      cases hcandidate
      exact ⟨⟨i, _, hi, rfl, rfl⟩, ⟨i, _, hi, rfl, rfl⟩⟩
    | @scope s k named ranked farther =>
      have hs : Named P chain s := named_iff.mpr (by rw [ranked]; rfl)
      have howner : heap (.global, s.name) = some (.owner s) :=
        hheap.named (named_iff.mp hs) (hidden_eq_false ranked fun binding hmem hname =>
          farther binding hmem (hname.trans named.symm))
      obtain ⟨hfound, hmissing⟩ := member_reaches hactive hheap hs rest
      rw [named, howner]
      refine ⟨hfound, fun hnone => ?_⟩
      obtain ⟨hwrite, hread⟩ := hmissing hnone
      constructor
      · rintro ⟨hthrows, -⟩
        refine ⟨fun _ _ _ => hread.mp hthrows, fun hother => absurd rfl (hother s hs)⟩
      · rintro ⟨hlength, -⟩
        exact ⟨hread.mpr (hlength s hs rfl), hwrite⟩
    | nothing unbound unnamed =>
      have hnamed : ∀ s, Named P chain s → first ≠ s.name := by
        intro s hs hname
        rw [named_iff, unnamed s hname] at hs
        cases hs
      rw [hheap.fresh unbound fun s hs => hnamed s (named_iff.mpr hs), Engine.objects]
      refine ⟨fun candidate hnone => (by cases hnone), fun _ => ?_⟩
      have hunfound : Unfound P E chain (first :: rest) ↔ (E.has first = true →
          E.reads (first :: rest) = false ∧ E.writes (first :: rest) = false) :=
        ⟨fun h => h.2 hnamed,
          fun h => ⟨fun s hs hname => absurd hname (hnamed s hs), fun _ => h⟩⟩
      rw [hunfound, Engine.has]
      -- A global of the engine answers as its path does; any other name throws.
      cases E.own first with
      | some configurable => simp [engineOutcome_eq_throws]
      | none => cases E.inherited first <;> simp [engineOutcome_eq_throws]

theorem evaluate_of_not_parses (h : E.parses path = false) : evaluate E heap path = .otherText := by
  cases path with
  | nil => rfl
  | cons first rest =>
    rw [evaluate, h]
    rfl

theorem resolveLocation_eq_error_iff {declared : Declared} {candidates : List Candidate} :
    resolveLocation declared candidates = .error .semanticError ↔
      ¬ ∃ candidate ∈ candidates, candidate.cell.declared declared = true := by
  rw [resolveLocation]
  cases hfind : candidates.find? fun candidate => candidate.cell.declared declared with
  | some candidate =>
    refine iff_of_false (fun h => by cases h) (not_not_intro ⟨candidate, ?_, ?_⟩)
    · exact List.mem_of_find?_eq_some hfind
    · have hdeclared := List.find?_some hfind
      exact hdeclared
  | none =>
    refine iff_of_true rfl ?_
    rintro ⟨candidate, hmem, hdeclared⟩
    exact List.find?_eq_none.mp hfind candidate hmem hdeclared

end

/-! ## Agreement -/

/-- The script reaches the storage of the location, or both fail. -/
def Agrees (E : Engine) (declared : Declared) (bindings : List Binding)
    (ranks : Namespace → Option ℕ) (candidates : List Candidate) (path : List Name) : Prop :=
  ∃ heap, projectBindings E ranks bindings = some heap ∧
    (∀ candidate, resolveLocation declared candidates = .ok candidate →
      Reaches bindings (evaluate E heap path) candidate ∧
        Reaches bindings (assign E heap path) candidate) ∧
    ∀ e, resolveLocation declared candidates = .error e →
      evaluate E heap path = .throws ∧ assign E heap path = .throws

structure Clear (P : Program) (E : Engine) (storage : Storage) (chain : List ℕ)
    (candidates : List Candidate) (path : List Name) : Prop where
  imports : ∀ name cell, Live P storage chain name cell → storage.bound cell = true →
    E.imports cell = true
  /-- No declared slot of the form is called like a field or subdialog of the form. -/
  noClash : NoClash P storage.declared chain
  /-- No declared slot or root field is called like a fixed property of the engine. -/
  liveFree : ∀ name cell, Live P storage chain name cell → E.own name ≠ some false
  namedFree : ∀ s, Named P chain s → E.own s.name ≠ some false
  parses : E.parses path = true
  found : (∃ candidate ∈ candidates, candidate.cell.declared storage.declared = true) ∨
    Unfound P E chain path

variable {P E storage}

/-- **Main.** The script and the location agree exactly when the values convert, no slot of the form
clashes with a result, no name is fixed by the engine, the path is a reference, and a candidate is
declared or the path means nothing to a script either. -/
theorem scripts_agree_iff {D : Type} {T : Types D} {limits : Limits} {chain : List ℕ}
    {bindings : List Binding} {ranks : Namespace → Option ℕ} {maxPathDepth : ℕ}
    {collection : Bool} {path : List Name} {row : LocationRow D}
    (hqualified : P.qualifiedLocations = true)
    (hbindings : bindingsCreate P limits storage chain = .ok (bindings, ranks))
    (hrow : appendLocationView P T maxPathDepth chain collection path = .ok row) :
    Agrees E storage.declared bindings ranks row.candidates path ↔
      Clear P E storage chain row.candidates path := by
  obtain ⟨rfl, rfl, hactive⟩ := bindingsCreate_spec hbindings
  have hpath : path ≠ [] := by
    rintro rfl
    cases hrow
  have hresolve := resolveLocation_appendLocationView storage.declared hqualified hrow
  have hhoused : Housed (fun s => rankOf P s 0 chain) (bindingsOf P storage chain) := housed hactive
  have hsome := projectBindings_isSome_iff (E := E) hhoused tagged
  rw [imported_iff, apart_bindingsOf_iff hactive, free_bindingsOf_iff hactive] at hsome
  constructor
  · rintro ⟨heap, hheap, hfound, hmissing⟩
    obtain ⟨himports, hclash, hlive, hnamed⟩ := hsome.mp (Option.isSome_iff_exists.mpr ⟨_, hheap⟩)
    have hparses : E.parses path = true := by
      by_contra hparses
      rw [Bool.not_eq_true] at hparses
      rw [evaluate_of_not_parses hparses] at hfound hmissing
      cases hselect : select P storage.declared chain path with
      | some candidate =>
        obtain ⟨i, binding, -, -, hcell⟩ := (hfound candidate (by rw [hresolve, hselect]; rfl)).1
        cases hcell
      | none =>
        have hthrows := (hmissing .semanticError (by rw [hresolve, hselect]; rfl)).1
        cases hthrows
    refine ⟨himports, hclash, hlive, hnamed, hparses, ?_⟩
    by_cases hdeclared :
        ∃ candidate ∈ row.candidates, candidate.cell.declared storage.declared = true
    · exact .inl hdeclared
    · have herror := resolveLocation_eq_error_iff.mpr hdeclared
      have hnone : select P storage.declared chain path = none := by
        cases hselect : select P storage.declared chain path with
        | none => rfl
        | some candidate =>
          rw [herror, hselect] at hresolve
          cases hresolve
      exact .inr (((script_reaches hactive (projected hhoused tagged hheap) hpath
        hparses).2 hnone).mp (hmissing _ herror))
  · intro hclear
    obtain ⟨heap, hheap⟩ := Option.isSome_iff_exists.mp (hsome.mpr
      ⟨hclear.imports, hclear.noClash, hclear.liveFree, hclear.namedFree⟩)
    obtain ⟨hreaches, hunfound⟩ := script_reaches hactive
      (projected hhoused tagged hheap) hpath hclear.parses
    refine ⟨heap, hheap, fun candidate hcandidate => ?_, fun e he => ?_⟩
    · refine hreaches candidate ?_
      cases hselect : select P storage.declared chain path with
      | none =>
        rw [hcandidate, hselect] at hresolve
        cases hresolve
      | some found =>
        rw [hcandidate, hselect] at hresolve
        cases hresolve
        rfl
    · have hnone : select P storage.declared chain path = none := by
        cases hselect : select P storage.declared chain path with
        | none => rfl
        | some candidate =>
          rw [he, hselect] at hresolve
          cases hresolve
      rw [hnone] at hresolve
      refine (hunfound hnone).mpr (hclear.found.resolve_left ?_)
      exact resolveLocation_eq_error_iff.mp hresolve

def fixedGlobals : List Name := ["undefined", "NaN", "Infinity", "eval", "Function", "process"]

def hardenedEngine : Engine where
  own name :=
    if fixedGlobals.contains name then some false
    else if ["Math", "Object", "Date"].contains name then some true
    else none
  inherited name := ["toString", "constructor"].contains name
  parses path := path.head?.any fun first => first ∉ ["this", "new", "class", "null"]
  reads path := path.length ≤ 1 || path.length == 2 && path.head? != some "undefined"
  writes path := path.length ≤ 2 && !path.head?.any fixedGlobals.contains
  imports _ := true

def fieldProgram (block : Name) : Program where
  scopes := [⟨.document, 0, []⟩, ⟨.form, 0, [⟨block, ⟨true, 1, 1⟩⟩]⟩]
  forms := [⟨0, 1, 0, 0⟩]
  fields := [0]
  subdialogs := []
  root := [⟨"x", ⟨true, 8, 8⟩⟩, ⟨"y", ⟨true, 8, 8⟩⟩]
  qualifiedLocations := true
  slots_nodup := by simp
  root_nodup := by decide

def fullStorage : Storage := ⟨fun _ _ => true, fun _ => true⟩

def oneType : Types Unit := ⟨fun _ _ => .ok (), fun _ => true, fun _ _ _ => true⟩

theorem scripts_agree_sample :
    ∃ bindings ranks row,
      bindingsCreate (fieldProgram "b") ⟨8, 64⟩ fullStorage [1, 0] = .ok (bindings, ranks) ∧
      appendLocationView (fieldProgram "b") oneType 4 [1, 0] false ["dialog", "dialog", "x"] =
        .ok row ∧
      Agrees hardenedEngine fullStorage.declared bindings ranks row.candidates
        ["dialog", "dialog", "x"] := by
  have hrow : appendLocationView (fieldProgram "b") oneType 4 [1, 0] false
      ["dialog", "dialog", "x"] = .ok ⟨false, some (), [⟨.root 0, []⟩]⟩ := rfl
  obtain ⟨bindings, ranks, hbindings⟩ : ∃ bindings ranks,
      bindingsCreate (fieldProgram "b") ⟨8, 64⟩ fullStorage [1, 0] = .ok (bindings, ranks) :=
    ⟨_, _, rfl⟩
  refine ⟨bindings, ranks, _, hbindings, hrow, (scripts_agree_iff rfl hbindings hrow).mpr ?_⟩
  have hactive : Active (fieldProgram "b") [1, 0] := (bindingsCreate_spec hbindings).2.2
  refine ⟨fun _ _ _ _ => rfl, (apart_bindingsOf_iff hactive).mp ?_, fun name cell hlive => ?_,
    fun s _ => ?_, by decide, .inl ⟨_, List.mem_cons_self, rfl⟩⟩
  · have hnames : ((bindingsOf (fieldProgram "b") fullStorage [1, 0]).map Binding.name).Nodup := by
      decide
    exact (List.pairwise_map.mp hnames).imp fun hne _ _ _ => hne
  · obtain ⟨binding, hmem, rfl, -⟩ := live_iff.mp hlive
    have hfree : ∀ binding ∈ bindingsOf (fieldProgram "b") fullStorage [1, 0],
        hardenedEngine.own binding.name ≠ some false := by decide
    exact hfree binding hmem
  · cases s <;> decide

/-- The dialog object gets two accessors of one name. -/
theorem not_scripts_agree :
    ∃ bindings ranks row,
      bindingsCreate (fieldProgram "x") ⟨8, 64⟩ fullStorage [1, 0] = .ok (bindings, ranks) ∧
      appendLocationView (fieldProgram "x") oneType 4 [1, 0] false ["y"] = .ok row ∧
      ¬ Agrees hardenedEngine fullStorage.declared bindings ranks row.candidates ["y"] := by
  obtain ⟨bindings, ranks, hbindings⟩ : ∃ bindings ranks,
      bindingsCreate (fieldProgram "x") ⟨8, 64⟩ fullStorage [1, 0] = .ok (bindings, ranks) :=
    ⟨_, _, rfl⟩
  refine ⟨bindings, ranks, _, hbindings, rfl, ?_⟩
  rintro ⟨heap, hheap, -⟩
  obtain ⟨rfl, rfl, -⟩ := bindingsCreate_spec hbindings
  have hnone : (projectBindings hardenedEngine (fun s => rankOf (fieldProgram "x") s 0 [1, 0])
      (bindingsOf (fieldProgram "x") fullStorage [1, 0])).isSome = false := by decide
  rw [hheap] at hnone
  cases hnone

end TurboScxml.Voice.Scopes
