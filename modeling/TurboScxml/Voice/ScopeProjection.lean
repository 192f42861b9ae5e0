import TurboScxml.Voice.ScopeBindings

/-!
# What the objects hold

* `cellDefinitions`, `ownerDefinitions`: the definitions that the two loops make;
* `Apart`: no scope shows two bindings of one name;
* `projectBindings_isSome_iff`: when no definition is refused;
* `Projected`: what the objects hold then.
-/

namespace TurboScxml.Voice.Scopes

open Properties

variable (E : Engine) (ranks : Namespace → Option ℕ)

abbrev Definition := (Object × Name) × Property

/-- What one round of the first loop defines. -/
def Binding.definitions (earlier : List Binding) (binding : Binding) : List Definition :=
  (binding.namespaceId.toList.map fun s =>
      ((.scope s, binding.name), .accessor earlier.length)) ++
    ((if binding.dialogResult then
      [((.scope .dialog, binding.name), .accessor earlier.length)] else []) ++
    (if binding.visible ranks earlier then
      [((.global, binding.name), .accessor earlier.length)] else []))

def cellDefinitions : List Binding → List Binding → List Definition
  | _, [] => []
  | earlier, binding :: rest =>
    binding.definitions ranks earlier ++ cellDefinitions (earlier ++ [binding]) rest

variable (bindings : List Binding)

/-- What one round of the second loop defines. -/
def ownerDefinitionsOf (s : Namespace) : List Definition :=
  if (ranks s).isNone then []
  else (if selfHidden bindings s then [] else [((.scope s, s.name), .owner s)]) ++
    (if hidden ranks bindings s then [] else [((.global, s.name), .owner s)])

def ownerDefinitions : List Definition :=
  [Namespace.application, .document, .dialog].flatMap (ownerDefinitionsOf ranks bindings)

/-- Each scope that a binding shows in has an object. -/
def Housed : Prop :=
  ∀ binding ∈ bindings, ∀ s, binding.shows s = true → (ranks s).isSome

/-- The engine imports each value that is bound. -/
def Imported : Prop :=
  ∀ binding ∈ bindings, binding.bound = true → E.imports binding.cell = true

section

variable {E ranks} {heap heap' : Objects} {bindings earlier rest : List Binding}

theorem defineProperty_eq {object : Object} (h : ∀ s, object = .scope s → (ranks s).isSome)
    (name : Name) (property : Property) :
    defineProperty ranks heap object name property =
      define Property.frozen heap (object, name) property := by
  cases object with
  | global => rfl
  | scope s => exact if_pos (h s rfl)

theorem defineWhen_eq {condition : Bool} {object : Object}
    (h : condition = true → ∀ s, object = .scope s → (ranks s).isSome)
    (name : Name) (property : Property) :
    defineWhen condition ranks heap object name property =
      defineAll Property.frozen heap (if condition then [((object, name), property)] else []) := by
  cases condition with
  | false => rfl
  | true =>
    rw [defineWhen, if_pos rfl, defineProperty_eq (h rfl), if_pos rfl, defineAll]
    cases define Property.frozen heap (object, name) property <;> rfl

variable {binding : Binding}

/-- The definition in the scope of a binding, without its checks. -/
theorem defineNamespace_eq (h : ∀ s, binding.shows s = true → (ranks s).isSome)
    (property : Property) :
    (binding.namespaceId.elim (some heap) fun s =>
        defineProperty ranks heap (.scope s) binding.name property) =
      defineAll Property.frozen heap
        (binding.namespaceId.toList.map fun s => ((.scope s, binding.name), property)) := by
  cases hnamespace : binding.namespaceId with
  | none => rfl
  | some s =>
    have hs : binding.shows s = true := by simp [Binding.shows, hnamespace]
    rw [Option.elim_some, defineProperty_eq (fun t ht => by cases ht; exact h s hs)]
    simp only [Option.toList_some, List.map_cons, List.map_nil, defineAll]
    cases define Property.frozen heap (.scope s, binding.name) property <;> rfl

/-- The first loop makes its definitions in order. -/
theorem projectCells_eq (hhoused : Housed ranks rest) (himported : Imported E rest) :
    projectCells E ranks earlier heap rest =
      defineAll Property.frozen heap (cellDefinitions ranks earlier rest) := by
  induction rest generalizing earlier heap with
  | nil => rfl
  | cons binding rest ih =>
    have hrest : ∀ heap, projectCells E ranks (earlier ++ [binding]) heap rest =
        defineAll Property.frozen heap (cellDefinitions ranks (earlier ++ [binding]) rest) :=
      fun heap => ih (fun b hb => hhoused b (by simp [hb])) (fun b hb => himported b (by simp [hb]))
    have hscope : ∀ s, binding.shows s = true → (ranks s).isSome := hhoused binding (by simp)
    have himport : (binding.bound && !E.imports binding.cell) = false := by
      cases hbound : binding.bound with
      | false => rfl
      | true => simp [himported binding (by simp) hbound]
    have hdialog : ∀ heap, defineWhen binding.dialogResult ranks heap (.scope .dialog) binding.name
        (.accessor earlier.length) = defineAll Property.frozen heap
          (if binding.dialogResult then
            [((.scope .dialog, binding.name), .accessor earlier.length)] else []) := by
      refine fun heap => defineWhen_eq (fun hresult s hs => ?_) _ _
      cases hs
      exact hscope .dialog (by simp [Binding.shows, hresult])
    have hglobal : ∀ heap, defineWhen (binding.visible ranks earlier) ranks heap .global
        binding.name (.accessor earlier.length) = defineAll Property.frozen heap
          (if binding.visible ranks earlier then
            [((.global, binding.name), .accessor earlier.length)] else []) :=
      fun heap => defineWhen_eq (fun _ s hs => by cases hs) _ _
    rw [projectCells, himport, if_neg (by simp), cellDefinitions, Binding.definitions]
    simp only [defineNamespace_eq hscope, hdialog, hglobal, hrest, defineAll_append,
      Option.bind_eq_bind, Option.bind_assoc]

/-- A value that is not imported ends the first loop. -/
theorem projectCells_of_not_imported (h : ¬ Imported E rest) :
    projectCells E ranks earlier heap rest = none := by
  induction rest generalizing earlier heap with
  | nil => exact absurd (by intro b hb; cases hb) h
  | cons binding rest ih =>
    rw [projectCells]
    split
    next => rfl
    next himport =>
      have hrest : ¬ Imported E rest := by
        intro himported
        refine h fun b hb hbound => ?_
        rcases List.mem_cons.mp hb with rfl | hin
        · simpa [hbound] using himport
        · exact himported b hin hbound
      simp only [ih hrest, Option.bind_eq_bind, Option.bind_fun_none]

/-- The second loop makes its definitions in order. -/
theorem projectOwners_eq (owners : List Namespace) :
    projectOwners ranks bindings heap owners =
      defineAll Property.frozen heap (owners.flatMap (ownerDefinitionsOf ranks bindings)) := by
  induction owners generalizing heap with
  | nil => rfl
  | cons s owners ih =>
    rw [projectOwners, List.flatMap_cons, defineAll_append, ownerDefinitionsOf]
    split
    next => exact ih
    next hpresent =>
      have hself : ∀ heap, defineWhen (!selfHidden bindings s) ranks heap (.scope s) s.name
          (.owner s) = defineAll Property.frozen heap
            (if selfHidden bindings s then [] else [((.scope s, s.name), .owner s)]) := by
        intro heap
        rw [defineWhen_eq (fun _ t ht => by cases ht; simpa [Option.isNone_iff_eq_none,
          Option.isSome_iff_ne_none] using hpresent)]
        cases selfHidden bindings s <;> rfl
      have hglobal : ∀ heap, defineWhen (!hidden ranks bindings s) ranks heap .global s.name
          (.owner s) = defineAll Property.frozen heap
            (if hidden ranks bindings s then [] else [((.global, s.name), .owner s)]) := by
        intro heap
        rw [defineWhen_eq (fun _ t ht => by cases ht)]
        cases hidden ranks bindings s <;> rfl
      simp only [hself, hglobal, ih, defineAll_append, Option.bind_eq_bind, Option.bind_assoc]

theorem projectBindings_eq (hhoused : Housed ranks bindings) (himported : Imported E bindings) :
    projectBindings E ranks bindings = defineAll Property.frozen E.objects
      (cellDefinitions ranks [] bindings ++ ownerDefinitions ranks bindings) := by
  rw [projectBindings, projectCells_eq hhoused himported, defineAll_append, ownerDefinitions]
  simp only [projectOwners_eq, Option.bind_eq_bind]

/-! ## Keys -/

variable {name : Name} {property : Property}

theorem mem_definitions_scope {s : Namespace} :
    ((.scope s, name), property) ∈ binding.definitions ranks earlier ↔
      binding.shows s = true ∧ name = binding.name ∧ property = .accessor earlier.length := by
  constructor
  · intro h
    rcases List.mem_append.mp h with hnamespace | hrest
    · obtain ⟨t, ht, heq⟩ := List.mem_map.mp hnamespace
      cases heq
      exact ⟨by simp [Binding.shows, Option.mem_toList.mp ht], rfl, rfl⟩
    · rcases List.mem_append.mp hrest with hdialog | hglobal
      · split at hdialog
        next hresult =>
          cases List.mem_singleton.mp hdialog
          exact ⟨by simp [Binding.shows, hresult], rfl, rfl⟩
        next => cases hdialog
      · split at hglobal
        next => cases List.mem_singleton.mp hglobal
        next => cases hglobal
  · rintro ⟨hshown, rfl, rfl⟩
    rw [Binding.shows, Bool.or_eq_true, beq_iff_eq, Bool.and_eq_true, beq_iff_eq] at hshown
    rcases hshown with hnamespace | ⟨rfl, hresult⟩
    · exact List.mem_append_left _ (List.mem_map.mpr ⟨s, by simp [hnamespace], rfl⟩)
    · exact List.mem_append_right _ (List.mem_append_left _ (by simp [hresult]))

theorem mem_definitions_global :
    ((.global, name), property) ∈ binding.definitions ranks earlier ↔
      binding.visible ranks earlier = true ∧ name = binding.name ∧
        property = .accessor earlier.length := by
  constructor
  · intro h
    rcases List.mem_append.mp h with hnamespace | hrest
    · obtain ⟨t, -, heq⟩ := List.mem_map.mp hnamespace
      cases heq
    · rcases List.mem_append.mp hrest with hdialog | hglobal
      · split at hdialog
        next => cases List.mem_singleton.mp hdialog
        next => cases hdialog
      · split at hglobal
        next hvisible =>
          cases List.mem_singleton.mp hglobal
          exact ⟨hvisible, rfl, rfl⟩
        next => cases hglobal
  · rintro ⟨hvisible, rfl, rfl⟩
    exact List.mem_append_right _ (List.mem_append_right _ (by simp [hvisible]))

/-- A definition comes from a binding and those before it. -/
theorem mem_cellDefinitions {d : Definition} :
    d ∈ cellDefinitions ranks earlier rest ↔
      ∃ (j : ℕ) (binding : Binding), rest[j]? = some binding ∧
        d ∈ binding.definitions ranks (earlier ++ rest.take j) := by
  induction rest generalizing earlier with
  | nil => simp [cellDefinitions]
  | cons first rest ih =>
    rw [cellDefinitions, List.mem_append, ih]
    constructor
    · rintro (hfirst | ⟨j, binding, hj, hd⟩)
      · exact ⟨0, first, rfl, by simpa using hfirst⟩
      · exact ⟨j + 1, binding, hj, by simpa using hd⟩
    · rintro ⟨j, binding, hj, hd⟩
      cases j with
      | zero =>
        cases hj
        exact .inl (by simpa using hd)
      | succ j => exact .inr ⟨j, binding, hj, by simpa using hd⟩

theorem mem_ownerDefinitions_scope {s : Namespace} :
    ((.scope s, name), property) ∈ ownerDefinitions ranks bindings ↔
      (ranks s).isSome ∧ selfHidden bindings s = false ∧ name = s.name ∧ property = .owner s := by
  have hmem : ∀ t, ((.scope s, name), property) ∈ ownerDefinitionsOf ranks bindings t ↔
      t = s ∧ (ranks s).isSome ∧ selfHidden bindings s = false ∧ name = s.name ∧
        property = .owner s := by
    intro t
    rw [ownerDefinitionsOf]
    by_cases hts : t = s
    · subst hts
      cases ranks t <;> cases selfHidden bindings t <;> cases hidden ranks bindings t <;> simp
    · cases ranks t <;> cases selfHidden bindings t <;> cases hidden ranks bindings t <;>
        simp [hts, Ne.symm hts]
  rw [ownerDefinitions, List.mem_flatMap]
  constructor
  · rintro ⟨t, -, ht⟩
    exact ((hmem t).mp ht).2
  · intro h
    exact ⟨s, by cases s <;> simp, (hmem s).mpr ⟨rfl, h⟩⟩

theorem mem_ownerDefinitions_global :
    ((.global, name), property) ∈ ownerDefinitions ranks bindings ↔
      ∃ s, (ranks s).isSome ∧ hidden ranks bindings s = false ∧ name = s.name ∧
        property = .owner s := by
  have hmem : ∀ s, ((.global, name), property) ∈ ownerDefinitionsOf ranks bindings s ↔
      (ranks s).isSome ∧ hidden ranks bindings s = false ∧ name = s.name ∧ property = .owner s := by
    intro s
    rw [ownerDefinitionsOf]
    cases ranks s <;> cases selfHidden bindings s <;> cases hidden ranks bindings s <;> simp
  rw [ownerDefinitions, List.mem_flatMap]
  constructor
  · rintro ⟨s, -, hs⟩
    exact ⟨s, (hmem s).mp hs⟩
  · rintro ⟨s, h⟩
    exact ⟨s, by cases s <;> simp, (hmem s).mpr h⟩

/-- No scope shows two bindings of one name. -/
def Apart (bindings : List Binding) : Prop :=
  bindings.Pairwise fun one other =>
    ∀ s, one.shows s = true → other.shows s = true → one.name ≠ other.name

/-- A result of the dialog has its cell in another scope. -/
def Tagged (bindings : List Binding) : Prop :=
  ∀ binding ∈ bindings, binding.dialogResult = true → binding.namespaceId ≠ some .dialog

theorem definitions_nodup (h : binding.dialogResult = true → binding.namespaceId ≠ some .dialog) :
    ((binding.definitions ranks earlier).map Prod.fst).Nodup := by
  rw [Binding.definitions]
  cases hnamespace : binding.namespaceId with
  | none => cases binding.dialogResult <;> cases binding.visible ranks earlier <;> simp
  | some s =>
    cases hresult : binding.dialogResult with
    | false => cases binding.visible ranks earlier <;> simp
    | true =>
      have hs : s ≠ .dialog := fun hs => h hresult (by rw [hnamespace, hs])
      cases binding.visible ranks earlier <;> simp [hs]

theorem cellDefinitions_nodup (htagged : Tagged rest) :
    ((cellDefinitions ranks earlier rest).map Prod.fst).Nodup ↔ Apart rest := by
  induction rest generalizing earlier with
  | nil => simp [cellDefinitions, Apart]
  | cons binding rest ih =>
    rw [cellDefinitions, List.map_append, List.nodup_append, Apart, List.pairwise_cons,
      ih (fun b hb => htagged b (by simp [hb]))]
    constructor
    · rintro ⟨-, hrest, hdisjoint⟩
      refine ⟨fun other hother s hshown hshown' hname => ?_, hrest⟩
      obtain ⟨j, hj⟩ := List.mem_iff_getElem?.mp hother
      refine hdisjoint _ (List.mem_map_of_mem (mem_definitions_scope.mpr ⟨hshown, rfl, rfl⟩)) _
        (List.mem_map_of_mem (mem_cellDefinitions.mpr
          ⟨j, other, hj, mem_definitions_scope.mpr ⟨hshown', rfl, rfl⟩⟩)) ?_
      rw [hname]
    · rintro ⟨hapart, hrest⟩
      refine ⟨definitions_nodup (htagged binding (by simp)), hrest, ?_⟩
      rintro key hkey key' hkey' rfl
      obtain ⟨⟨⟨object, name⟩, property⟩, hd, rfl⟩ := List.mem_map.mp hkey
      obtain ⟨⟨key, property'⟩, hd', hkeys⟩ := List.mem_map.mp hkey'
      subst hkeys
      obtain ⟨j, other, hj, hother⟩ := mem_cellDefinitions.mp hd'
      cases object with
      | scope s =>
        obtain ⟨hshown, hname, -⟩ := mem_definitions_scope.mp hd
        obtain ⟨hshown', hname', -⟩ := mem_definitions_scope.mp hother
        exact hapart other (List.mem_of_getElem? hj) s hshown hshown' (hname.symm.trans hname')
      | global =>
        obtain ⟨-, hname, -⟩ := mem_definitions_global.mp hd
        obtain ⟨hvisible, hname', -⟩ := mem_definitions_global.mp hother
        rw [Binding.visible, Bool.and_eq_true, Bool.not_eq_true', List.any_eq_false] at hvisible
        exact hvisible.1 binding (by simp) (by simpa using hname.symm.trans hname')

/-- No owner is defined twice. -/
theorem ownerDefinitions_nodup : ((ownerDefinitions ranks bindings).map Prod.fst).Nodup := by
  have hone : ∀ s, ((ownerDefinitionsOf ranks bindings s).map Prod.fst).Nodup := by
    intro s
    rw [ownerDefinitionsOf]
    cases ranks s <;> cases selfHidden bindings s <;> cases hidden ranks bindings s <;> simp
  have hname : ∀ s, ∀ key ∈ (ownerDefinitionsOf ranks bindings s).map Prod.fst,
      key.2 = s.name := by
    intro s
    rw [ownerDefinitionsOf]
    cases ranks s <;> cases selfHidden bindings s <;> cases hidden ranks bindings s <;> simp
  rw [ownerDefinitions, List.map_flatMap, List.nodup_flatMap]
  refine ⟨fun s _ => hone s, ?_⟩
  have hapart : ∀ s t : Namespace, s ≠ t →
      List.Disjoint ((ownerDefinitionsOf ranks bindings s).map Prod.fst)
        ((ownerDefinitionsOf ranks bindings t).map Prod.fst) := by
    intro s t hst key hs ht
    exact hst (Namespace.name_injective ((hname s key hs).symm.trans (hname t key ht)))
  refine List.Pairwise.imp (fun {s t} hst => hapart s t hst) ?_
  decide

/-- No key of an owner is that of a binding. -/
theorem definitions_disjoint {key : Object × Name}
    (hcell : key ∈ (cellDefinitions ranks [] bindings).map Prod.fst)
    (howner : key ∈ (ownerDefinitions ranks bindings).map Prod.fst) : False := by
  obtain ⟨⟨⟨object, name⟩, property⟩, hd, rfl⟩ := List.mem_map.mp hcell
  obtain ⟨⟨key, property'⟩, hd', hkeys⟩ := List.mem_map.mp howner
  subst hkeys
  obtain ⟨j, binding, hj, hbinding⟩ := mem_cellDefinitions.mp hd
  have hmem := List.mem_of_getElem? hj
  cases object with
  | scope s =>
    obtain ⟨hshown, rfl, -⟩ := mem_definitions_scope.mp hbinding
    obtain ⟨-, hself, hname, -⟩ := mem_ownerDefinitions_scope.mp hd'
    rw [selfHidden, List.any_eq_false] at hself
    exact hself binding hmem (by simp [hname, hshown])
  | global =>
    obtain ⟨hvisible, rfl, -⟩ := mem_definitions_global.mp hbinding
    obtain ⟨s, hpresent, hhidden, hname, -⟩ := mem_ownerDefinitions_global.mp hd'
    rw [hidden, List.any_eq_false] at hhidden
    have hfar := hhidden binding hmem
    rw [Binding.visible, Bool.and_eq_true, List.all_eq_true] at hvisible
    have hclose := hvisible.2 s (by cases s <;> simp)
    obtain ⟨k, hk⟩ := Option.isSome_iff_exists.mp hpresent
    simp [hk, hname] at hfar hclose
    omega

theorem definitions_frozen {d : Definition}
    (h : d ∈ cellDefinitions ranks [] bindings ++ ownerDefinitions ranks bindings) :
    d.2.frozen = true := by
  obtain ⟨⟨object, name⟩, property⟩ := d
  rcases List.mem_append.mp h with hcell | howner
  · obtain ⟨j, binding, -, hbinding⟩ := mem_cellDefinitions.mp hcell
    cases object with
    | scope s =>
      obtain ⟨-, -, rfl⟩ := mem_definitions_scope.mp hbinding
      rfl
    | global =>
      obtain ⟨-, -, rfl⟩ := mem_definitions_global.mp hbinding
      rfl
  · cases object with
    | scope s =>
      obtain ⟨-, -, -, rfl⟩ := mem_ownerDefinitions_scope.mp howner
      rfl
    | global =>
      obtain ⟨s, -, -, -, rfl⟩ := mem_ownerDefinitions_global.mp howner
      rfl

/-- No defined name is one of the engine's fixed ones. -/
def Free (E : Engine) (ranks : Namespace → Option ℕ) (bindings : List Binding) : Prop :=
  ∀ d ∈ cellDefinitions ranks [] bindings ++ ownerDefinitions ranks bindings,
    (E.objects d.1).any Property.frozen = false

/-- **When no definition is refused.** -/
theorem projectBindings_isSome_iff (hhoused : Housed ranks bindings) (htagged : Tagged bindings) :
    (projectBindings E ranks bindings).isSome ↔
      Imported E bindings ∧ Apart bindings ∧ Free E ranks bindings := by
  by_cases himported : Imported E bindings
  · rw [projectBindings_eq hhoused himported, defineAll_isSome_iff (fun d => definitions_frozen),
      List.map_append, List.nodup_append, cellDefinitions_nodup htagged]
    constructor
    · rintro ⟨⟨hapart, -, -⟩, hfree⟩
      exact ⟨himported, hapart, hfree⟩
    · rintro ⟨-, hapart, hfree⟩
      refine ⟨⟨hapart, ownerDefinitions_nodup, ?_⟩, hfree⟩
      rintro key hcell key' howner rfl
      exact definitions_disjoint hcell howner
  · refine iff_of_false ?_ fun h => himported h.1
    rw [projectBindings, projectCells_of_not_imported himported]
    simp

/-! ## The objects -/

/-- What the objects hold. -/
structure Projected (E : Engine) (ranks : Namespace → Option ℕ) (bindings : List Binding)
    (heap : Objects) : Prop where
  shown : ∀ {i binding s}, bindings[i]? = some binding → binding.shows s = true →
    heap (.scope s, binding.name) = some (.accessor i)
  self : ∀ {s}, (ranks s).isSome → selfHidden bindings s = false →
    heap (.scope s, s.name) = some (.owner s)
  absent : ∀ {s name}, (∀ binding ∈ bindings, binding.shows s = true → binding.name ≠ name) →
    name ≠ s.name → heap (.scope s, name) = none
  visible : ∀ {i binding}, bindings[i]? = some binding →
    binding.visible ranks (bindings.take i) = true →
    heap (.global, binding.name) = some (.accessor i)
  named : ∀ {s}, (ranks s).isSome → hidden ranks bindings s = false →
    heap (.global, s.name) = some (.owner s)
  fresh : ∀ {name}, (∀ binding ∈ bindings, binding.name ≠ name) →
    (∀ s, (ranks s).isSome → name ≠ s.name) → heap (.global, name) = E.objects (.global, name)

/-- **The objects hold the bindings that they show**, and nothing else is new. -/
theorem projected (hhoused : Housed ranks bindings) (htagged : Tagged bindings)
    (h : projectBindings E ranks bindings = some heap) : Projected E ranks bindings heap := by
  have himported : Imported E bindings :=
    ((projectBindings_isSome_iff hhoused htagged).mp (Option.isSome_iff_exists.mpr ⟨_, h⟩)).1
  rw [projectBindings_eq hhoused himported] at h
  have hget : ∀ key property,
      (key, property) ∈ cellDefinitions ranks [] bindings ++ ownerDefinitions ranks bindings →
      heap key = some property :=
    fun _ _ hmem => defineAll_of_mem (fun _ => definitions_frozen) h hmem
  have hkeep : ∀ key, key ∉ (cellDefinitions ranks [] bindings).map Prod.fst →
      key ∉ (ownerDefinitions ranks bindings).map Prod.fst → heap key = E.objects key := by
    intro key hcell howner
    refine defineAll_of_notMem h ?_
    rw [List.map_append, List.mem_append, not_or]
    exact ⟨hcell, howner⟩
  constructor
  · intro i binding s hi hs
    have hlt : i < bindings.length := (List.getElem?_eq_some_iff.mp hi).1
    refine hget _ _ (List.mem_append_left _ (mem_cellDefinitions.mpr ⟨i, binding, hi, ?_⟩))
    refine mem_definitions_scope.mpr ⟨hs, rfl, ?_⟩
    rw [List.nil_append, List.length_take, Nat.min_eq_left (Nat.le_of_lt hlt)]
  · intro s hpresent hself
    exact hget _ _ (List.mem_append_right _
      (mem_ownerDefinitions_scope.mpr ⟨hpresent, hself, rfl, rfl⟩))
  · intro s name hunbound hname
    refine hkeep _ (fun hmem => ?_) fun hmem => ?_
    · obtain ⟨⟨key, property⟩, hd, hkey⟩ := List.mem_map.mp hmem
      subst hkey
      obtain ⟨j, binding, hj, hbinding⟩ := mem_cellDefinitions.mp hd
      obtain ⟨hshown, hsame, -⟩ := mem_definitions_scope.mp hbinding
      exact hunbound binding (List.mem_of_getElem? hj) hshown hsame.symm
    · obtain ⟨⟨key, property⟩, hd, hkey⟩ := List.mem_map.mp hmem
      subst hkey
      exact hname (mem_ownerDefinitions_scope.mp hd).2.2.1
  · intro i binding hi hvisible
    have hlt : i < bindings.length := (List.getElem?_eq_some_iff.mp hi).1
    refine hget _ _ (List.mem_append_left _ (mem_cellDefinitions.mpr ⟨i, binding, hi, ?_⟩))
    refine mem_definitions_global.mpr ⟨hvisible, rfl, ?_⟩
    rw [List.nil_append, List.length_take, Nat.min_eq_left (Nat.le_of_lt hlt)]
  · intro s hpresent hhidden
    exact hget _ _ (List.mem_append_right _
      (mem_ownerDefinitions_global.mpr ⟨s, hpresent, hhidden, rfl, rfl⟩))
  · intro name hunbound hunnamed
    refine hkeep _ (fun hmem => ?_) fun hmem => ?_
    · obtain ⟨⟨key, property⟩, hd, hkey⟩ := List.mem_map.mp hmem
      subst hkey
      obtain ⟨j, binding, hj, hbinding⟩ := mem_cellDefinitions.mp hd
      obtain ⟨-, hsame, -⟩ := mem_definitions_global.mp hbinding
      exact hunbound binding (List.mem_of_getElem? hj) hsame.symm
    · obtain ⟨⟨key, property⟩, hd, hkey⟩ := List.mem_map.mp hmem
      subst hkey
      obtain ⟨s, hpresent, -, hsame, -⟩ := mem_ownerDefinitions_global.mp hd
      exact hunnamed s hpresent hsame

end

end TurboScxml.Voice.Scopes
