import Mathlib.Tactic.SplitIfs
import TurboScxml.Voice.ScopeObjects

/-!
# The bindings of an active chain

* `chainBindings`, `rankOf`, `formOf`: what `bindings_create` collects, as functions of the chain;
* `bindingsCreate_spec`: it collects that, or reports a limit or a broken contract;
* `bare_eq`, `member_eq`: what names mean, told by the bindings.
-/

namespace TurboScxml.Voice.Scopes

open Fallible

variable (P : Program) (limits : Limits) (storage : Storage)

def chainBindings : ℕ → List ℕ → List Binding
  | _, [] => []
  | rank, id :: chain =>
    P.scopes[id]?.elim [] (slotBindings storage rank id) ++ chainBindings (rank + 1) chain

/-- The rank of a named scope; `application` comes after the chain. -/
def rankOf (s : Namespace) : ℕ → List ℕ → Option ℕ
  | rank, [] => if s = .application then some rank else none
  | rank, id :: chain => if namespaceOf P id = some s then some rank else rankOf s (rank + 1) chain

def formOf (chain : List ℕ) : Option ℕ :=
  (ownerOf P chain .dialog).bind fun id => P.scopes[id]?.map ScopeRow.owner

def bindingsOf (chain : List ℕ) : List Binding :=
  chainBindings P storage 0 chain ++ rootBindings P storage chain.length (formOf P chain)

structure Active (chain : List ℕ) : Prop where
  present : ∀ id ∈ chain, id < P.scopes.length
  nodup : (chain.filterMap (namespaceOf P)).Nodup

section

variable {P limits storage} {bindings : List Binding}

theorem foldlM_pushBinding {more found : List Binding}
    (h : more.foldlM (pushBinding limits) bindings = .ok found) : found = bindings ++ more := by
  induction more generalizing bindings with
  | nil =>
    cases h
    simp
  | cons first rest ih =>
    obtain ⟨middle, hmiddle, hrest⟩ := bind_eq_ok.mp h
    unfold pushBinding at hmiddle
    split at hmiddle
    next => cases hmiddle
    next =>
      cases hmiddle
      rw [ih hrest, List.append_assoc, List.singleton_append]

variable {rank : ℕ} {form : Option ℕ}

theorem foldlM_pushRoot {entries : List (Slot × ℕ)} {found : List Binding}
    (h : entries.foldlM (pushRoot P limits storage rank form) bindings = .ok found) :
    found = bindings ++
      entries.map fun entry => rootBinding P storage rank form entry.1 entry.2 := by
  induction entries generalizing bindings with
  | nil =>
    cases h
    simp
  | cons first rest ih =>
    obtain ⟨middle, hmiddle, hrest⟩ := bind_eq_ok.mp h
    unfold pushRoot at hmiddle
    split_ifs at hmiddle
    cases hmiddle
    rw [ih hrest, List.append_assoc, List.singleton_append, List.map_cons]

variable (P storage) in
structure Collects (rank : ℕ) (chain : List ℕ) (before after : Collected) : Prop where
  bindings : after.bindings = before.bindings ++ chainBindings P storage rank chain
  ranks : ∀ s ≠ .application, after.ranks s = (before.ranks s).or (rankOf P s rank chain)
  application : after.ranks .application = before.ranks .application
  form : after.form = (formOf P chain).or before.form
  active : Active P chain
  single : ∀ s, (before.ranks s).isSome → ∀ id ∈ chain, namespaceOf P id ≠ some s

variable {id : ℕ} {before after : Collected}

theorem collectScope_spec (h : collectScope P limits storage rank id before = .ok after) :
    ∃ row, P.scopes[id]? = some row ∧
      after.bindings = before.bindings ++ slotBindings storage rank id row ∧
      after.form = (if row.kind = .form then some row.owner else before.form) ∧
      (∀ s ∈ row.kind.namespaceId, before.ranks s = none) ∧
      ∀ s, after.ranks s =
        if row.kind.namespaceId = some s then some rank else before.ranks s := by
  unfold collectScope at h
  cases hrow : P.scopes[id]? with
  | none =>
    rw [hrow] at h
    cases h
  | some row =>
    rw [hrow] at h
    refine ⟨row, rfl, ?_⟩
    dsimp only at h
    cases hnamespace : row.kind.namespaceId with
    | none =>
      rw [hnamespace] at h
      obtain ⟨bindings, hbindings, hafter⟩ := bind_eq_ok.mp h
      cases hafter
      exact ⟨foldlM_pushBinding hbindings, rfl, by simp, by simp⟩
    | some s =>
      rw [hnamespace] at h
      dsimp only at h
      split at h
      next => cases h
      next hfree =>
        obtain ⟨bindings, hbindings, hafter⟩ := bind_eq_ok.mp h
        cases hafter
        refine ⟨foldlM_pushBinding hbindings, rfl, ?_, fun t => ?_⟩
        · simpa using hfree
        · by_cases hst : s = t
          · simp [hst]
          · have hne : some s ≠ some t := fun heq => hst (Option.some.inj heq)
            rw [if_neg hne]
            exact Function.update_of_ne (Ne.symm hst) _ _

theorem namespaceId_eq_dialog {kind : ScopeKind} :
    kind.namespaceId = some .dialog ↔ kind = .form := by
  cases kind <;> simp [ScopeKind.namespaceId]

theorem ownerOf_cons (id : ℕ) (chain : List ℕ) (s : Namespace) :
    ownerOf P (id :: chain) s =
      if namespaceOf P id = some s then some id else ownerOf P chain s := by
  rw [ownerOf, List.find?_cons]
  by_cases hid : namespaceOf P id = some s
  · simp [hid]
  · rw [if_neg hid]
    simp only [beq_eq_false_iff_ne.mpr hid]
    rfl

variable {chain : List ℕ} {s : Namespace}

theorem ownerOf_eq_none_iff :
    ownerOf P chain s = none ↔ ∀ id ∈ chain, namespaceOf P id ≠ some s := by
  rw [ownerOf, List.find?_eq_none]
  simp

variable {row : ScopeRow}

theorem formOf_cons (hrow : P.scopes[id]? = some row) (chain : List ℕ) :
    formOf P (id :: chain) = if row.kind = .form then some row.owner else formOf P chain := by
  rw [formOf, ownerOf_cons, namespaceOf, hrow, Option.bind_some]
  by_cases hkind : row.kind = .form
  · simp [hkind, ScopeKind.namespaceId, hrow]
  · rw [if_neg (by rwa [namespaceId_eq_dialog]), if_neg hkind]
    rfl

theorem collectScopes_spec (h : collectScopes P limits storage rank chain before = .ok after) :
    Collects P storage rank chain before after := by
  induction chain generalizing rank before with
  | nil =>
    cases h
    refine ⟨by simp [chainBindings], fun s hs => ?_, rfl, rfl, ⟨by simp, by simp⟩, by simp⟩
    simp [rankOf, hs]
  | cons id chain ih =>
    obtain ⟨middle, hmiddle, hrest⟩ := bind_eq_ok.mp h
    obtain ⟨row, hrow, hbindings, hform, hfree, hranks⟩ := collectScope_spec hmiddle
    have hnext := ih hrest
    have hnamespace : namespaceOf P id = row.kind.namespaceId := by rw [namespaceOf, hrow]; rfl
    constructor
    · rw [hnext.bindings, hbindings, chainBindings, hrow, Option.elim_some, List.append_assoc]
    · intro s hs
      rw [hnext.ranks s hs, hranks, rankOf, hnamespace]
      by_cases hid : row.kind.namespaceId = some s
      · rw [if_pos hid, if_pos hid, hfree s hid]
        rfl
      · rw [if_neg hid, if_neg hid]
    · rw [hnext.application, hranks, if_neg]
      rw [← hnamespace]
      exact namespaceOf_ne_application id
    · rw [hnext.form, hform, formOf_cons hrow]
      by_cases hkind : row.kind = .form
      · have hnone : formOf P chain = none := by
          rw [formOf, ownerOf_eq_none_iff.mpr, Option.bind_none]
          refine hnext.single .dialog ?_
          rw [hranks, if_pos (namespaceId_eq_dialog.mpr hkind)]
          rfl
        rw [if_pos hkind, if_pos hkind, hnone]
        rfl
      · rw [if_neg hkind, if_neg hkind]
    · refine ⟨?_, ?_⟩
      · intro x hx
        rcases List.mem_cons.mp hx with rfl | hin
        · exact (List.getElem?_eq_some_iff.mp hrow).1
        · exact hnext.active.present x hin
      · rw [List.filterMap_cons, hnamespace]
        cases hid : row.kind.namespaceId with
        | none => exact hnext.active.nodup
        | some s =>
          refine List.nodup_cons.mpr ⟨fun hin => ?_, hnext.active.nodup⟩
          obtain ⟨x, hx, hxs⟩ := List.mem_filterMap.mp hin
          refine hnext.single s ?_ x hx hxs
          rw [hranks, if_pos hid]
          rfl
    · intro s hs x hx
      rcases List.mem_cons.mp hx with rfl | hin
      · intro hxs
        rw [hnamespace] at hxs
        rw [hfree s hxs] at hs
        cases hs
      · refine hnext.single s ?_ x hin
        rw [hranks]
        split
        next => rfl
        next => exact hs

theorem rankOf_application (rank : ℕ) (chain : List ℕ) :
    rankOf P .application rank chain = some (rank + chain.length) := by
  induction chain generalizing rank with
  | nil => rfl
  | cons id chain ih =>
    rw [rankOf, if_neg (namespaceOf_ne_application id), ih, List.length_cons]
    congr 1
    omega

theorem bindingsCreate_spec {ranks : Namespace → Option ℕ}
    (h : bindingsCreate P limits storage chain = .ok (bindings, ranks)) :
    bindings = bindingsOf P storage chain ∧ (ranks = fun s => rankOf P s 0 chain) ∧
      Active P chain := by
  unfold bindingsCreate at h
  split at h
  next => cases h
  next =>
    obtain ⟨collected, hcollected, hrest⟩ := bind_eq_ok.mp h
    obtain ⟨found, hfound, hlast⟩ := bind_eq_ok.mp hrest
    obtain ⟨bytes, -, hresult⟩ := bind_eq_ok.mp hlast
    cases hresult
    have hspec := collectScopes_spec hcollected
    refine ⟨?_, ?_, hspec.active⟩
    · rw [foldlM_pushRoot hfound, hspec.bindings, hspec.form, List.nil_append, Option.or_none]
      rfl
    · funext s
      by_cases hs : s = .application
      · subst hs
        rw [hspec.application, rankOf_application, Nat.zero_add]
        rfl
      · rw [hspec.ranks s hs]
        dsimp only
        rw [if_neg hs, Option.none_or]

/-! ## Names of bindings -/

variable {name : Name} {index : ℕ}

theorem findIdx?_name {slots : List Slot} (hnodup : (slots.map Slot.name).Nodup) :
    slots.findIdx? (·.name == name) = some index ↔
      ∃ slot, slots[index]? = some slot ∧ slot.name = name := by
  rw [List.findIdx?_eq_some_iff_getElem]
  constructor
  · rintro ⟨hlt, hname, -⟩
    exact ⟨slots[index], List.getElem?_eq_getElem hlt, by simpa using hname⟩
  · rintro ⟨slot, hslot, hname⟩
    obtain ⟨hlt, rfl⟩ := List.getElem?_eq_some_iff.mp hslot
    refine ⟨hlt, by simpa using hname, fun j hj => ?_⟩
    have hat : index < (slots.map Slot.name).length := by simpa using hlt
    intro hsame
    have heq : (slots.map Slot.name)[j] = (slots.map Slot.name)[index] := by
      simpa [hname] using hsame
    have := (List.Nodup.getElem_inj_iff hnodup).mp heq
    omega

variable {binding : Binding}

theorem mem_slotBindings :
    binding ∈ slotBindings storage rank id row ↔
      ∃ index slot, row.slots[index]? = some slot ∧ storage.declared id index = true ∧
        binding = ⟨slot.name, slot.type, .slot id index, storage.bound (.slot id index), rank,
          row.kind.namespaceId, false⟩ := by
  rw [slotBindings, List.mem_filterMap]
  constructor
  · rintro ⟨⟨slot, index⟩, hentry, hbinding⟩
    rw [List.mem_zipIdx_iff_getElem?] at hentry
    dsimp only at hbinding
    split at hbinding
    next hdeclared =>
      cases hbinding
      exact ⟨index, slot, hentry, hdeclared, rfl⟩
    next => cases hbinding
  · rintro ⟨index, slot, hslot, hdeclared, rfl⟩
    refine ⟨(slot, index), List.mem_zipIdx_iff_getElem?.mpr hslot, ?_⟩
    dsimp only
    rw [if_pos hdeclared]

theorem declaredSlot_eq_some (hrow : P.scopes[id]? = some row) {declared : Declared} :
    declaredSlot P declared id name = some index ↔
      declared id index = true ∧ ∃ slot, row.slots[index]? = some slot ∧ slot.name = name := by
  have hnodup := P.slots_nodup row (List.mem_of_getElem? hrow)
  rw [declaredSlot, scopeFind, hrow, Option.bind_some, Option.filter_eq_some_iff,
    findIdx?_name hnodup, and_comm]

theorem slotBindings_name (hrow : P.scopes[id]? = some row)
    (hbinding : binding ∈ slotBindings storage rank id row) :
    ∃ index, declaredSlot P storage.declared id binding.name = some index ∧
      binding.cell = .slot id index := by
  obtain ⟨index, slot, hslot, hdeclared, rfl⟩ := mem_slotBindings.mp hbinding
  exact ⟨index, (declaredSlot_eq_some hrow).mpr ⟨hdeclared, slot, hslot, rfl⟩, rfl⟩

theorem exists_slotBinding (rank : ℕ) (hrow : P.scopes[id]? = some row)
    (h : declaredSlot P storage.declared id name = some index) :
    ∃ binding ∈ slotBindings storage rank id row, binding.name = name := by
  obtain ⟨hdeclared, slot, hslot, hname⟩ := (declaredSlot_eq_some hrow).mp h
  exact ⟨_, mem_slotBindings.mpr ⟨index, slot, hslot, hdeclared, rfl⟩, hname⟩

theorem mem_rootBindings :
    binding ∈ rootBindings P storage rank form ↔
      ∃ field slot, P.root[field]? = some slot ∧
        binding = rootBinding P storage rank form slot field := by
  rw [rootBindings, List.mem_map]
  constructor
  · rintro ⟨⟨slot, field⟩, hentry, rfl⟩
    exact ⟨field, slot, List.mem_zipIdx_iff_getElem?.mp hentry, rfl⟩
  · rintro ⟨field, slot, hslot, rfl⟩
    exact ⟨(slot, field), List.mem_zipIdx_iff_getElem?.mpr hslot, rfl⟩

variable {field : ℕ}

theorem rootField_eq_some :
    rootField P name = some field ↔ ∃ slot, P.root[field]? = some slot ∧ slot.name = name :=
  findIdx?_name P.root_nodup

/-! ## Ranks -/

theorem le_rank_of_mem (h : binding ∈ chainBindings P storage rank chain) :
    rank ≤ binding.rank := by
  induction chain generalizing rank with
  | nil => cases h
  | cons id chain ih =>
    rcases List.mem_append.mp h with hhere | hlater
    · cases hrow : P.scopes[id]? with
      | none =>
        rw [hrow] at hhere
        cases hhere
      | some row =>
        rw [hrow] at hhere
        obtain ⟨index, slot, -, -, rfl⟩ := mem_slotBindings.mp hhere
        exact Nat.le_refl rank
    · have := ih hlater
      omega

theorem le_of_rankOf {k : ℕ} (h : rankOf P s rank chain = some k) : rank ≤ k := by
  induction chain generalizing rank with
  | nil =>
    rw [rankOf] at h
    split at h
    next =>
      cases h
      exact Nat.le_refl _
    next => cases h
  | cons id chain ih =>
    rw [rankOf] at h
    split at h
    next =>
      cases h
      exact Nat.le_refl _
    next =>
      have := ih h
      omega

theorem name_ne_of_declaredSlot_eq_none (hrow : P.scopes[id]? = some row)
    (hnone : declaredSlot P storage.declared id name = none)
    (hbinding : binding ∈ slotBindings storage rank id row) : binding.name ≠ name := by
  rintro rfl
  obtain ⟨index, hindex, -⟩ := slotBindings_name hrow hbinding
  rw [hnone] at hindex
  cases hindex

inductive BareCase (name : Name) (rank : ℕ) (chain : List ℕ) (bindings : List Binding) :
    Target → Prop
  | cell {binding : Binding} (find : bindings.find? (·.name == name) = some binding)
      (closer : ∀ s k, name = s.name → rankOf P s rank chain = some k → binding.rank ≤ k) :
      BareCase name rank chain bindings (.cell binding.cell)
  | scope {s : Namespace} {k : ℕ} (named : name = s.name) (ranked : rankOf P s rank chain = some k)
      (farther : ∀ binding ∈ bindings, binding.name = name → k < binding.rank) :
      BareCase name rank chain bindings (.scope s)
  | nothing (unbound : ∀ binding ∈ bindings, binding.name ≠ name)
      (unnamed : ∀ s, name = s.name → rankOf P s rank chain = none) :
      BareCase name rank chain bindings .nothing

theorem bare_cases (hpresent : ∀ id ∈ chain, id < P.scopes.length) (name : Name) (rank : ℕ)
    (form : Option ℕ) :
    BareCase (P := P) name rank chain
      (chainBindings P storage rank chain ++ rootBindings P storage (rank + chain.length) form)
      (bare P storage.declared name chain) := by
  induction chain generalizing rank with
  | nil =>
    rw [bare]
    cases hroot : rootField P name with
    | some field =>
      obtain ⟨slot, hslot, hname⟩ := rootField_eq_some.mp hroot
      have hmem : rootBinding P storage rank form slot field ∈
          rootBindings P storage rank form := mem_rootBindings.mpr ⟨field, slot, hslot, rfl⟩
      have hsome : ∃ other ∈ rootBindings P storage rank form, (other.name == name) = true :=
        ⟨_, hmem, by simpa [rootBinding] using hname⟩
      obtain ⟨binding, hfind⟩ := Option.isSome_iff_exists.mp (List.find?_isSome.mpr hsome)
      obtain ⟨field', slot', hslot', rfl⟩ := mem_rootBindings.mp (List.mem_of_find?_eq_some hfind)
      have hname' : slot'.name = name := by simpa [rootBinding] using List.find?_some hfind
      have hfield := rootField_eq_some.mpr ⟨slot', hslot', hname'⟩
      rw [hroot] at hfield
      cases hfield
      refine .cell hfind fun s k _ hk => ?_
      exact le_of_rankOf hk
    | none =>
      have hunbound : ∀ binding ∈ rootBindings P storage rank form, binding.name ≠ name := by
        rintro binding hbinding rfl
        obtain ⟨field, slot, hslot, rfl⟩ := mem_rootBindings.mp hbinding
        have hfield := rootField_eq_some.mpr ⟨slot, hslot, rfl⟩
        exact absurd (hfield.symm.trans hroot) (by simp)
      by_cases happlication : name = Namespace.application.name
      · simp only [happlication, if_true]
        refine .scope rfl rfl fun binding hbinding hname => ?_
        exact absurd (hname.trans happlication.symm) (hunbound binding hbinding)
      · simp only [if_neg happlication]
        refine .nothing hunbound fun s hs => ?_
        rw [rankOf, if_neg]
        rintro rfl
        exact happlication hs
  | cons id chain ih =>
    obtain ⟨row, hrow⟩ : ∃ row, P.scopes[id]? = some row :=
      ⟨_, List.getElem?_eq_getElem (hpresent id (by simp))⟩
    have hrest := ih (fun x hx => hpresent x (by simp [hx])) (rank + 1)
    have hlength : rank + 1 + chain.length = rank + (id :: chain).length := by
      rw [List.length_cons]
      omega
    rw [hlength] at hrest
    rw [chainBindings, hrow, Option.elim_some, List.append_assoc, bare]
    cases hdeclared : declaredSlot P storage.declared id name with
    | some index =>
      obtain ⟨other, hother, hname⟩ := exists_slotBinding rank hrow hdeclared
      have hsome : ∃ other ∈ slotBindings storage rank id row, (other.name == name) = true :=
        ⟨other, hother, by simpa using hname⟩
      obtain ⟨binding, hfind⟩ := Option.isSome_iff_exists.mp (List.find?_isSome.mpr hsome)
      have hbinding := List.mem_of_find?_eq_some hfind
      have hname' : binding.name = name := by simpa using List.find?_some hfind
      obtain ⟨index', hindex, hcell⟩ := slotBindings_name hrow hbinding
      rw [hname', hdeclared] at hindex
      cases hindex
      dsimp only
      rw [← hcell]
      refine .cell (by rw [List.find?_append, hfind, Option.some_or]) fun s k _ hk => ?_
      obtain ⟨_, _, -, -, rfl⟩ := mem_slotBindings.mp hbinding
      exact le_of_rankOf hk
    | none =>
      have hslots : ∀ binding ∈ slotBindings storage rank id row, binding.name ≠ name :=
        fun _ hbinding => name_ne_of_declaredSlot_eq_none hrow hdeclared hbinding
      cases hfilter : (namespaceOf P id).filter fun s => name == s.name with
      | some s =>
        obtain ⟨hid, hs⟩ := Option.filter_eq_some_iff.mp hfilter
        refine .scope (by simpa using hs) (by rw [rankOf, if_pos hid])
          fun binding hbinding hname => ?_
        rcases List.mem_append.mp hbinding with hhere | hlater
        · exact absurd hname (hslots binding hhere)
        · rcases List.mem_append.mp hlater with hslot | hroot
          · have := le_rank_of_mem hslot
            omega
          · obtain ⟨_, _, -, rfl⟩ := mem_rootBindings.mp hroot
            simp only [rootBinding, List.length_cons]
            omega
      | none =>
        have hranks : ∀ s, name = s.name → rankOf P s rank (id :: chain) =
            rankOf P s (rank + 1) chain := by
          intro s hs
          rw [rankOf, if_neg]
          intro hid
          rw [hid, Option.filter_some] at hfilter
          simp [hs] at hfilter
        revert hrest
        generalize bare P storage.declared name chain = target
        intro hrest
        cases hrest with
        | cell find closer =>
          refine .cell ?_ fun s k hs hk => closer s k hs (hranks s hs ▸ hk)
          rw [List.find?_append, List.find?_eq_none.mpr, Option.none_or, find]
          intro binding hbinding
          simpa using hslots binding hbinding
        | scope named ranked farther =>
          refine .scope named ((hranks _ named).trans ranked) fun binding hbinding hname => ?_
          rcases List.mem_append.mp hbinding with hhere | hlater
          · exact absurd hname (hslots binding hhere)
          · exact farther binding hlater hname
        | nothing unbound unnamed =>
          refine .nothing (fun binding hbinding => ?_)
            fun s hs => (hranks s hs).trans (unnamed s hs)
          rcases List.mem_append.mp hbinding with hhere | hlater
          · exact hslots binding hhere
          · exact unbound binding hlater

/-! ## Members of a scope -/

theorem mem_chainBindings :
    binding ∈ chainBindings P storage rank chain ↔
      ∃ k id row, chain[k]? = some id ∧ P.scopes[id]? = some row ∧
        binding ∈ slotBindings storage (rank + k) id row := by
  induction chain generalizing rank with
  | nil => simp [chainBindings]
  | cons id chain ih =>
    rw [chainBindings, List.mem_append, ih]
    constructor
    · rintro (hhere | ⟨k, other, row, hk, hrow, hbinding⟩)
      · cases hrow : P.scopes[id]? with
        | none =>
          rw [hrow] at hhere
          cases hhere
        | some row =>
          rw [hrow] at hhere
          exact ⟨0, id, row, rfl, hrow, hhere⟩
      · refine ⟨k + 1, other, row, hk, hrow, ?_⟩
        rwa [show rank + (k + 1) = rank + 1 + k by omega]
    · rintro ⟨k, other, row, hk, hrow, hbinding⟩
      cases k with
      | zero =>
        cases hk
        rw [hrow]
        exact .inl hbinding
      | succ k =>
        refine .inr ⟨k, other, row, hk, hrow, ?_⟩
        rwa [show rank + 1 + k = rank + (k + 1) by omega]

theorem Active.ownerOf_eq (h : Active P chain) (hid : id ∈ chain) (hs : namespaceOf P id = some s) :
    ownerOf P chain s = some id := by
  obtain ⟨before, after, rfl⟩ := List.append_of_mem hid
  refine ownerOf_eq_some (fun x hx hxs => ?_) hs
  have hnodup := h.nodup
  rw [List.filterMap_append, List.filterMap_cons, hs, List.nodup_append] at hnodup
  exact hnodup.2.2 s (List.mem_filterMap.mpr ⟨x, hx, hxs⟩) s (by simp) rfl

theorem ownerOf_spec (h : ownerOf P chain s = some id) : id ∈ chain ∧ namespaceOf P id = some s :=
  ⟨List.mem_of_find?_eq_some h, by simpa using List.find?_some h⟩

theorem rankOf_isSome_iff :
    (rankOf P s rank chain).isSome ↔ s = .application ∨ (ownerOf P chain s).isSome := by
  induction chain generalizing rank with
  | nil =>
    rw [rankOf]
    by_cases hs : s = .application <;> simp [hs, ownerOf]
  | cons id chain ih =>
    rw [rankOf, ownerOf_cons]
    by_cases hid : namespaceOf P id = some s
    · simp [hid]
    · rw [if_neg hid, if_neg hid, ih]

/-- A name behind a qualifier, told by the bindings that the scope shows. -/
inductive MemberCase (name : Name) (s : Namespace) (bindings : List Binding) : Target → Prop
  | cell {binding : Binding} (mem : binding ∈ bindings) (shown : binding.shows s = true)
      (named : binding.name = name) : MemberCase name s bindings (.cell binding.cell)
  | scope (unbound : ∀ binding ∈ bindings, binding.shows s = true → binding.name ≠ name)
      (named : name = s.name) : MemberCase name s bindings (.scope s)
  | nothing (unbound : ∀ binding ∈ bindings, binding.shows s = true → binding.name ≠ name)
      (unnamed : name ≠ s.name) : MemberCase name s bindings .nothing

theorem rootBinding_shows {slot : Slot} :
    (rootBinding P storage rank form slot field).shows s = true ↔
      s = .application ∨
        s = .dialog ∧ form.any (fun form => formUsesRootField P form field) = true := by
  cases s <;> simp [Binding.shows, rootBinding]

theorem shows_iff (hactive : Active P chain) (hbinding : binding ∈ bindingsOf P storage chain) :
    binding.shows s = true ↔
      (∃ id index, ownerOf P chain s = some id ∧
        declaredSlot P storage.declared id binding.name = some index ∧
        binding.cell = .slot id index) ∨
      ∃ field, binding.cell = .root field ∧ rootField P binding.name = some field ∧
        (s = .application ∨
          s = .dialog ∧ (formOf P chain).any (formUsesRootField P · field) = true) := by
  rcases List.mem_append.mp hbinding with hslot | hroot
  · obtain ⟨k, id, row, hk, hrow, hhere⟩ := mem_chainBindings.mp hslot
    obtain ⟨index, hindex, hcell⟩ := slotBindings_name hrow hhere
    obtain ⟨_, slot, hslot', -, rfl⟩ := mem_slotBindings.mp hhere
    have hid := List.mem_of_getElem? hk
    have hnamespace : namespaceOf P id = row.kind.namespaceId := by rw [namespaceOf, hrow]; rfl
    rw [hcell]
    simp only [Binding.shows, Bool.and_false, Bool.or_false, beq_iff_eq, ← hnamespace, reduceCtorEq,
      false_and, exists_false, or_false]
    constructor
    · intro hs
      exact ⟨id, index, hactive.ownerOf_eq hid hs, hindex, rfl⟩
    · rintro ⟨other, _, howner, -, hsame⟩
      cases hsame
      exact (ownerOf_spec howner).2
  · obtain ⟨field, slot, hslot, rfl⟩ := mem_rootBindings.mp hroot
    have hfield := rootField_eq_some.mpr ⟨slot, hslot, rfl⟩
    rw [rootBinding_shows]
    constructor
    · exact fun hs => .inr ⟨field, rfl, hfield, hs⟩
    · rintro (⟨_, _, -, -, hcell⟩ | ⟨other, hcell, -, hs⟩)
      · cases hcell
      · cases hcell
        exact hs

theorem namespaceRootField_eq_some (hs : s = .application ∨ (ownerOf P chain s).isSome) :
    namespaceRootField P (ownerOf P chain s) name = some field ↔ rootField P name = some field ∧
      (s = .application ∨
        s = .dialog ∧ (formOf P chain).any (formUsesRootField P · field) = true) := by
  rw [namespaceRootField, Option.filter_eq_some_iff]
  refine and_congr_right fun _ => ?_
  cases howner : ownerOf P chain s with
  | none =>
    rw [howner] at hs
    simp only [Option.isSome_none, Bool.false_eq_true, or_false] at hs
    simp [hs]
  | some id =>
    obtain ⟨-, hid⟩ := ownerOf_spec howner
    obtain ⟨row, hrow, hkind⟩ := Option.bind_eq_some_iff.mp hid
    have happlication : s ≠ .application := by
      rintro rfl
      exact namespaceOf_ne_application id hid
    simp only [hrow, Bool.and_eq_true, beq_iff_eq, ← namespaceId_eq_dialog, hkind, happlication,
      false_or, Option.some.injEq]
    refine and_congr_right fun hdialog => ?_
    subst hdialog
    rw [formOf, howner, Option.bind_some, hrow]
    rfl

theorem member_cases (hactive : Active P chain) (hs : (rankOf P s 0 chain).isSome) (name : Name) :
    MemberCase name s (bindingsOf P storage chain) (member P storage.declared chain s name) := by
  have hnamed := rankOf_isSome_iff.mp hs
  rw [member]
  cases hslot : (ownerOf P chain s).bind fun id =>
      (declaredSlot P storage.declared id name).map (Cell.slot id) with
  | some cell =>
    obtain ⟨id, howner, hmap⟩ := Option.bind_eq_some_iff.mp hslot
    obtain ⟨index, hdeclared, rfl⟩ := Option.map_eq_some_iff.mp hmap
    obtain ⟨hid, hspace⟩ := ownerOf_spec howner
    obtain ⟨row, hrow, hkind⟩ := Option.bind_eq_some_iff.mp hspace
    obtain ⟨k, hk⟩ := List.mem_iff_getElem?.mp hid
    obtain ⟨binding, hbinding, rfl⟩ := exists_slotBinding (0 + k) hrow hdeclared
    have hmem : binding ∈ bindingsOf P storage chain :=
      List.mem_append_left _ (mem_chainBindings.mpr ⟨k, id, row, hk, hrow, hbinding⟩)
    obtain ⟨index', hindex, hcell⟩ := slotBindings_name hrow hbinding
    rw [hdeclared] at hindex
    cases hindex
    rw [← hcell]
    exact .cell hmem ((shows_iff hactive hmem).mpr (.inl ⟨id, index, howner, hdeclared, hcell⟩)) rfl
  | none =>
    cases hfield : namespaceRootField P (ownerOf P chain s) name with
    | some field =>
      obtain ⟨hroot, hshown⟩ := (namespaceRootField_eq_some hnamed).mp hfield
      obtain ⟨slot, hentry, rfl⟩ := rootField_eq_some.mp hroot
      have hmem : rootBinding P storage chain.length (formOf P chain) slot field ∈
          bindingsOf P storage chain :=
        List.mem_append_right _ (mem_rootBindings.mpr ⟨field, slot, hentry, rfl⟩)
      have hshows := (shows_iff hactive hmem).mpr (.inr ⟨field, rfl, hroot, hshown⟩)
      exact MemberCase.cell hmem hshows rfl
    | none =>
      have hunbound : ∀ binding ∈ bindingsOf P storage chain, binding.shows s = true →
          binding.name ≠ name := by
        rintro binding hbinding hshown rfl
        rcases (shows_iff hactive hbinding).mp hshown with
          ⟨id, index, howner, hdeclared, -⟩ | ⟨field, -, hroot, hshows⟩
        · rw [howner, Option.bind_some, hdeclared] at hslot
          cases hslot
        · rw [(namespaceRootField_eq_some hnamed).mpr ⟨hroot, hshows⟩] at hfield
          cases hfield
      dsimp only
      split
      next hself => exact .scope hunbound hself
      next hself => exact .nothing hunbound hself

end

end TurboScxml.Voice.Scopes
