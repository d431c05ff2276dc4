import EntityWorld.Proofs.Signature
import EntityWorld.Zoo

namespace EntityWorld

variable {S : Schema} {σ : Type}

/-- The component type asked for, with the access to it. -/
def Param.component? : Param → Option (TypeId × Access)
  | component type access => some (type, access)
  | _ => none

namespace Signature

/-- A signature is refused for the first parameter that repeats an earlier one, and for the number
of its components only where none does. -/
theorem check_eq_error_iff {params : Signature} {error : ShapeError} :
    check params = .error error ↔
      (∃ earlier param later, params = earlier ++ param :: later ∧ Distinct earlier ∧
        param.Repeats earlier ∧ error = param.repetition) ∨
      (params.Distinct ∧ componentLimit < params.components.length ∧
        error = .tooManyComponents params.components.length) := by
  constructor
  · intro herror
    rcases distinct_or_repeats params with
      hdistinct | ⟨earlier, param, later, rfl, hearlier, hrepeats⟩
    · rw [check_of_distinct hdistinct] at herror
      split at herror
      case isTrue hmany => exact .inr ⟨hdistinct, hmany, (Except.error.inj herror).symm⟩
      case isFalse => cases herror
    · rw [check_of_repeats hearlier hrepeats] at herror
      exact .inl ⟨earlier, param, later, rfl, hearlier, hrepeats, (Except.error.inj herror).symm⟩
  · rintro (⟨earlier, param, later, rfl, hearlier, hrepeats, rfl⟩ | ⟨hdistinct, hmany, rfl⟩)
    · exact check_of_repeats hearlier hrepeats
    · rw [check_of_distinct hdistinct, if_pos hmany]

theorem length_eq (params : Signature) :
    params.components.length + params.countP Param.isContext + params.countP Param.isState =
      params.length := by
  induction params with
  | nil => rfl
  | cons param params ih =>
    rw [List.countP_cons, List.countP_cons, List.length_cons, ← ih, components, List.filterMap_cons]
    cases param <;> simp only [components, Param.isContext, Param.isState, List.length_cons] <;>
      grind

/-- Of the context and of ambient states distinct parameters have at most one each, so counting
whether there are any counts them. -/
theorem Distinct.paramCount {params : Signature} (hdistinct : params.Distinct) :
    params.paramCount = params.length := by
  have hcount {b : Bool} {count : Nat} (hb : b = true ↔ 0 < count) (hle : count ≤ 1) :
      b.toNat = count := by
    cases b <;> simp at hb ⊢ <;> omega
  rw [Signature.paramCount, ← params.length_eq,
    hcount (isSome_state?_iff.trans exists_state_mem_iff) hdistinct.state,
    hcount (asksForContext_iff.trans context_mem_iff) hdistinct.context]
  omega

theorem components_perm {params others : Signature} (hperm : others.Perm params) :
    others.components.Perm params.components :=
  hperm.filterMap _

theorem Distinct.perm {params others : Signature} (hdistinct : params.Distinct)
    (hperm : others.Perm params) : others.Distinct := by
  obtain ⟨hcomponents, hcontext, hstate⟩ := hdistinct
  refine ⟨((components_perm hperm).map Prod.fst).nodup_iff.mpr hcomponents, ?_, ?_⟩
  · rwa [hperm.countP_eq]
  · rwa [hperm.countP_eq]

/-- One more parameter in front has to be as different from the others as one behind. -/
theorem distinct_cons_iff {signature : Signature} {param : Param} :
    Distinct (param :: signature) ↔ signature.Distinct ∧ ¬param.Repeats signature := by
  have hperm : (signature ++ [param]).Perm (param :: signature) :=
    List.perm_append_singleton param signature
  rw [← distinct_concat_iff]
  exact ⟨fun hdistinct => hdistinct.perm hperm, fun hdistinct => hdistinct.perm hperm.symm⟩

/-- The key of a signature does not depend on the order of its parameters, since that of names does
not. -/
theorem key_perm {params others : Signature} (hperm : others.Perm params) (seed : UInt32) :
    others.key seed = params.key seed :=
  Key.ofNames_perm ((components_perm hperm).map _) seed

end Signature

/-- The first signature of a system that does not pass decides, and the error names the system. -/
theorem System.check_eq_error_iff {system : System S σ} {error : Error} :
    system.check = .error error ↔
      ∃ before shape after, system.shapes = before ++ shape :: after ∧
        (∀ earlier ∈ before, Signature.check earlier.signature = .ok ()) ∧
        ∃ cause, Signature.check shape.signature = .error cause ∧
          error = .invalidShape system.id.name cause := by
  have hpasses (shape : Shape S σ) :
      (Signature.check shape.signature).mapError (Error.invalidShape system.id.name) = .ok () ↔
        Signature.check shape.signature = .ok () := by
    cases Signature.check shape.signature <;> simp [Except.mapError]
  have hfails (shape : Shape S σ) :
      (Signature.check shape.signature).mapError (Error.invalidShape system.id.name) =
        .error error ↔ ∃ cause, Signature.check shape.signature = .error cause ∧
          error = .invalidShape system.id.name cause := by
    cases Signature.check shape.signature <;> simp [Except.mapError, eq_comm]
  rw [System.check, forM_eq_error_iff]
  simp only [hpasses, hfails]

/-- Parameters pass exactly if no two ask for the same thing, be it a component type, the context or
the ambient state, and no more than eleven ask for components. The first that repeats an earlier one
decides the error, and that there are too many is only said where none does. What has passed stands
in its order, and in any other order it passes too and has the same key. Of the signatures of a
system the first that does not pass decides. -/
theorem Signature.check_iff_distinct (params : Signature) :
    (check params = .ok () ↔ params.Distinct ∧ params.components.length ≤ 11) ∧
    (∀ error, check params = .error error ↔
      (∃ earlier param later, params = earlier ++ param :: later ∧ Distinct earlier ∧
        param.Repeats earlier ∧ error = param.repetition) ∨
      (params.Distinct ∧ 11 < params.components.length ∧
        error = .tooManyComponents params.components.length)) ∧
    (check params = .ok () → ∃ signature, params.foldlM add empty = .ok signature ∧
      signature.components = params.filterMap Param.component? ∧
      signature.paramCount = params.length ∧
      ∀ others : Signature, others.Perm params → check others = .ok () ∧
        ∃ reordered, others.foldlM add empty = .ok reordered ∧
          ∀ seed, reordered.key seed = signature.key seed) ∧
    ∀ system : System S σ,
      (system.check = .ok () ↔ ∀ shape ∈ system.shapes, check shape.signature = .ok ()) ∧
      ∀ error, system.check = .error error ↔
        ∃ before shape after, system.shapes = before ++ shape :: after ∧
          (∀ earlier ∈ before, check earlier.signature = .ok ()) ∧
          ∃ cause, check shape.signature = .error cause ∧
            error = .invalidShape system.id.name cause := by
  refine ⟨check_eq_ok_iff, fun _ => check_eq_error_iff, fun hcheck => ?_, fun _ =>
    ⟨System.check_eq_ok_iff, fun _ => System.check_eq_error_iff⟩⟩
  obtain ⟨hdistinct, hlimit⟩ := check_eq_ok_iff.mp hcheck
  refine ⟨params, addAll_of_distinct hdistinct, rfl, hdistinct.paramCount, fun others hperm => ?_⟩
  have hothers := hdistinct.perm hperm
  refine ⟨check_eq_ok_iff.mpr ⟨hothers, ?_⟩, others, addAll_of_distinct hothers,
    fun seed => key_perm hperm seed⟩
  rwa [(components_perm hperm).length_eq]

/-- A signature that asks for as much as there may be asked for: eleven components, the context and
a state. -/
def Zoo.wide : Signature :=
  .context :: (List.range 11).map (fun number => .component { name := s!"zoo::C{number}" } .read) ++
    [.state { name := "u8" } .write]

/-- It passes in both directions with one key. A component more is too much, unless something
repeats. -/
theorem Signature.check_iff_distinct_wide :
    let more : Param := .component { name := "zoo::C11" } .write
    (∃ signature, Zoo.wide.foldlM add empty = .ok signature ∧ signature.paramCount = 13 ∧
      ∃ reversed, Zoo.wide.reverse.foldlM add empty = .ok reversed ∧
        ∀ seed, reversed.key seed = signature.key seed) ∧
    check (Zoo.wide ++ [more]) = .error (.tooManyComponents 12) ∧
    check (Zoo.wide ++ [more, .context]) = .error .duplicateContext := by
  intro more
  obtain ⟨_, _, hpasses, _⟩ := check_iff_distinct (S := Zoo.schema) (σ := Unit) Zoo.wide
  obtain ⟨signature, hadded, _, hcount, horders⟩ := hpasses rfl
  obtain ⟨_, reversed, hreversed, hkey⟩ := horders _ (List.reverse_perm Zoo.wide)
  exact ⟨⟨signature, hadded, hcount, reversed, hreversed, hkey⟩, rfl, rfl⟩

end EntityWorld
