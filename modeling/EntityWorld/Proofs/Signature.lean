import EntityWorld.Proofs.Row
import EntityWorld.Proofs.Traversal
import EntityWorld.System

namespace EntityWorld

variable {S : Schema} {σ : Type}

namespace Signature

/-- The component types asked for, in their order. -/
def types (signature : Signature) : List TypeId :=
  signature.components.map Prod.fst

/-- The type of ambient state asked for. -/
def stateType? (signature : Signature) : Option TypeId :=
  signature.state?.map Prod.fst

/-- A type is asked for exactly if some parameter asks for a component of it, to read or to
write. -/
theorem mem_types {signature : Signature} {type : TypeId} :
    type ∈ signature.types ↔ ∃ access, Param.component type access ∈ signature := by
  simp only [types, components, List.mem_map, List.mem_filterMap, Prod.exists]
  constructor
  · rintro ⟨found, access, ⟨param, hparam, heq⟩, rfl⟩
    cases param <;> simp_all
    exact ⟨_, hparam⟩
  · rintro ⟨access, hmem⟩
    exact ⟨type, access, ⟨_, hmem, rfl⟩, rfl⟩

theorem types_append (signature params : Signature) :
    types (signature ++ params) = signature.types ++ types params := by
  simp [types, components]

theorem stateType?_append (signature params : Signature) :
    stateType? (signature ++ params) = signature.stateType?.or (stateType? params) := by
  rw [stateType?, state?, List.findSome?_append, Option.map_or]
  rfl

end Signature

namespace Param

/-- A parameter asks for what one before it asks for: a component of the same type, the context, or
an ambient state of whatever type. Access makes no difference: reading and writing the same
component are a repetition like any other. -/
def Repeats (earlier : Signature) : Param → Prop
  | component type _ => type ∈ earlier.types
  | context => context ∈ earlier
  | state _ _ => ∃ type access, state type access ∈ earlier

/-- What is wrong with a parameter that asks for what one before it asks for: it is reported as the
duplicate of its kind, with the name of the type that it asks for itself. -/
def repetition : Param → ShapeError
  | component type _ => .duplicateComponent type.name
  | context => .duplicateContext
  | state type _ => .duplicateState type.name

/-- Whether a parameter asks for the context. -/
def isContext : Param → Bool
  | context => true
  | _ => false

/-- Whether a parameter asks for an ambient state, of whatever type. -/
def isState : Param → Bool
  | state _ _ => true
  | _ => false

end Param

namespace Signature

theorem asksForContext_iff {signature : Signature} :
    signature.asksForContext = true ↔ Param.context ∈ signature := by
  rw [asksForContext, List.any_eq_true]
  constructor
  · rintro ⟨param, hmem, hcontext⟩
    cases param <;> simp_all
  · intro hmem
    exact ⟨_, hmem, rfl⟩

theorem isSome_state?_iff {signature : Signature} :
    signature.state?.isSome = true ↔ ∃ type access, Param.state type access ∈ signature := by
  rw [state?, List.findSome?_isSome_iff]
  constructor
  · rintro ⟨param, hmem, hstate⟩
    cases param <;> simp_all
    exact ⟨_, _, hmem⟩
  · rintro ⟨type, access, hmem⟩
    exact ⟨_, hmem, rfl⟩

theorem any_components_iff {signature : Signature} {type : TypeId} :
    (signature.components.any fun component => component.1 = type) = true ↔
      type ∈ signature.types := by
  simp [types]

/-- A parameter that repeats one before it is refused with the duplicate of its kind. What it is
compared with is what was taken so far. -/
theorem add_of_repeats {signature : Signature} {param : Param}
    (hrepeats : param.Repeats signature) : signature.add param = .error param.repetition := by
  cases param with
  | component type access => exact if_pos (any_components_iff.mpr hrepeats)
  | context => exact if_pos (asksForContext_iff.mpr hrepeats)
  | state type access => exact if_pos (isSome_state?_iff.mpr hrepeats)

theorem add_of_not_repeats {signature : Signature} {param : Param}
    (hnew : ¬param.Repeats signature) : signature.add param = .ok (signature ++ [param]) := by
  cases param with
  | component type access => exact if_neg (mt any_components_iff.mp hnew)
  | context => exact if_neg (mt asksForContext_iff.mp hnew)
  | state type access => exact if_neg (mt isSome_state?_iff.mp hnew)

/-- No two parameters ask for the same thing. This says it of the signature as a whole, without the
order in which its parameters come. -/
structure Distinct (signature : Signature) : Prop where
  components : signature.types.Nodup
  context : signature.countP Param.isContext ≤ 1
  state : signature.countP Param.isState ≤ 1

/-- The three conditions as a conjunction, which rewriting can take apart. -/
theorem distinct_iff {signature : Signature} :
    signature.Distinct ↔ signature.types.Nodup ∧ signature.countP Param.isContext ≤ 1 ∧
      signature.countP Param.isState ≤ 1 :=
  ⟨fun ⟨hcomponents, hcontext, hstate⟩ => ⟨hcomponents, hcontext, hstate⟩,
    fun ⟨hcomponents, hcontext, hstate⟩ => ⟨hcomponents, hcontext, hstate⟩⟩

theorem Distinct.empty : Distinct [] :=
  ⟨.nil, Nat.zero_le 1, Nat.zero_le 1⟩

theorem Distinct.of_append {signature params : Signature} (hboth : (signature ++ params).Distinct) :
    signature.Distinct := by
  obtain ⟨hcomponents, hcontext, hstate⟩ := hboth
  rw [types_append] at hcomponents
  rw [List.countP_append] at hcontext hstate
  exact ⟨(List.nodup_append.mp hcomponents).1, by omega, by omega⟩

theorem context_mem_iff {signature : Signature} :
    Param.context ∈ signature ↔ 0 < signature.countP Param.isContext := by
  rw [List.countP_pos_iff]
  refine ⟨fun hmem => ⟨_, hmem, rfl⟩, ?_⟩
  rintro ⟨param, hmem, hcontext⟩
  cases param <;> simp_all [Param.isContext]

theorem exists_state_mem_iff {signature : Signature} :
    (∃ type access, Param.state type access ∈ signature) ↔ 0 < signature.countP Param.isState := by
  rw [List.countP_pos_iff]
  refine ⟨fun ⟨type, access, hmem⟩ => ⟨_, hmem, rfl⟩, ?_⟩
  rintro ⟨param, hmem, hstate⟩
  cases param <;> simp_all [Param.isState]
  exact ⟨_, _, hmem⟩

/-- Parameters stay distinct with one more exactly if that one repeats none of them. This ties the
property of the whole signature to the test that is made parameter by parameter. -/
theorem distinct_concat_iff {signature : Signature} {param : Param} :
    (signature ++ [param]).Distinct ↔ signature.Distinct ∧ ¬param.Repeats signature := by
  rw [distinct_iff, distinct_iff, types_append, List.countP_append, List.countP_append]
  cases param with
  | component type access =>
    have htypes : (signature.types ++ types [.component type access]).Nodup ↔
        type ∉ signature.types ∧ signature.types.Nodup :=
      (List.perm_append_singleton type signature.types).nodup_iff.trans List.nodup_cons
    rw [htypes]
    exact ⟨fun ⟨⟨hnew, hnodup⟩, hcounts⟩ => ⟨⟨hnodup, hcounts⟩, hnew⟩,
      fun ⟨⟨hnodup, hcounts⟩, hnew⟩ => ⟨⟨hnew, hnodup⟩, hcounts⟩⟩
  | context =>
    have hcontext : List.countP Param.isContext [Param.context] = 1 := rfl
    have hstate : List.countP Param.isState [Param.context] = 0 := rfl
    have htypes : types [Param.context] = [] := rfl
    rw [Param.Repeats, context_mem_iff, hcontext, hstate, htypes, List.append_nil]
    grind
  | state type access =>
    have hcontext : List.countP Param.isContext [Param.state type access] = 0 := rfl
    have hstate : List.countP Param.isState [Param.state type access] = 1 := rfl
    have htypes : types [Param.state type access] = [] := rfl
    rw [Param.Repeats, exists_state_mem_iff, hcontext, hstate, htypes, List.append_nil]
    grind

/-- Distinct parameters are all taken, in their order. The induction starts from any parameters
taken before, which is what the traversal carries along. -/
theorem addAll_of_distinct {signature params : Signature}
    (hboth : (signature ++ params).Distinct) :
    params.foldlM add signature = .ok (signature ++ params) := by
  induction params generalizing signature with
  | nil => rw [List.append_nil]; rfl
  | cons param params ih =>
    rw [List.append_cons] at hboth
    have hnew := (distinct_concat_iff.mp hboth.of_append).2
    rw [List.foldlM_cons, add_of_not_repeats hnew]
    exact (ih hboth).trans (congrArg Except.ok (List.append_cons ..).symm)

/-- Up to the first parameter that repeats one before it, all are distinct. These are the two ways
in which a check can go. -/
theorem distinct_or_repeats (params : Signature) :
    params.Distinct ∨ ∃ earlier param later, params = earlier ++ param :: later ∧
      Distinct earlier ∧ param.Repeats earlier := by
  induction params using List.reverseRecOn with
  | nil => exact .inl .empty
  | append_singleton params param ih =>
    rcases ih with hdistinct | ⟨earlier, other, later, rfl, hdistinct, hrepeats⟩
    · by_cases hrepeats : param.Repeats params
      · exact .inr ⟨params, param, [], rfl, hdistinct, hrepeats⟩
      · exact .inl (distinct_concat_iff.mpr ⟨hdistinct, hrepeats⟩)
    · exact .inr ⟨earlier, other, later ++ [param], by simp, hdistinct, hrepeats⟩

/-- When nothing repeats, the number of components alone decides. The limit is on components, and
the context and the ambient state come on top of it. -/
theorem check_of_distinct {params : Signature} (hdistinct : params.Distinct) :
    check params = if componentLimit < params.components.length then
      .error (.tooManyComponents params.components.length) else .ok () := by
  have hadded : params.foldlM add empty = .ok params := addAll_of_distinct hdistinct
  rw [check, hadded]
  rfl

/-- The first repetition decides, whatever comes after it: too many components are not reported for
a signature that also repeats itself. -/
theorem check_of_repeats {earlier later : Signature} {param : Param} (hearlier : earlier.Distinct)
    (hrepeats : param.Repeats earlier) :
    check (earlier ++ param :: later) = .error param.repetition := by
  have hadded : earlier.foldlM add empty = .ok earlier := addAll_of_distinct hearlier
  rw [check, List.foldlM_append, hadded]
  simp only [bind, Except.bind, List.foldlM_cons, add_of_repeats hrepeats]

/-- A signature passes if its parameters are distinct and within the limit on components. Both are
independent of the order of the parameters. -/
theorem check_eq_ok_iff {params : Signature} :
    check params = .ok () ↔ params.Distinct ∧ params.components.length ≤ componentLimit := by
  rcases distinct_or_repeats params with hdistinct | ⟨earlier, param, later, rfl, hearlier, hrepeats⟩
  · rw [check_of_distinct hdistinct]
    split <;> simp_all
  · rw [check_of_repeats hearlier hrepeats]
    refine iff_of_false nofun fun ⟨hdistinct, _⟩ => ?_
    rw [List.append_cons] at hdistinct
    exact (distinct_concat_iff.mp hdistinct.of_append).2 hrepeats

/-- What the parameters of an accepted signature have to themselves: each component type is asked
for once, and every request for an ambient state is for the one type that the signature names. This
is all that binding relies on. -/
structure Acceptable (signature : Signature) : Prop where
  nodup : signature.types.Nodup
  state : ∀ {type : TypeId} {access : Access}, Param.state type access ∈ signature →
    signature.stateType? = some type

/-- Distinct parameters make an acceptable signature, whatever their number: among them at most one
asks for an ambient state, so that one is the first. -/
theorem Distinct.acceptable {signature : Signature} (hdistinct : signature.Distinct) :
    signature.Acceptable := by
  refine ⟨hdistinct.components, fun {type access} hmem => ?_⟩
  obtain ⟨before, after, rfl⟩ := List.append_of_mem hmem
  have hcount := hdistinct.state
  rw [List.countP_append, List.countP_cons_of_pos rfl] at hcount
  have hnone : stateType? before = none := by
    rw [stateType?, Option.map_eq_none_iff, ← Option.not_isSome_iff_eq_none, isSome_state?_iff,
      exists_state_mem_iff]
    omega
  rw [stateType?_append, hnone]
  rfl

/-- Parameters that pass the check make an acceptable signature. Binding never looks at the check
itself, only at what it guarantees. -/
theorem acceptable_of_check {params : Signature} (hcheck : check params = .ok ()) :
    params.Acceptable :=
  (check_eq_ok_iff.mp hcheck).1.acceptable

end Signature

theorem System.check_eq_ok_iff {system : System S σ} :
    system.check = .ok () ↔
      ∀ shape ∈ system.shapes, Signature.check shape.signature = .ok () := by
  rw [System.check, forM_eq_ok_iff]
  refine forall₂_congr fun shape _ => ?_
  cases Signature.check shape.signature <;> simp [Except.mapError]

theorem System.acceptable_of_check {system : System S σ} (hcheck : system.check = .ok ())
    {shape : Shape S σ} (hshape : shape ∈ system.shapes) : shape.signature.Acceptable :=
  Signature.acceptable_of_check (System.check_eq_ok_iff.mp hcheck shape hshape)

/-- A parameter for an ambient state is bound exactly in a pass whose state is of its type. A pass
without one binds no such parameter. -/
theorem Param.isSome_bind?_state {row : Row S} {ambient : Option (Ambient S)} {view : ContextView}
    {type : TypeId} {access : Access} :
    ((Param.state type access).bind? row ambient view).isSome = true ↔
      ambient.map Sigma.fst = some type := by
  match ambient with
  | none => simp [Param.bind?]
  | some ⟨found, held⟩ =>
    by_cases heq : found = type <;> simp [Param.bind?, heq]

/-- A signature is bound as a whole or not at all, and it is exactly if each of its parameters
is. -/
theorem Arguments.isSome_bind? {row : Row S} {ambient : Option (Ambient S)} {view : ContextView}
    {signature : Signature} :
    (bind? row ambient view signature).isSome = true ↔
      ∀ param ∈ signature, (param.bind? row ambient view).isSome = true := by
  induction signature with
  | nil => exact iff_of_true rfl (by simp)
  | cons param signature ih =>
    rw [List.forall_mem_cons, ← ih, bind?]
    cases param.bind? row ambient view with
    | none => exact iff_of_false (by intro hsome; cases hsome) fun hsome => by cases hsome.1
    | some slot =>
      cases bind? row ambient view signature with
      | none => exact iff_of_false (by intro hsome; cases hsome) fun hsome => by cases hsome.2
      | some rest => exact iff_of_true rfl ⟨rfl, rfl⟩

/-- A row has everything that a shape asks of it. The context and the ambient state are not the
entity's to have, and are left out. -/
def Shape.Owned (shape : Shape S σ) (row : Row S) : Prop :=
  ∀ type ∈ shape.signature.types, row.contains type = true

instance (shape : Shape S σ) (row : Row S) : Decidable (shape.Owned row) :=
  inferInstanceAs (Decidable (∀ type ∈ shape.signature.types, row.contains type = true))

/-- A signature is bound on no row that lacks one of its component types, whatever the pass. -/
theorem Shape.owned_of_bind? {shape : Shape S σ} {row : Row S} {ambient : Option (Ambient S)}
    {view : ContextView} (hbound : (Arguments.bind? row ambient view shape.signature).isSome = true) :
    shape.Owned row := by
  intro type htype
  obtain ⟨access, hmem⟩ := Signature.mem_types.mp htype
  have hfound := Arguments.isSome_bind?.mp hbound _ hmem
  exact Row.contains_iff.mpr (Row.find?_isSome.mp hfound)

/-- An acceptable signature is bound on every row that has its component types, in a pass whose
ambient state is of its type. A signature that asks for no state is bound in every pass. -/
theorem Shape.isSome_bind? {shape : Shape S σ} (hshape : shape.signature.Acceptable) {row : Row S}
    (howned : shape.Owned row) {ambient : Option (Ambient S)} {view : ContextView}
    (hambient : shape.signature.stateType?.all (ambient.map Sigma.fst == some ·) = true) :
    (Arguments.bind? row ambient view shape.signature).isSome = true := by
  refine Arguments.isSome_bind?.mpr fun param hparam => ?_
  cases param with
  | component type access =>
    refine Row.find?_isSome.mpr (Row.contains_iff.mp (howned type ?_))
    exact Signature.mem_types.mpr ⟨access, hparam⟩
  | context => rfl
  | state type access =>
    rw [hshape.state hparam] at hambient
    exact Param.isSome_bind?_state.mpr (by simpa using hambient)

end EntityWorld
