import EntityWorld.Proofs.Signature
import EntityWorld.Plan.Basic

namespace EntityWorld

variable {S : Schema} {σ : Type}

/-- The entry point that a line stands for. There is none when the numbers in the line are not those
of a system and of a shape of it. -/
def Plan.Line.shape? (line : Plan.Line) (systems : List (System S σ)) : Option (Shape S σ) :=
  systems[line.system]?.bind (·.shapes[line.shape]?)

theorem Plan.Line.exists_mem_of_shape? {line : Plan.Line} {systems : List (System S σ)}
    {shape : Shape S σ} (hshape : line.shape? systems = some shape) :
    ∃ system ∈ systems, shape ∈ system.shapes := by
  obtain ⟨system, hsystem, hfound⟩ := Option.bind_eq_some_iff.mp hshape
  exact ⟨system, List.mem_of_getElem? hsystem, List.mem_of_getElem? hfound⟩

/-- A line says of an entry point what its signature says, with keys under a seed. -/
structure Plan.Line.Describes (line : Plan.Line) (shape : Shape S σ) (seed : UInt32) : Prop where
  key : line.key = Key.ofNames (shape.signature.types.map TypeId.name) seed
  params : line.params = shape.signature.length
  state : line.state? = shape.signature.stateType?

namespace Plan

/-- The lines of a system carry its number, and each describes the shape that it stands for. -/
theorem mem_linesOf {system : System S σ} {number : Nat} {seed : UInt32} {line : Line}
    (hline : line ∈ linesOf system number seed) :
    line.system = number ∧ ∃ shape, system.shapes[line.shape]? = some shape ∧
      line.Describes shape seed := by
  obtain ⟨index, hindex, rfl⟩ := List.mem_mapIdx.mp hline
  refine ⟨rfl, system.shapes[index], List.getElem?_eq_getElem hindex, ?_, rfl, rfl⟩
  simp only [Signature.key, Signature.types, List.map_map]
  rfl

/-- The lines of systems in an order. -/
def layOut (systems : List (System S σ)) (seed : UInt32) (order : List (Fin systems.length)) :
    Plan :=
  order.flatMap fun (i : Fin systems.length) => linesOf (systems.get i) i seed

/-- A plan is laid out in the order that the dependencies of the systems allow, and there is no plan
when there is no such order. -/
theorem build_eq_ok {systems : List (System S σ)} {seed : UInt32} {plan : Plan}
    (hbuild : build systems seed = .ok plan) :
    ∃ order, systemOrder systems = .ok order ∧ plan = layOut systems seed order := by
  unfold build at hbuild
  cases horder : systemOrder systems with
  | error error => simp [horder, Except.map] at hbuild
  | ok order =>
    rw [horder] at hbuild
    exact ⟨order, rfl, (Except.ok.inj hbuild).symm⟩

theorem mem_layOut_iff {systems : List (System S σ)} {seed : UInt32}
    {order : List (Fin systems.length)} {line : Line} :
    line ∈ layOut systems seed order ↔ ∃ i ∈ order, line ∈ linesOf (systems.get i) i seed :=
  List.mem_flatMap

/-- Every line of a plan stands for an acceptable entry point of a system, and describes it. So no
line is ever run whose shape is missing. -/
theorem exists_shape_of_mem_build {systems : List (System S σ)} {seed : UInt32} {plan : Plan}
    (hchecked : ∀ system ∈ systems, system.check = .ok ()) (hbuild : build systems seed = .ok plan)
    {line : Line} (hline : line ∈ plan) :
    ∃ shape, line.shape? systems = some shape ∧ shape.signature.Acceptable ∧
      line.Describes shape seed := by
  obtain ⟨order, _, rfl⟩ := build_eq_ok hbuild
  obtain ⟨number, _, hmem⟩ := mem_layOut_iff.mp hline
  obtain ⟨hsystem, shape, hshape, hdescribes⟩ := mem_linesOf hmem
  have hfound : systems[line.system]? = some (systems.get number) := by
    rw [hsystem]
    exact List.getElem?_eq_getElem number.isLt
  refine ⟨shape, ?_, ?_, hdescribes⟩
  · rw [Line.shape?, hfound, Option.bind_some, hshape]
  · exact System.acceptable_of_check (hchecked _ (List.get_mem systems number))
      (List.mem_of_getElem? hshape)

end Plan

end EntityWorld
