import EntityWorld.Proofs.Update.Turns
import EntityWorld.Proofs.World.Passes
import EntityWorld.Proofs.World.Reached
import EntityWorld.Proofs.World.Scan

namespace EntityWorld

variable {S : Schema} {σ : Type}

/-- The plan of a finished world follows what its systems declare. It has one line for each of their
entry points, in an order of the systems in which each stands behind all that it depends on, and in
that order every pass of every update runs them. Declarations about systems that are not there make
no difference. Where the systems have different names, the world tells those of the systems that
have entry points, in their order. -/
theorem plan_of_build {builder : Builder S σ} {world : World S σ}
    (hbuild : builder.build = .ok world) :
    let systems := builder.systems
    let seed := builder.config.seed
    ∃ order : List (Fin systems.length), world.plan.Follows systems seed order ∧
      (∀ (later : World S σ), later.systems = world.systems → later.plan = world.plan →
        ∀ (limit : Nat) (ambient : Option (Ambient S)) (strategy : Strategy)
          (inactive : InactiveHandling),
          ∃ starts, later.Makes limit ambient strategy inactive starts ∧
          ∀ start ∈ later.start ambient :: starts, ∀ i j, Plan.Before systems i j →
            AllBefore (fun call : Invocation => call.1.system = i.val)
              (fun call => call.1.system = j.val)
              (Engine.pass later.systems later.plan inactive start).invocations) ∧
      (∀ others, Plan.SameAmong systems others → Plan.build others seed = .ok world.plan) ∧
      ((systems.map fun system => system.id.name).Nodup →
        (world.order = (order.filter fun i => (systems.get i).shapes ≠ []).map
          fun i => (systems.get i).id.name) ∧
        world.order.Nodup) := by
  intro systems seed
  obtain ⟨plan, hplan, rfl⟩ := Builder.build_eq_ok hbuild
  obtain ⟨order, horder, rfl⟩ := Plan.build_eq_ok hplan
  have hfollows := Plan.follows_layOut (Plan.topological_of_systemOrder systems horder) seed
  refine ⟨order, hfollows, ?_, ?_, ?_⟩
  · intro later _ hlater limit ambient strategy inactive
    obtain ⟨starts, hmakes⟩ := later.exists_makes limit ambient strategy inactive
    refine ⟨starts, hmakes, fun start _ i j hbefore => ?_⟩
    rw [hlater]
    exact Engine.allBefore_invocations_pass (hfollows.respects i j hbefore) start
  · intro others hsame
    rw [Plan.build_eq_of_sameAmong hsame]
    exact hplan
  · intro hnames
    have hdistinct := Plan.nodup_names hnames hfollows.perm
    have horder := Plan.order_layOut hdistinct seed
    have hfew := (List.filter_sublist (p := fun i => (systems.get i).shapes ≠ []) (l := order)).map
      fun i => (systems.get i).id.name
    refine ⟨horder, ?_⟩
    change (Plan.order (Plan.layOut systems seed order)).Nodup
    rw [horder]
    exact hdistinct.sublist hfew

/-- Four systems: the second has to run after the first, the first after the third and after one
that is not there, and the last, which has no entry point, after the second. -/
def Zoo.chain : Builder Zoo.schema Unit where
  systems :=
    [ { reader with after := [system 2, system 9, system 9] },
      { reader with
        id := system 1
        after := [system 0, system 0]
        shapes := reader.shapes ++ reader.shapes },
      { reader with id := system 2 },
      { id := system 3, after := [system 1] } ]
  data := ()

/-- The third system runs before the first and so before the second. The last one has no line, and
the system that is not there makes no difference. -/
theorem plan_of_build_chain :
    ∃ world, Zoo.chain.build = .ok world ∧
      world.plan.map (fun line => (line.system, line.shape)) = [(2, 0), (0, 0), (1, 0), (1, 1)] ∧
      AllBefore (fun line : Plan.Line => line.system = 2) (fun line => line.system = 1) world.plan ∧
      world.order.Nodup := by
  obtain ⟨world, hbuild, hlines⟩ : ∃ world, Zoo.chain.build = .ok world ∧
      world.plan.map (fun line => (line.system, line.shape)) =
        [(2, 0), (0, 0), (1, 0), (1, 1)] := ⟨_, rfl, by decide +kernel⟩
  obtain ⟨order, hfollows, _, _, hnames⟩ := plan_of_build hbuild
  let third : Fin Zoo.chain.systems.length := ⟨2, by decide⟩
  let first : Fin Zoo.chain.systems.length := ⟨0, by decide⟩
  let second : Fin Zoo.chain.systems.length := ⟨1, by decide⟩
  have hfirst : Plan.Precedes Zoo.chain.systems third first := List.mem_cons_self
  have hsecond : Plan.Precedes Zoo.chain.systems first second := List.mem_cons_self
  exact ⟨world, hbuild, hlines, hfollows.respects third second (.tail (.single hfirst) hsecond),
    (hnames (by decide)).2⟩

end EntityWorld
