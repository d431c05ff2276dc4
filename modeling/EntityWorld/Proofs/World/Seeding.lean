import EntityWorld.Proofs.Store.Twin
import EntityWorld.Proofs.World.Scan

namespace EntityWorld

variable {S : Schema} {σ : Type}

namespace Builder

namespace Call

/-- A call that changes the configuration. -/
def configures : Builder.Call S σ → Bool
  | seed _ | configure _ => true
  | addSystem _ | create _ | createInitial _ | register _ => false

/-- The builder that calls leave when they are made one after another. -/
def runAll : List (Builder.Call S σ) → Builder S σ → Builder S σ
  | [], builder => builder
  | call :: calls, builder => runAll calls (call.run builder)

/-- What calls answer when they are made one after another, or how they fail. -/
def answers : List (Builder.Call S σ) → Builder S σ →
    List ((call : Builder.Call S σ) × Except Error call.Answer)
  | [], _ => []
  | call :: calls, builder =>
    ⟨call, answerOf (call.result builder)⟩ :: answers calls (call.run builder)

/-- Calls without those that change the configuration. -/
def unconfigured (calls : List (Builder.Call S σ)) : List (Builder.Call S σ) :=
  calls.filter fun call => !call.configures

end Call

/-- Builders that are the same but for their configuration and the lists under the keys. So it makes
no difference to the answers when a world in the making is configured, and how often. -/
structure Twin (builder other : Builder S σ) : Prop where
  systems : other.systems = builder.systems
  data : other.data = builder.data
  store : builder.store.Twin other.store

theorem Twin.refl (builder : Builder S σ) : builder.Twin builder :=
  ⟨rfl, rfl, .refl _⟩

theorem Twin.symm {builder other : Builder S σ} (htwin : builder.Twin other) :
    other.Twin builder :=
  ⟨htwin.systems.symm, htwin.data.symm, htwin.store.symm⟩

theorem Twin.configured {builder other : Builder S σ} (htwin : builder.Twin other)
    (call : Builder.Call S σ) (hcall : call.configures = true) : (call.run builder).Twin other := by
  cases call with
  | seed value => exact ⟨htwin.systems, htwin.data, htwin.store.reseed value⟩
  | configure config => exact ⟨htwin.systems, htwin.data, htwin.store.reseed config.seed⟩
  | addSystem | create | createInitial | register => cases hcall

/-- Creating an entity is answered in the same way by both, and leaves twins again. -/
theorem Twin.create {builder other : Builder S σ} (htwin : builder.Twin other)
    (components : List (Component S)) :
    answerOf (other.create components) = answerOf (builder.create components) ∧
      (stateOf (builder.create components)).Twin (stateOf (other.create components)) := by
  obtain ⟨hanswer, hstore⟩ := htwin.store.create components
  have hown (builder : Builder S σ) :
      answerOf (builder.create components) = answerOf (builder.store.create components) := by
    unfold Builder.create
    cases builder.store.create components <;> rfl
  rw [hown, hown, builder.stateOf_create, other.stateOf_create]
  exact ⟨hanswer, htwin.systems, htwin.data, hstore⟩

theorem Twin.addSystem {builder other : Builder S σ} (htwin : builder.Twin other)
    (system : System S σ) :
    answerOf (other.addSystem system) = answerOf (builder.addSystem system) ∧
      (stateOf (builder.addSystem system)).Twin (stateOf (other.addSystem system)) := by
  unfold Builder.addSystem
  rw [htwin.systems]
  split
  case isTrue => exact ⟨rfl, htwin⟩
  case isFalse =>
    split
    case h_1 => exact ⟨rfl, htwin⟩
    case h_2 => exact ⟨rfl, rfl, htwin.data, htwin.store⟩

/-- Every other call has the same answer and leaves twins again. -/
theorem Twin.run {builder other : Builder S σ} (htwin : builder.Twin other)
    {call : Builder.Call S σ} (hcall : call.configures = false) :
    answerOf (call.result other) = answerOf (call.result builder) ∧
      (call.run builder).Twin (call.run other) := by
  cases call with
  | addSystem system => exact htwin.addSystem system
  | create components => exact htwin.create components
  | createInitial types => exact htwin.create (types.map Component.initial)
  | register type => exact ⟨rfl, htwin.systems, htwin.data, htwin.store.register type⟩
  | seed | configure => cases hcall

theorem Call.config_run {call : Builder.Call S σ} (hcall : call.configures = false)
    (builder : Builder S σ) : (call.run builder).config = builder.config := by
  cases call with
  | addSystem system =>
    rcases builder.stateOf_addSystem system with hsame | ⟨_, hadded⟩
    · exact congrArg config hsame
    · exact (congrArg config hadded :)
  | create components => exact (congrArg config (builder.stateOf_create components) :)
  | createInitial types =>
    exact (congrArg config (builder.stateOf_create (types.map Component.initial)) :)
  | register type => rfl
  | seed | configure => cases hcall

/-- Calls with changes of the configuration in between, and the same calls without these, have the
same answers and lead to twins. -/
theorem Twin.runAll {builder other : Builder S σ} (htwin : builder.Twin other)
    (calls : List (Builder.Call S σ)) :
    Call.answers (Call.unconfigured calls) other =
      (Call.answers calls builder).filter (fun answer => !answer.1.configures) ∧
      (Call.runAll calls builder).Twin (Call.runAll (Call.unconfigured calls) other) := by
  induction calls generalizing builder other with
  | nil => exact ⟨rfl, htwin⟩
  | cons call calls ih =>
    cases hcall : call.configures with
    | true =>
      obtain ⟨hanswers, htwins⟩ := ih (htwin.configured call hcall)
      simp only [Call.unconfigured, Call.answers, List.filter_cons, hcall]
      exact ⟨hanswers, htwins⟩
    | false =>
      obtain ⟨hanswer, hnext⟩ := htwin.run hcall
      obtain ⟨hanswers, htwins⟩ := ih hnext
      simp only [Call.unconfigured, Call.answers, List.filter_cons, hcall, Bool.not_false, if_true,
        hanswer]
      exact ⟨congrArg _ hanswers, htwins⟩

theorem Call.config_runAll (calls : List (Builder.Call S σ)) (builder : Builder S σ) :
    (Call.runAll (unconfigured calls) builder).config = builder.config := by
  induction calls generalizing builder with
  | nil => rfl
  | cons call calls ih =>
    rw [unconfigured, List.filter_cons]
    split
    case isTrue hcall =>
      rw [Bool.not_eq_true'] at hcall
      exact (ih _).trans (config_run hcall builder)
    case isFalse => exact ih builder

theorem Reached.runAll {builder : Builder S σ} {order : List EntityId}
    (hreached : builder.Reached order) (calls : List (Builder.Call S σ)) :
    ∃ placed, (Call.runAll calls builder).Reached placed := by
  induction calls generalizing builder order with
  | nil => exact ⟨order, hreached⟩
  | cons call calls ih => exact ih (.call call hreached)

/-- The entities of a builder have been placed in ascending order: each has a number beyond those
before it, and a change of the seed lists them in that order again. -/
theorem Reached.pairwise {builder : Builder S σ} {order : List EntityId}
    (hreached : builder.Reached order) : order.Pairwise (· ≤ ·) := by
  induction hreached with
  | start data => exact .nil
  | call call before ih =>
    obtain ⟨hsound, hindexed, _⟩ := before.consistent
    cases call with
    | seed value => exact hindexed.pairwise_reorder_reseed ih value
    | configure config => exact hindexed.pairwise_reorder_reseed ih config.seed
    | create components => exact hindexed.pairwise_reorder_create hsound ih components
    | createInitial types => exact hindexed.pairwise_reorder_create hsound ih _
    | addSystem system => exact ih
    | register type => exact ih

/-- Twins with one configuration are the same, since their lists are those of one order under one
seed. -/
theorem Twin.eq {builder other : Builder S σ} (htwin : builder.Twin other)
    {order placed : List EntityId} (hbuilder : builder.Reached order)
    (hother : other.Reached placed) (hconfig : other.config = builder.config) : other = builder := by
  obtain ⟨_, hindexed, hseed, _⟩ := hbuilder.consistent
  obtain ⟨_, hplaced, hsame, _⟩ := hother.consistent
  have hentities : other.store.entities = builder.store.entities :=
    congrArg Std.ExtTreeMap.keys htwin.store.rows
  have horder : placed = order := by
    rw [← hindexed.entities_eq hbuilder.pairwise, ← hplaced.entities_eq hother.pairwise, hentities]
  have hstore : other.store = builder.store :=
    htwin.store.eq hindexed (horder ▸ hplaced) (by rw [hsame, hseed, hconfig])
  obtain ⟨hsystems, hdata, -⟩ := htwin
  cases builder
  cases other
  congr

end Builder

/-- Calls on a new builder, with changes of the configuration in between, lead to the same as the
last configuration at first and then the other calls, which have the same answers: to the same
builder, and so to the same world or error. The seed of its store is always the configured one,
which the keys of the plan are made with. -/
theorem runAll_eq_configured_first (data : σ) (calls : List (Builder.Call S σ)) :
    let start : Builder S σ := { data }
    let last := Builder.Call.runAll calls start
    let first := start.configure last.config
    let others := Builder.Call.unconfigured calls
    Builder.Call.runAll others first = last ∧
      (Builder.Call.runAll others first).build = last.build ∧
      Builder.Call.answers others first =
        (Builder.Call.answers calls start).filter (fun answer => !answer.1.configures) ∧
      last.store.seed = last.config.seed ∧
      ∀ world, last.build = .ok world →
        world.store.seed = world.config.seed ∧
        Plan.build world.systems world.store.seed = .ok world.plan := by
  intro start last first others
  have hfirst : first.Twin start :=
    (Builder.Twin.refl start).configured (.configure last.config) rfl
  obtain ⟨hanswers, htwin⟩ := hfirst.symm.runAll calls
  obtain ⟨order, hlast⟩ := (Builder.Reached.start data).runAll calls
  obtain ⟨placed, hothers⟩ :=
    (Builder.Reached.call (.configure last.config) (.start data)).runAll others
  have hsame : Builder.Call.runAll others first = last :=
    htwin.eq hlast hothers (Builder.Call.config_runAll calls first)
  refine ⟨hsame, congrArg Builder.build hsame, hanswers, hlast.consistent.seed, ?_⟩
  intro world hbuild
  have hworld := World.Reached.built hlast hbuild
  obtain ⟨plan, hplan, rfl⟩ := Builder.build_eq_ok hbuild
  exact ⟨hlast.consistent.seed, hworld.consistent.plan⟩

/-- With the seed changed three times in between, and with calls that fail, the lists and the plan
are under the last seed. -/
theorem runAll_eq_configured_first_reseeded :
    let calls : List (Builder.Call Zoo.schema Unit) :=
      [.create [Zoo.plain], .seed 7, .addSystem Zoo.reader, .addSystem Zoo.reader,
        .configure { seed := 9 }, .create [Zoo.plain, Zoo.plain], .create [Zoo.plain], .seed 3]
    let last := Builder.Call.runAll calls { data := () }
    ∃ world, last.build = .ok world ∧ world.config.seed = 3 ∧ world.store.entities = [0, 1] ∧
      world.store.seed = 3 ∧ Plan.build world.systems 3 = .ok world.plan := by
  intro calls last
  obtain ⟨_, _, _, _, hworlds⟩ := runAll_eq_configured_first () calls
  obtain ⟨world, hbuild, hseed, hentities⟩ : ∃ world, last.build = .ok world ∧
      world.config.seed = 3 ∧ world.store.entities = [0, 1] := ⟨_, rfl, rfl, by decide +kernel⟩
  obtain ⟨hsame, hplan⟩ := hworlds world hbuild
  rw [hseed] at hsame
  rw [hsame] at hplan
  exact ⟨world, hbuild, hseed, hentities, hsame, hplan⟩

end EntityWorld
