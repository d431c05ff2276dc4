import EntityWorld.Proofs.Update.Passes
import Mathlib.Logic.Hydra

namespace EntityWorld

variable {S : Schema} {σ : Type}

/-- The states at hand at the beginning of a pass: the one that it is for, and those that wait. From
pass to pass they lose one and gain only states below it, however many. -/
def Scene.states (scene : Scene S σ) : Multiset (Ambient S) :=
  ↑(scene.ambient.toList ++ scene.context.queue)

namespace Engine

section

variable {pass : Scene S σ → Run S (Scene S σ)}

variable (pass) in
/-- Every pass that comes to be made after a first one queues only states below its own. Nothing is
asked of the first pass, which need not be for a state. -/
def Descends (below : Ambient S → Ambient S → Prop) (first : Scene S σ) : Prop :=
  ∀ ⦃start : Scene S σ⦄ ⦃state : Ambient S⦄, Relation.TransGen (Succeeds pass) first start →
    start.ambient = some state →
    ∀ queued ∈ (pass start).events.filterMap Event.queued?, below queued state

/-- A pass that follows on another is for a state. Only the first one may be without. -/
theorem exists_ambient_of_transGen {first start : Scene S σ}
    (hstart : Relation.TransGen (Succeeds pass) first start) :
    ∃ state, start.ambient = some state := by
  obtain ⟨before, _, _, state, queue, _, rfl⟩ := Relation.TransGen.tail'_iff.mp hstart
  exact ⟨state, rfl⟩

/-- Where a pass queues only states below its own, the states at hand at the next one are the same
with that one cut off and these grown in its place. -/
theorem Succeeds.cutExpand {below : Ambient S → Ambient S → Prop} {scene next : Scene S σ}
    {state : Ambient S} (hnext : Succeeds pass scene next)
    (hqueue : (pass scene).state.context.queue =
      scene.context.queue ++ (pass scene).events.filterMap Event.queued?)
    (hambient : scene.ambient = some state)
    (hbelow : ∀ queued ∈ (pass scene).events.filterMap Event.queued?, below queued state) :
    Relation.CutExpand below next.states scene.states := by
  obtain ⟨_, later, queue, hwaits, rfl⟩ := hnext
  refine ⟨↑((pass scene).events.filterMap Event.queued?), state, hbelow, ?_⟩
  have hstates : later :: queue =
      scene.context.queue ++ (pass scene).events.filterMap Event.queued? :=
    hwaits.symm.trans hqueue
  simp only [Scene.states, hambient, Option.toList_some, List.singleton_append, hstates]
  rw [← Multiset.coe_singleton, Multiset.coe_add, Multiset.coe_add, Multiset.coe_eq_coe]
  exact List.perm_append_singleton state _

/-- Where the order is well-founded, passes do not follow on one another forever. The states at hand
are a multiset, and cutting one off for any number of smaller ones is well-founded on these. -/
theorem Descends.acc {below : Ambient S → Ambient S → Prop} {first : Scene S σ}
    (hdescends : Descends pass below first) (hbelow : WellFounded below)
    (hqueue : ∀ scene, (pass scene).state.context.queue =
      scene.context.queue ++ (pass scene).events.filterMap Event.queued?) :
    Acc (fun next scene => Succeeds pass scene next) first := by
  have hlater (states : Multiset (Ambient S)) : ∀ start : Scene S σ, start.states = states →
      Relation.TransGen (Succeeds pass) first start →
      Acc (fun next scene => Succeeds pass scene next) start := by
    induction states using hbelow.cutExpand.induction with
    | h states ih =>
      rintro start rfl hstart
      obtain ⟨state, hambient⟩ := exists_ambient_of_transGen hstart
      refine Acc.intro start fun next hnext => ?_
      have hcut := hnext.cutExpand (hqueue start) hambient (hdescends hstart hambient)
      exact ih next.states hcut next rfl (hstart.tail hnext)
  -- The first pass may queue whatever it likes, so the descent begins after it.
  exact Acc.intro first fun next hnext => hlater next.states next rfl (.single hnext)

/-- If passes do not follow on one another forever, some limit is never reached. The limit is found
by induction from the last pass backwards. -/
theorem exists_limit_of_acc {first : Scene S σ}
    (hacc : Acc (fun next scene => Succeeds pass scene next) first)
    (hpass : ∀ scene, (pass scene).stop ≠ some .unfinished) :
    ∃ limit, (passes pass limit .recursive first).stop ≠ some .unfinished := by
  have hwhole (limit : Nat) (scene : Scene S σ) :
      passes pass limit .recursive scene = (pass scene).andThen (drain pass limit) := rfl
  induction hacc with
  | intro scene _ ih =>
    cases hstop : (pass scene).stop with
    | some stop =>
      refine ⟨0, ?_⟩
      rw [hwhole, Run.andThen_of_stop hstop]
      exact hpass scene
    | none =>
      cases hqueue : (pass scene).state.context.queue with
      | nil =>
        refine ⟨0, ?_⟩
        rw [hwhole, Run.andThen_of_no_stop hstop, drain_of_nil 0 hqueue]
        nofun
      | cons state queue =>
        obtain ⟨limit, hlimit⟩ := ih _ ⟨hstop, state, queue, hqueue, rfl⟩
        refine ⟨limit + 1, ?_⟩
        rw [hwhole, Run.andThen_of_no_stop hstop, drain_succ_of_cons limit hqueue]
        exact hlimit

end

variable {systems : List (System S σ)} {plan : Plan} {inactive : InactiveHandling}

/-- A pass queues its states behind those that wait, and takes none of these up. That is done
between the passes. -/
theorem queue_pass (scene : Scene S σ) :
    (pass systems plan inactive scene).state.context.queue =
      scene.context.queue ++
        (pass systems plan inactive scene).events.filterMap Event.queued? := by
  have hqueues : scene.Queues (pass systems plan inactive scene).events
      (pass systems plan inactive scene).state :=
    (traced_pass systems plan inactive scene).related Scene.Queues.refl Scene.Queues.trans
      Work.queues Breakdown.queues
  rw [Scene.Queues, passing_pass, List.nil_append] at hqueues
  exact hqueues.symm

theorem Breakdown.ne_unfinished {scene next : Scene S σ} {events : List (Event S)} {stop : Stop}
    (hbreakdown : Breakdown systems plan inactive scene events next stop) : stop ≠ .unfinished := by
  cases hbreakdown with
  | mk launch stops =>
    rcases Verdict.stop?_eq_some stops with ⟨_, _, rfl⟩ | ⟨_, _, rfl⟩ <;> nofun

/-- No limit stops a single pass: the limit counts the passes for queued states, and a pass begins
no other one. -/
theorem stop_pass_ne_unfinished (scene : Scene S σ) :
    (pass systems plan inactive scene).stop ≠ some .unfinished := by
  intro hunfinished
  cases traced_pass systems plan inactive scene with
  | finished _ hnone => cases hnone.symm.trans hunfinished
  | stopped _ halt _ hstop =>
    exact halt.ne_unfinished (Option.some.inj (hstop.symm.trans hunfinished))

/-- Where the passes descend in a well-founded order, some limit is never reached. How great it has
to be depends on what the systems do. -/
theorem Descends.exists_limit {below : Ambient S → Ambient S → Prop} {first : Scene S σ}
    (hdescends : Descends (pass systems plan inactive) below first)
    (hbelow : WellFounded below) :
    ∃ limit, (passes (pass systems plan inactive) limit .recursive first).stop ≠
      some .unfinished :=
  exists_limit_of_acc (hdescends.acc hbelow queue_pass) stop_pass_ne_unfinished

end Engine

/-- With a state ambient, an entry point leaves it as it is and queues only states below it. This
can be checked shape by shape, without a look at passes. -/
def Shape.QueuesBelow (below : Ambient S → Ambient S → Prop) (shape : Shape S σ) : Prop :=
  ∀ {row : Row S} {state : Ambient S} {view : ContextView} {arguments : Arguments S shape.signature}
    (data : σ), Arguments.bind? row (some state) view shape.signature = some arguments →
    let outcome := shape.invoke arguments data
    Arguments.writeAmbient shape.signature outcome.arguments (some state) = some state ∧
      ∀ queued ∈ outcome.queued, below queued state

/-- A state that is ambient in the one scene is so in the other, and only states below it are queued
in between. -/
def Scene.QueuesBelow (below : Ambient S → Ambient S → Prop) (before : Scene S σ)
    (events : List (Event S)) (after : Scene S σ) : Prop :=
  ∀ state, before.ambient = some state →
    after.ambient = some state ∧ ∀ queued ∈ events.filterMap Event.queued?, below queued state

namespace Scene.QueuesBelow

variable {below : Ambient S → Ambient S → Prop}

theorem refl (scene : Scene S σ) : scene.QueuesBelow below [] scene :=
  fun _ hambient => ⟨hambient, nofun⟩

/-- States that stay ambient are compared with all that is queued on the way. -/
theorem trans {first middle last : Scene S σ} {past future : List (Event S)}
    (hpast : first.QueuesBelow below past middle) (hfuture : middle.QueuesBelow below future last) :
    first.QueuesBelow below (past ++ future) last := by
  intro state hambient
  obtain ⟨hmiddle, hbefore⟩ := hpast state hambient
  obtain ⟨hlast, hafter⟩ := hfuture state hmiddle
  refine ⟨hlast, fun queued hqueued => ?_⟩
  rw [List.filterMap_append] at hqueued
  exact (List.mem_append.mp hqueued).elim (hbefore queued) (hafter queued)

end Scene.QueuesBelow

namespace Engine

variable {systems : List (System S σ)} {plan : Plan} {inactive : InactiveHandling}
  {below : Ambient S → Ambient S → Prop}

theorem Launch.queuesBelow {scene : Scene S σ} (launch : Launch systems plan inactive scene)
    (hsystems : ∀ system ∈ systems, ∀ shape ∈ system.shapes, shape.QueuesBelow below) :
    scene.QueuesBelow below launch.events launch.after := by
  intro state hambient
  obtain ⟨system, hsystem, hshape⟩ := Plan.Line.exists_mem_of_shape? launch.stands
  have hbound := launch.bound
  rw [hambient] at hbound
  obtain ⟨hkept, hqueued⟩ := hsystems system hsystem launch.shape hshape scene.data hbound
  rw [launch.queued_events]
  refine ⟨?_, hqueued⟩
  rw [← hkept, ← hambient]
  rfl

/-- Other work of a pass queues nothing and leaves the ambient state alone. -/
theorem Work.queuesBelow {scene next : Scene S σ} {events : List (Event S)}
    (hsystems : ∀ system ∈ systems, ∀ shape ∈ system.shapes, shape.QueuesBelow below)
    (hwork : Work systems plan inactive scene events next) :
    scene.QueuesBelow below events next := by
  cases hwork with
  | turn line entities => exact .refl scene
  | skip line entity => exact .refl scene
  | settle launch verdict => exact launch.queuesBelow hsystems

theorem Breakdown.queuesBelow {scene next : Scene S σ} {events : List (Event S)} {stop : Stop}
    (hsystems : ∀ system ∈ systems, ∀ shape ∈ system.shapes, shape.QueuesBelow below)
    (hbreakdown : Breakdown systems plan inactive scene events next stop) :
    scene.QueuesBelow below events next := by
  cases hbreakdown with
  | mk launch stops => exact launch.queuesBelow hsystems

/-- Passes descend if all entry points do, since all that a pass does is to run them one after
another. -/
theorem descends_of_shapes
    (hsystems : ∀ system ∈ systems, ∀ shape ∈ system.shapes, shape.QueuesBelow below)
    (first : Scene S σ) : Descends (pass systems plan inactive) below first := by
  intro start state _ hambient
  have hpass : start.QueuesBelow below (pass systems plan inactive start).events
      (pass systems plan inactive start).state :=
    (traced_pass systems plan inactive start).related .refl .trans (Work.queuesBelow hsystems)
      (Breakdown.queuesBelow hsystems)
  exact (hpass state hambient).2

end Engine

end EntityWorld
