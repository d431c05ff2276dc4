import EntityWorld.Proofs.Update.Path
import EntityWorld.Proofs.Update.Rulings

namespace EntityWorld

variable {S : Schema} {σ : Type}

namespace Context

/-- Settling one entity wakes no other, whichever way it is settled. -/
theorem contains_inactive_settle_of_ne {context : Context S} {entity other : EntityId}
    (hne : other ≠ entity) (hother : context.inactive.contains other = true) (isActive : Bool) :
    (context.settle entity isActive).inactive.contains other = true := by
  cases isActive with
  | false => exact EntitySet.contains_insert_of_contains hother entity
  | true => exact EntitySet.contains_remove_of_ne hne hother

theorem contains_inactive_settle_false (context : Context S) (entity : EntityId) :
    (context.settle entity false).inactive.contains entity = true :=
  context.inactive.contains_insert_self entity

end Context

/-- Between two scenes inactive entities are left alone, those that are inactive already and those
that become so. -/
structure Scene.Spares (before : Scene S σ) (events : List (Event S)) (after : Scene S σ) :
    Prop where
  /-- Who is inactive is not run on, keeps its components, and stays inactive. -/
  spared : ∀ entity, before.context.inactive.contains entity = true →
    (∀ call ∈ events.filterMap Event.invocation?, call.2.1 ≠ entity) ∧
      after.store.rows[entity]? = before.store.rows[entity]? ∧
      after.context.inactive.contains entity = true
  /-- Who is found inactive is so afterwards. -/
  dismissed : ∀ call ∈ events.filterMap Event.invocation?, call.2.2 = .settled false →
    after.context.inactive.contains call.2.1 = true
  /-- Who has been found inactive is not run on any more. -/
  silent : (events.filterMap Event.invocation?).Pairwise fun call later =>
    call.2.2 = .settled false → later.2.1 ≠ call.2.1

/-- Where nothing is run and no component changes, inactive entities only have to stay so. -/
theorem Scene.Spares.of_idle {before after : Scene S σ} {events : List (Event S)}
    (hevents : events.filterMap Event.invocation? = [])
    (hrows : after.store.rows = before.store.rows)
    (hinactive : after.context.inactive = before.context.inactive) :
    before.Spares events after := by
  refine ⟨fun entity hentity => ?_, ?_, ?_⟩ <;> rw [hevents]
  · exact ⟨by simp, by rw [hrows], hinactive ▸ hentity⟩
  · simp
  · exact .nil

/-- Who becomes inactive on the way is spared by what follows, since it is inactive when that
begins. -/
theorem Scene.Spares.trans {first middle last : Scene S σ} {past future : List (Event S)}
    (hpast : first.Spares past middle) (hfuture : middle.Spares future last) :
    first.Spares (past ++ future) last := by
  refine ⟨fun entity hentity => ?_, ?_, ?_⟩ <;> rw [List.filterMap_append]
  · obtain ⟨hbefore, hrow, hmiddle⟩ := hpast.spared entity hentity
    obtain ⟨hafter, hkept, hlast⟩ := hfuture.spared entity hmiddle
    refine ⟨fun call hcall => ?_, hkept.trans hrow, hlast⟩
    rcases List.mem_append.mp hcall with hmem | hmem
    · exact hbefore call hmem
    · exact hafter call hmem
  · intro call hcall hverdict
    rcases List.mem_append.mp hcall with hmem | hmem
    · exact (hfuture.spared _ (hpast.dismissed call hmem hverdict)).2.2
    · exact hfuture.dismissed call hmem hverdict
  · refine List.pairwise_append.mpr ⟨hpast.silent, hfuture.silent, ?_⟩
    intro call hcall later hlater hverdict
    exact (hfuture.spared _ (hpast.dismissed call hcall hverdict)).1 later hlater

namespace Engine

variable {systems : List (System S σ)} {plan : Plan}

namespace Launch

variable {inactive : InactiveHandling} {scene : Scene S σ}

theorem inactive_after (launch : Launch systems plan inactive scene) :
    launch.after.context.inactive = scene.context.inactive := by
  rw [launch.context_after]

/-- Where inactive entities are passed by, no entry point runs on one. This is asked each time, so
it also holds of those that became inactive in the same update. -/
theorem ne_of_inactive (launch : Launch systems plan .passBy scene) {other : EntityId}
    (hother : scene.context.inactive.contains other = true) : other ≠ launch.entity := by
  rintro rfl
  exact launch.heeded ⟨rfl, hother⟩

/-- An invocation spares the inactive entities if those before it are inactive after it, and its own
one if that is its verdict. -/
theorem spares (launch : Launch systems plan .passBy scene) {next : Scene S σ}
    (hrows : next.store.rows = launch.after.store.rows)
    (hothers : ∀ other, other ≠ launch.entity → scene.context.inactive.contains other = true →
      next.context.inactive.contains other = true)
    (hown : launch.outcome.verdict = .settled false →
      next.context.inactive.contains launch.entity = true) :
    scene.Spares launch.events next := by
  refine ⟨fun entity hentity => ?_, ?_, ?_⟩ <;> rw [launch.invocations_events]
  · have hne := launch.ne_of_inactive hentity
    refine ⟨?_, ?_, hothers entity hne hentity⟩
    · simpa using hne.symm
    · rw [hrows, launch.rows_after_of_ne hne]
  · intro call hcall hverdict
    obtain rfl := List.mem_singleton.mp hcall
    exact hown hverdict
  · exact List.pairwise_singleton _ _

end Launch

theorem Work.spares {scene next : Scene S σ} {events : List (Event S)}
    (hwork : Work systems plan .passBy scene events next) : scene.Spares events next := by
  cases hwork with
  | turn line entities => exact .of_idle rfl rfl rfl
  | skip line entity => exact .of_idle rfl rfl rfl
  | @settle _ launch isActive verdict =>
    refine launch.spares rfl (fun other hne hother => ?_) fun hdismissed => ?_
    · rw [← launch.inactive_after] at hother
      exact Context.contains_inactive_settle_of_ne hne hother isActive
    · rw [verdict] at hdismissed
      obtain rfl := Verdict.settled.inj hdismissed
      exact Context.contains_inactive_settle_false launch.after.context launch.entity

theorem Breakdown.spares {scene next : Scene S σ} {events : List (Event S)} {stop : Stop}
    (hbreakdown : Breakdown systems plan .passBy scene events next stop) :
    scene.Spares events next := by
  cases hbreakdown with
  | mk launch stops =>
    refine launch.spares rfl (fun other _ hother => ?_) fun hdismissed => ?_
    · rwa [launch.inactive_after]
    · rw [hdismissed] at stops
      cases stops

theorem Step.spares {scene next : Scene S σ} {events : List (Event S)}
    (hstep : Step systems plan .passBy scene events next) : scene.Spares events next := by
  cases hstep with
  | work work => exact work.spares
  | pass waits => exact .of_idle rfl rfl rfl

theorem Halt.spares {scene next : Scene S σ} {events : List (Event S)} {stop : Stop}
    (hhalt : Halt systems plan .passBy scene events next stop) : scene.Spares events next := by
  cases hhalt with
  | broken breakdown => exact breakdown.spares
  | unfinished => exact .of_idle rfl rfl rfl

variable (systems plan) in
/-- However it ends, an update that passes inactive entities by leaves them alone. Its beginning
empties the active set only. -/
theorem spares_update (limit : Nat) (strategy : Strategy) (scene : Scene S σ) :
    scene.Spares (update systems plan limit strategy .passBy scene).events
      (update systems plan limit strategy .passBy scene).state :=
  related_update (fun _ => .of_idle rfl rfl rfl) Scene.Spares.trans Step.spares Halt.spares limit
    strategy scene (.of_idle rfl rfl rfl) fun _ _ => .of_idle rfl rfl rfl

end Engine

namespace Ruling

/-- What some rulings say of an entity, one after another. -/
def verdictsOn (rulings : List Ruling) (entity : EntityId) : List Bool :=
  rulings.filterMap fun ruling => if ruling.1 = entity then some ruling.2 else none

/-- Verdicts that only the last of which is negative, if any. -/
theorem exists_replicate_of_pairwise {verdicts : List Bool}
    (hverdicts : verdicts.Pairwise fun verdict _ => verdict = true) :
    ∃ count, verdicts = List.replicate count true ∨
      verdicts = List.replicate count true ++ [false] := by
  induction verdicts with
  | nil => exact ⟨0, .inl rfl⟩
  | cons verdict rest ih =>
    obtain ⟨hverdict, hrest⟩ := List.pairwise_cons.mp hverdicts
    cases rest with
    | nil =>
      cases verdict with
      | false => exact ⟨0, .inr rfl⟩
      | true => exact ⟨1, .inl rfl⟩
    | cons next rest =>
      obtain rfl := hverdict next List.mem_cons_self
      obtain ⟨count, heq | heq⟩ := ih hrest
      · exact ⟨count + 1, .inl (by rw [heq, List.replicate_succ])⟩
      · exact ⟨count + 1, .inr (by rw [heq, List.replicate_succ, List.cons_append])⟩

/-- If whoever is found inactive is not ruled on again, every entity is found active until it is
found inactive at most once. -/
theorem exists_verdictsOn_eq {rulings : List Ruling}
    (hsilent : rulings.Pairwise fun ruling later => ruling.2 = false → later.1 ≠ ruling.1)
    (entity : EntityId) :
    ∃ count, verdictsOn rulings entity = List.replicate count true ∨
      verdictsOn rulings entity = List.replicate count true ++ [false] := by
  apply exists_replicate_of_pairwise
  rw [verdictsOn, List.pairwise_filterMap]
  refine hsilent.imp fun {ruling later} hlater verdict hverdict other hother => ?_
  by_contra hnegative
  rw [Bool.not_eq_true] at hnegative
  have hruling : ruling.1 = entity ∧ ruling.2 = verdict := by simpa using hverdict
  have hagain : later.1 = entity ∧ later.2 = other := by simpa using hother
  exact hlater (hruling.2.trans hnegative) (hagain.1.trans hruling.1.symm)

end Ruling

/-- Rulings are as silent on an entity that is found inactive as invocations are. -/
theorem Run.pairwise_rulings {τ : Type} {run : Run S τ}
    (hsilent : run.invocations.Pairwise fun call later =>
      call.2.2 = .settled false → later.2.1 ≠ call.2.1) :
    run.rulings.Pairwise fun ruling later => ruling.2 = false → later.1 ≠ ruling.1 := by
  have hcall {call : Invocation} {ruling : Ruling} (hruling : call.ruling? = some ruling) :
      call.2.1 = ruling.1 ∧ call.2.2 = .settled ruling.2 := by
    obtain ⟨line, entity, verdict⟩ := call
    cases verdict with
    | settled isActive =>
      obtain rfl := Option.some.inj hruling
      exact ⟨rfl, rfl⟩
    | failed _ | panicked _ => cases hruling
  rw [rulings, List.pairwise_filterMap]
  refine hsilent.imp fun {call later} hlater ruling hruling other hother hnegative => ?_
  have hsettled : call.2.2 = .settled false := hnegative ▸ (hcall hruling).2
  rw [← (hcall hruling).1, ← (hcall hother).1]
  exact hlater hsettled

end EntityWorld
