import EntityWorld.Proofs.Update.Frame

namespace EntityWorld

variable {S : Schema} {σ : Type}

/-- One invocation of an entry point on an entity, and its verdict. -/
abbrev Invocation := Plan.Line × EntityId × Verdict

/-- The invocation that an event records, if it records one. -/
def Event.invocation? : Event S → Option Invocation
  | invoked line entity verdict => some (line, entity, verdict)
  | _ => none

namespace Run

variable {τ ι : Type}

/-- The invocations of a run in their order. -/
def invocations (run : Run S τ) : List Invocation :=
  run.events.filterMap Event.invocation?

/-- Runs that differ at most in what they record on the way: they leave the same state, end for the
same reason, and make the same invocations with the same verdicts in the same order. -/
structure Agrees (run other : Run S τ) : Prop where
  state : run.state = other.state
  stop : run.stop = other.stop
  invocations : run.invocations = other.invocations

theorem Agrees.refl (run : Run S τ) : run.Agrees run :=
  ⟨rfl, rfl, rfl⟩

theorem Agrees.trans {first second third : Run S τ} (hfirst : first.Agrees second)
    (hsecond : second.Agrees third) : first.Agrees third :=
  ⟨hfirst.state.trans hsecond.state, hfirst.stop.trans hsecond.stop,
    hfirst.invocations.trans hsecond.invocations⟩

theorem andThen_of_stop {run : Run S τ} {stop : Stop} (hstop : run.stop = some stop)
    (next : τ → Run S τ) : run.andThen next = run := by
  rw [andThen, hstop]

theorem andThen_of_no_stop {run : Run S τ} (hstop : run.stop = none) (next : τ → Run S τ) :
    run.andThen next =
      { next run.state with events := run.events ++ (next run.state).events } := by
  rw [andThen, hstop]

/-- Runs that agree go on in agreement if what follows agrees on the state that both have left. -/
theorem Agrees.andThen {run other : Run S τ} {next otherNext : τ → Run S τ}
    (hrun : run.Agrees other) (hnext : (next run.state).Agrees (otherNext run.state)) :
    (run.andThen next).Agrees (other.andThen otherNext) := by
  cases hstop : run.stop with
  | some stop =>
    rw [andThen_of_stop hstop, andThen_of_stop (hrun.stop ▸ hstop)]
    exact hrun
  | none =>
    rw [andThen_of_no_stop hstop, andThen_of_no_stop (hrun.stop ▸ hstop), ← hrun.state]
    refine ⟨hnext.state, hnext.stop, ?_⟩
    simp only [Run.invocations, List.filterMap_append]
    exact congrArg₂ (· ++ ·) hrun.invocations hnext.invocations

/-- Work on one item after another agrees with other work if each piece of work does, in all states
that can come up. `P` describes these states. -/
theorem agrees_forEach (P : τ → Prop) {work other : ι → τ → Run S τ}
    (hkept : ∀ item state, P state → P (work item state).state) {items : List ι}
    (hwork : ∀ item ∈ items, ∀ state, P state → (work item state).Agrees (other item state))
    {state : τ} (hstate : P state) : (forEach work items state).Agrees (forEach other items state) := by
  induction items generalizing state with
  | nil => exact .refl _
  | cons item items ih =>
    have hrest := fun later hlater => hwork later (List.mem_cons_of_mem item hlater)
    exact (hwork item List.mem_cons_self state hstate).andThen
      (ih hrest (hkept item state hstate))

/-- Items on which there is nothing to do may as well be left out. This is how a scan over all
entities comes down to one over those that are listed. -/
theorem forEach_flatMap_of_idle (P : τ → Prop) {work : ι → τ → Run S τ}
    (hkept : ∀ item state, P state → P (work item state).state) {expand : ι → List ι}
    {items : List ι}
    (hitems : ∀ item ∈ items, expand item = [item] ∨
      expand item = [] ∧ ∀ state, P state → work item state = { state })
    {state : τ} (hstate : P state) :
    forEach work (items.flatMap expand) state = forEach work items state := by
  induction items generalizing state with
  | nil => rfl
  | cons item items ih =>
    have hrest {later : τ} (hlater : P later) :
        forEach work (items.flatMap expand) later = forEach work items later :=
      ih (fun other hother => hitems other (List.mem_cons_of_mem item hother)) hlater
    rw [List.flatMap_cons]
    rcases hitems item List.mem_cons_self with hone | ⟨hnone, hidle⟩
    · rw [hone, List.singleton_append, forEach, forEach]
      cases hstop : (work item state).stop with
      | some stop => rw [andThen_of_stop hstop, andThen_of_stop hstop]
      | none =>
        rw [andThen_of_no_stop hstop, andThen_of_no_stop hstop, hrest (hkept item state hstate)]
    · rw [hnone, List.nil_append, hrest hstate, forEach, hidle state hstate]
      rfl

/-- What holds of the invocations of every piece of work holds of all invocations. The states in
between are those that `P` describes. -/
theorem forall_invocations_forEach (P : τ → Prop) (Q : Invocation → Prop)
    {work : ι → τ → Run S τ} (hkept : ∀ item state, P state → P (work item state).state)
    {items : List ι}
    (hwork : ∀ item ∈ items, ∀ state, P state → ∀ call ∈ (work item state).invocations, Q call)
    {state : τ} (hstate : P state) :
    ∀ call ∈ (forEach work items state).invocations, Q call := by
  induction items generalizing state with
  | nil => simp [forEach, invocations]
  | cons item items ih =>
    intro call hcall
    have hfirst := hwork item List.mem_cons_self state hstate
    have hrest := ih (fun later hlater => hwork later (List.mem_cons_of_mem item hlater))
      (hkept item state hstate)
    rw [forEach] at hcall
    cases hstop : (work item state).stop with
    | some stop =>
      rw [andThen_of_stop hstop] at hcall
      exact hfirst call hcall
    | none =>
      rw [andThen_of_no_stop hstop, invocations, List.filterMap_append] at hcall
      rcases List.mem_append.mp hcall with hmem | hmem
      · exact hfirst call hmem
      · exact hrest call hmem

end Run

namespace Engine

/-- Updates by passes that agree agree themselves. The passes have to agree only on stores of the
layout that the update begins with, since no pass changes it. -/
theorem agrees_drain {pass other : Scene S σ → Run S (Scene S σ)} {store : Store S}
    (hpass : ∀ scene : Scene S σ, store.SameLayout scene.store → (pass scene).Agrees (other scene))
    (hkept : ∀ scene : Scene S σ, scene.store.SameLayout (pass scene).state.store) (limit : Nat)
    {scene : Scene S σ} (hscene : store.SameLayout scene.store) :
    (drain pass limit scene).Agrees (drain other limit scene) := by
  induction limit generalizing scene with
  | zero =>
    unfold drain
    split <;> exact .refl _
  | succ limit ih =>
    unfold drain
    split
    case h_1 => exact .refl _
    case h_2 state context _ =>
      have hfirst := hpass { scene with context, ambient := some state } hscene
      have hrest := ih (hscene.trans (hkept { scene with context, ambient := some state }))
      refine Run.Agrees.andThen ⟨hfirst.state, hfirst.stop, ?_⟩ hrest
      exact hfirst.invocations

/-- Whole updates agree if their passes do, whatever limit and strategy they have. -/
theorem agrees_updateBy {pass other : Scene S σ → Run S (Scene S σ)} {store : Store S}
    (hpass : ∀ scene : Scene S σ, store.SameLayout scene.store → (pass scene).Agrees (other scene))
    (hkept : ∀ scene : Scene S σ, scene.store.SameLayout (pass scene).state.store) (limit : Nat)
    (strategy : Strategy) (inactive : InactiveHandling) {scene : Scene S σ}
    (hscene : store.SameLayout scene.store) :
    (updateBy pass limit strategy inactive scene).Agrees
      (updateBy other limit strategy inactive scene) := by
  let cleared : Scene S σ := { scene with context := scene.context.reset }
  have hfirst : (pass cleared).Agrees (other cleared) := hpass cleared hscene
  have hdrain := agrees_drain hpass hkept limit (hscene.trans (hkept cleared))
  have hrest : (if strategy = .recursive then (pass cleared).andThen (drain pass limit)
      else pass cleared).Agrees
      (if strategy = .recursive then (other cleared).andThen (drain other limit)
      else other cleared) := by
    split
    · exact hfirst.andThen hdrain
    · exact hfirst
  let finish (scene : Scene S σ) : Run S (Scene S σ) :=
    { state := { scene with context := scene.context.advance } }
  have hwhole := hrest.andThen (.refl (finish _))
  refine ⟨?_, hwhole.stop, hwhole.invocations⟩
  exact congrArg₂ (fun (whole first : Scene S σ) => { whole with ambient := first.ambient })
    hwhole.state hfirst.state

end Engine

end EntityWorld
