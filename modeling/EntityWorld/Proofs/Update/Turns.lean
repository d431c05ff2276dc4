import EntityWorld.Proofs.Plan.Dependencies
import EntityWorld.Proofs.Update.Path

namespace EntityWorld.Engine

variable {S : Schema} {σ : Type} {systems : List (System S σ)} {plan : Plan}
  {inactive : InactiveHandling}

theorem Launch.line_mem {scene : Scene S σ} (launch : Launch systems plan inactive scene) :
    ∀ call ∈ launch.events.filterMap Event.invocation?, call.1 ∈ plan := by
  intro call hcall
  rw [launch.invocations_events] at hcall
  obtain rfl := List.mem_singleton.mp hcall
  exact launch.planned

theorem line_mem_of_traced {scene : Scene S σ} {run : Run S (Scene S σ)}
    (hrun : run.Traced (Work systems plan inactive) (Breakdown systems plan inactive) scene) :
    ∀ call ∈ run.invocations, call.1 ∈ plan := by
  refine hrun.related
    (Q := fun _ events _ => ∀ call ∈ events.filterMap Event.invocation?, call.1 ∈ plan)
    (fun _ => by simp) (fun hpast hfuture => ?_) (fun hwork => ?_) fun hbreakdown => ?_
  · rw [List.filterMap_append]
    exact fun call hcall => (List.mem_append.mp hcall).elim (hpast call) (hfuture call)
  · cases hwork with
    | turn line entities => simp [Event.invocation?]
    | skip line entity => simp [Event.invocation?]
    | settle launch verdict => exact launch.line_mem
  · cases hbreakdown with
    | mk launch stops => exact launch.line_mem

theorem line_eq_of_mem_runLine {line : Plan.Line} {scene : Scene S σ} {call : Invocation}
    (hcall : call ∈ (runLine systems inactive line scene).invocations) : call.1 = line := by
  have hline : line ∈ [line] := List.mem_cons_self
  exact List.mem_singleton.mp (line_mem_of_traced (traced_runLine hline scene) call hcall)

/-- Between any two invocations of a pass there holds what holds between any two lines of its plan
in their order, and between a line and itself. A pass goes through the lines in this order, and is
done with one before it begins the next. -/
theorem pairwise_invocations_pass {R : Plan.Line → Plan.Line → Prop} (hplan : plan.Pairwise R)
    (hown : ∀ line ∈ plan, R line line) (scene : Scene S σ) :
    (pass systems plan inactive scene).invocations.Pairwise fun call later =>
      R call.1 later.1 := by
  induction plan generalizing scene with
  | nil => exact .nil
  | cons line plan ih =>
    obtain ⟨hline, hrest⟩ := List.pairwise_cons.mp hplan
    have hsame := hown line List.mem_cons_self
    have hfirst : (runLine systems inactive line scene).invocations.Pairwise fun call later =>
        R call.1 later.1 := by
      refine List.pairwise_of_forall_mem_list fun call hcall later hlater => ?_
      rwa [line_eq_of_mem_runLine hcall, line_eq_of_mem_runLine hlater]
    change ((runLine systems inactive line scene).andThen
      (pass systems plan inactive)).invocations.Pairwise _
    cases hstop : (runLine systems inactive line scene).stop with
    | some stop => rwa [Run.andThen_of_stop hstop]
    | none =>
      rw [Run.andThen_of_no_stop hstop, Run.invocations, List.filterMap_append]
      have hother := fun other hmem => hown other (List.mem_cons_of_mem line hmem)
      refine List.pairwise_append.mpr ⟨hfirst, ih hrest hother _, fun call hcall later hlater => ?_⟩
      rw [line_eq_of_mem_runLine hcall]
      exact hline _ (line_mem_of_traced (traced_pass systems plan inactive _) later hlater)

/-- Where some lines of a plan come before others, everything that a pass runs for these comes
before everything for the others. -/
theorem allBefore_invocations_pass {isFirst isSecond : Plan.Line → Prop}
    (hplan : AllBefore isFirst isSecond plan) (scene : Scene S σ) :
    AllBefore (fun call => isFirst call.1) (fun call => isSecond call.1)
      (pass systems plan inactive scene).invocations := by
  obtain ⟨hpairs, hkinds⟩ := allBefore_iff_pairwise.mp hplan
  refine allBefore_iff_pairwise.mpr ⟨?_, fun call hcall => ?_⟩
  · exact pairwise_invocations_pass hpairs (fun line hline hsecond hfirst =>
      hkinds line hline hfirst hsecond) scene
  · exact hkinds _ (line_mem_of_traced (traced_pass systems plan inactive scene) call hcall)

end EntityWorld.Engine
