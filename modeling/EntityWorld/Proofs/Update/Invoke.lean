import EntityWorld.Proofs.Update.Agreement

namespace EntityWorld

variable {S : Schema} {σ : Type}

/-- Why a verdict stops a run, if it does: a failure is reported with the name of the system, a
panic as it is. -/
def Verdict.stop? (line : Plan.Line) : Verdict → Option Stop
  | settled _ => none
  | failed reason => some (.failed (.systemFailed line.name reason))
  | panicked message => some (.panicked message)

theorem Verdict.stop?_eq_some {verdict : Verdict} {line : Plan.Line} {stop : Stop}
    (hstop : verdict.stop? line = some stop) :
    (∃ reason, verdict = .failed reason ∧ stop = .failed (.systemFailed line.name reason)) ∨
      ∃ message, verdict = .panicked message ∧ stop = .panicked message := by
  cases verdict with
  | settled isActive => cases hstop
  | failed reason => exact .inl ⟨reason, rfl, (Option.some.inj hstop).symm⟩
  | panicked message => exact .inr ⟨message, rfl, (Option.some.inj hstop).symm⟩

/-- The context after a verdict on an entity. Only a verdict that settles the entity changes it. -/
def Context.heed (context : Context S) (entity : EntityId) : Verdict → Context S
  | .settled isActive => context.settle entity isActive
  | .failed _ | .panicked _ => context

/-- The states that an entry point queues, as far as its signature lets it. -/
def Outcome.queued {signature : Signature} (outcome : Outcome S σ signature) : List (Ambient S) :=
  if signature.asksForContext then outcome.enqueued else []

namespace Engine

/-- Without all of its arguments the entry point does not run, and nothing changes. It is recorded
that it was unbound. -/
theorem invoke_of_unbound (line : Plan.Line) {shape : Shape S σ} (entity : EntityId) {row : Row S}
    {scene : Scene S σ}
    (hbound : Arguments.bind? row scene.ambient scene.context.view shape.signature = none) :
    invoke line shape entity row scene =
      { state := scene, events := [.invoking line entity, .unbound line entity] } := by
  rw [invoke, hbound]

/-- The events of an invocation up to its verdict. -/
def opening (line : Plan.Line) (entity : EntityId) (queued : List (Ambient S)) : List (Event S) :=
  .invoking line entity :: queued.map .queued

/-- With all of its arguments the entry point runs: what it leaves is written back and its states
are queued, before its verdict settles the entity or stops the run. -/
theorem invoke_of_bound (line : Plan.Line) {shape : Shape S σ} (entity : EntityId) {row : Row S}
    {scene : Scene S σ} {bound : Arguments S shape.signature}
    (hbound : Arguments.bind? row scene.ambient scene.context.view shape.signature = some bound) :
    let outcome := shape.invoke bound scene.data
    let next := absorb scene entity row outcome
    invoke line shape entity row scene =
      { state := { next with context := next.context.heed entity outcome.verdict }
        events := opening line entity outcome.queued ++ [.invoked line entity outcome.verdict]
        stop := outcome.verdict.stop? line } := by
  intro outcome next
  have hqueued : (if Signature.asksForContext shape.signature then
      outcome.enqueued.map Event.queued else []) = outcome.queued.map Event.queued := by
    unfold Outcome.queued
    split <;> rfl
  rw [invoke, hbound]
  simp only [opening, ← hqueued, outcome, next]
  split <;> rename_i hverdict <;> rw [hverdict] <;> rfl

/-- What is read off the events before a verdict, where nothing is read off the first of them, is
what is read off the queued states. -/
theorem filterMap_opening {α : Type} {read? : Event S → Option α} (line : Plan.Line)
    (entity : EntityId) (queued : List (Ambient S))
    (hinvoking : read? (.invoking line entity) = none) :
    (opening line entity queued).filterMap read? =
      queued.filterMap fun state => read? (.queued state) := by
  rw [opening, List.filterMap_cons_none hinvoking, List.filterMap_map]
  rfl

/-- With all of its arguments an entry point runs exactly once, and its verdict is recorded. -/
theorem invocations_invoke_of_bound (line : Plan.Line) {shape : Shape S σ} (entity : EntityId)
    {row : Row S} {scene : Scene S σ} {bound : Arguments S shape.signature}
    (hbound : Arguments.bind? row scene.ambient scene.context.view shape.signature = some bound) :
    (invoke line shape entity row scene).invocations =
      [(line, entity, (shape.invoke bound scene.data).verdict)] := by
  rw [invoke_of_bound line entity hbound, Run.invocations, List.filterMap_append,
    filterMap_opening line entity _ rfl]
  simp [Event.invocation?]

end Engine

end EntityWorld
