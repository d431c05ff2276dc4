import EntityWorld.Proofs.Update.Descent
import EntityWorld.Proofs.World.Breakdown

namespace EntityWorld

variable {S : Schema} {σ : Type}

/-- An update that no limit stops comes to its end exactly if all invocations settle their
entities. -/
theorem World.stop_eq_none_iff (world : World S σ) (limit : Nat) (ambient : Option (Ambient S))
    (strategy : Strategy) (inactive : InactiveHandling)
    (hlimit : (world.updateWith limit ambient strategy inactive).stop ≠ some .unfinished) :
    let run := world.updateWith limit ambient strategy inactive
    run.stop = none ↔ ∀ call ∈ run.invocations, ∃ isActive, call.2.2 = .settled isActive := by
  intro run
  have htraced := Engine.traced_passes world.systems world.plan inactive limit strategy
    (world.start ambient)
  constructor
  · intro hstop call hcall
    simp only [run, world.updateWith_eq, Run.invocations] at hstop hcall
    rw [List.filterMap_cons_none rfl] at hcall
    exact Engine.settled_of_path (htraced.path hstop) call hcall
  · intro hsettled
    by_contra hstop
    obtain ⟨stop, hstop⟩ := Option.ne_none_iff_exists'.mp hstop
    have hbroken : stop ≠ .unfinished := by
      rintro rfl
      exact hlimit hstop
    simp only [run, world.updateWith_eq, Run.invocations] at hstop hsettled
    rw [List.filterMap_cons_none rfl] at hsettled
    -- The invocation that stops the update would have to settle its entity.
    obtain ⟨past, now, launch, _, hevents, _, hstops⟩ :=
      Engine.exists_launch_of_stop htraced hstop hbroken
    have hcall : (launch.line, launch.entity, launch.outcome.verdict) ∈
        (world.passes limit ambient strategy inactive).events.filterMap Event.invocation? := by
      rw [World.passes, hevents, List.filterMap_append, launch.invocations_events]
      exact List.mem_append_right _ List.mem_cons_self
    obtain ⟨isActive, hactive⟩ := hsettled _ hcall
    change launch.outcome.verdict = _ at hactive
    rw [hactive] at hstops
    cases hstops

/-- Where each pass for a queued state queues only states below that one in a well-founded order,
however many, a recursive update comes to its end, whatever the first pass queues: there is a limit
that does not stop it, and with any greater one it does the same. If every invocation settles its
entity, the update makes one pass more than states are queued in it. -/
theorem recursive_update_of_descends (world : World S σ) (ambient : Option (Ambient S))
    (inactive : InactiveHandling) {below : Ambient S → Ambient S → Prop}
    (hbelow : WellFounded below)
    (hdescends : Engine.Descends (Engine.pass world.systems world.plan inactive) below
      (world.start ambient)) :
    ∃ limit, ∀ more, limit ≤ more →
      let run := world.updateWith more ambient .recursive inactive
      run = world.updateWith limit ambient .recursive inactive ∧ run.stop ≠ some .unfinished ∧
      ∃ later, world.Makes more ambient .recursive inactive later ∧
        ((∀ call ∈ run.invocations, ∃ isActive, call.2.2 = .settled isActive) →
          run.stop = none ∧ run.state.1.context.queue = [] ∧
          (world.start ambient :: later).length =
            (run.events.filterMap Event.queued?).length + 1) := by
  obtain ⟨limit, hpasses⟩ := hdescends.exists_limit hbelow
  have hlimit : (world.updateWith limit ambient .recursive inactive).stop ≠ some .unfinished := by
    rw [world.updateWith_eq]
    exact hpasses
  refine ⟨limit, fun more hmore => ?_⟩
  intro run
  have hsame : run = world.updateWith limit ambient .recursive inactive :=
    world.updateWith_of_le hmore ambient .recursive inactive hlimit
  have hfinished : run.stop ≠ some .unfinished := hsame ▸ hlimit
  obtain ⟨later, hmakes⟩ := world.exists_makes more ambient .recursive inactive
  refine ⟨hsame, hfinished, later, hmakes, fun hsettled => ?_⟩
  have hstop : run.stop = none :=
    (world.stop_eq_none_iff more ambient .recursive inactive hfinished).mpr hsettled
  have hlength := hmakes.recursive rfl hstop
  refine ⟨hstop, ?_, congrArg (· + 1) hlength⟩
  rw [hmakes.waits, hlength, List.drop_length]

namespace Zoo

/-- The states that follow on one: the number before it, twice. -/
def twice : Script.Scalar → List (Ambient Zoo.schema)
  | .u8 n => if 1 < n then [number (n - 1), number (n - 1)] else []
  | _ => []

/-- A system with one entry point, which queues the states that follow on the ambient one. -/
def brancher : System Zoo.schema Unit where
  id := Zoo.system 0
  shapes :=
    [{ signature := [.context, .state { name := "u8" } .read, .component Zoo.plain.type .read]
       invoke := fun arguments data =>
         { arguments, data, enqueued := twice arguments.2.1, verdict := .settled true } }]

/-- How far a state is from the last. -/
def height : Script.Scalar → Nat
  | .u8 n => n.toNat
  | _ => 0

theorem height_of_mem_twice {scalar : Script.Scalar} {queued : Ambient Zoo.schema}
    (hqueued : queued ∈ twice scalar) : height queued.2 < height scalar := by
  cases scalar with
  | u8 n =>
    simp only [twice] at hqueued
    split at hqueued
    case isTrue hlt =>
      obtain rfl : queued = number (n - 1) := by simpa using hqueued
      have hsub : (n - 1).toNat = n.toNat - 1 := UInt8.toNat_sub_of_le n 1 (UInt8.le_of_lt hlt)
      have hpos : 1 < n.toNat := UInt8.lt_iff_toNat_lt.mp hlt
      change (n - 1).toNat < n.toNat
      omega
    case isFalse => cases hqueued
  | u16 | u32 | i64 | text => cases hqueued

theorem queuesBelow_brancher : ∀ system ∈ [brancher], ∀ shape ∈ system.shapes,
    shape.QueuesBelow (InvImage (· < ·) fun state => height state.2) := by
  intro system hsystem shape hshape
  obtain rfl := List.mem_singleton.mp hsystem
  obtain rfl := List.mem_singleton.mp hshape
  intro row state view arguments data hbound
  obtain ⟨type, scalar⟩ := state
  simp only [Arguments.bind?, Param.bind?] at hbound
  by_cases htype : type = { name := "u8" }
  case neg =>
    rw [dif_neg htype] at hbound
    cases hbound
  case pos =>
    subst htype
    rw [dif_pos rfl] at hbound
    cases hfound : row.find? plain.type with
    | none =>
      rw [hfound] at hbound
      cases hbound
    | some record =>
      rw [hfound] at hbound
      cases hbound
      exact ⟨rfl, fun queued hqueued => height_of_mem_twice hqueued⟩

end Zoo

/-- With that system an update for the number three makes seven passes: the first, two for the
number two and four for the number one. -/
theorem recursive_update_of_descends_brancher :
    let world : World Zoo.schema Unit :=
      { Zoo.readerWorld with
        systems := [Zoo.brancher]
        plan := Plan.linesOf Zoo.brancher 0 0 }
    let ambient := some (Zoo.number 3)
    ∃ limit later, world.Makes limit ambient .recursive .visit later ∧
      (world.updateWith limit ambient .recursive .visit).stop = none ∧
      (world.start ambient :: later).length = 7 := by
  intro world ambient
  have hdescends : Engine.Descends (Engine.pass world.systems world.plan .visit)
      (InvImage (· < ·) fun state => Zoo.height state.2) (world.start ambient) :=
    Engine.descends_of_shapes Zoo.queuesBelow_brancher _
  obtain ⟨limit, hlimit⟩ := recursive_update_of_descends world ambient .visit
    (InvImage.wf _ Nat.lt_wfRel.wf) hdescends
  -- Six passes after the first are enough, so a limit above both is no different.
  let six := world.updateWith 6 ambient .recursive .visit
  have hfinished : six.stop = none := Option.isNone_iff_eq_none.mp (by decide +kernel)
  have hqueued : (six.events.filterMap Event.queued?).length = 6 := by decide +kernel
  have hsame : world.updateWith (max limit 6) ambient .recursive .visit = six :=
    world.updateWith_of_le (le_max_right limit 6) ambient .recursive .visit (hfinished ▸ nofun)
  obtain ⟨_, hunstopped, later, hmakes, hcount⟩ := hlimit (max limit 6) (le_max_left limit 6)
  have hstop : (world.updateWith (max limit 6) ambient .recursive .visit).stop = none :=
    hsame ▸ hfinished
  have hsettled :=
    (world.stop_eq_none_iff (max limit 6) ambient .recursive .visit hunstopped).mp hstop
  obtain ⟨_, _, hlength⟩ := hcount hsettled
  rw [hsame, hqueued] at hlength
  exact ⟨max limit 6, later, hmakes, hstop, hlength⟩

end EntityWorld
