import EntityWorld.Proofs.Signature.Validation
import EntityWorld.Proofs.Update.Invoke
import EntityWorld.Zoo

namespace EntityWorld

variable {S : Schema} {σ : Type}

/-- What a parameter can be bound to: a column of the row, the context of the update, or the ambient
state of the pass. Parameters that have passed the check never share a spot. -/
inductive Spot where
  | column (index : Nat)
  | context
  | state
deriving DecidableEq

variable {row : Row S} {ambient : Option (Ambient S)} {view : ContextView}

/-- What is at a spot. -/
def Spot.content? (row : Row S) (ambient : Option (Ambient S)) (view : ContextView) :
    Spot → Option (Argument S)
  | column index => row[index]?.map .component
  | context => some (.context view)
  | state => ambient.map .state

namespace Param

/-- Where a parameter finds what it asks for, by the types in the columns of a row and the type of
the ambient state. Only the very type that is asked for counts, whatever others are called. -/
def spot? (columns : List TypeId) (held : Option TypeId) : Param → Option Spot
  | component type _ => (columns.idxOf? type).map .column
  | context => some .context
  | state type _ => if held = some type then some .state else none

/-- Whether what an entry point leaves in a parameter is put back. -/
def isWritten : Param → Bool
  | component _ .write | state _ .write => true
  | _ => false

/-- What a parameter gets, together with what it is. -/
def argument : (param : Param) → param.Slot S → Argument S
  | component type _, record => .component ⟨type, record⟩
  | context, view => .context view
  | state type _, value => .state ⟨type, value⟩

end Param

namespace Signature

/-- Spots for all parameters, each where its parameter finds what it asks for. -/
def FoundAt (signature : Signature) (columns : List TypeId) (held : Option TypeId)
    (spots : List Spot) : Prop :=
  List.Forall₂ (fun param spot => param.spot? columns held = some spot) signature spots

instance (signature : Signature) (columns : List TypeId) (held : Option TypeId)
    (spots : List Spot) : Decidable (signature.FoundAt columns held spots) :=
  inferInstanceAs (Decidable (List.Forall₂ ..))

/-- A component type that is asked for is in no column, or there is no ambient state of exactly the
type that is asked for. A type of the same name is no substitute. -/
def Lacks (signature : Signature) (columns : List TypeId) (held : Option TypeId) : Prop :=
  (∃ type access, Param.component type access ∈ signature ∧ type ∉ columns) ∨
    ∃ type access, Param.state type access ∈ signature ∧ held ≠ some type

end Signature

namespace Arguments

/-- The argument of the only parameter. -/
def single {param : Param} (slot : param.Slot S) : Arguments S [param] :=
  (slot, ())

/-- What is left in the arguments that are declared as written, with the spots of these. -/
def writes : (signature : Signature) → Arguments S signature → List Spot →
    List (Spot × Argument S)
  | param :: signature, (slot, rest), spot :: spots =>
    if param.isWritten then (spot, param.argument slot) :: writes signature rest spots
    else writes signature rest spots
  | _, _, _ => []

end Arguments

namespace Param

/-- A parameter is bound to what is at its spot, and it is not bound if it has none. -/
theorem bind?_eq_some_iff {param : Param} {slot : param.Slot S} :
    param.bind? row ambient view = some slot ↔
      ∃ spot, param.spot? row.types (ambient.map Sigma.fst) = some spot ∧
        spot.content? row ambient view = some (param.argument slot) := by
  cases param with
  | component type access =>
    refine Row.find?_eq_some_iff_idxOf?.trans ?_
    simp [spot?, argument, Spot.content?]
  | context =>
    have hview (other : ContextView) : some view = some other ↔
        some (Argument.context (S := S) view) = some (.context other) := by simp
    refine (hview slot).trans ?_
    simp [spot?, argument, Spot.content?]
  | state type access =>
    match ambient with
    | none => simp [bind?, spot?]
    | some ⟨found, value⟩ =>
      by_cases hfound : found = type
      · subst hfound
        have hstate (other : S.State found) : (some value : Option (S.State found)) = some other ↔
            some (Argument.state (S := S) ⟨found, value⟩) = some (.state ⟨found, other⟩) := by simp
        rw [bind?, dif_pos rfl]
        refine (hstate slot).trans ?_
        simp [spot?, argument, Spot.content?]
      · simp [bind?, spot?, hfound]

variable {columns : List TypeId} {held : Option TypeId}

/-- Only a parameter for a component finds a column, and it finds the first of its type. -/
theorem spot?_eq_column_iff {param : Param} {index : Nat} :
    param.spot? columns held = some (.column index) ↔
      ∃ type access, param = component type access ∧ columns.idxOf? type = some index := by
  cases param <;> simp [spot?]

/-- Only a parameter for the context finds the context, and it always does. -/
theorem spot?_eq_context_iff {param : Param} :
    param.spot? columns held = some .context ↔ param = context := by
  cases param <;> simp [spot?]

/-- Only a parameter for an ambient state finds the state, and only if it is of its type. -/
theorem spot?_eq_state_iff {param : Param} :
    param.spot? columns held = some .state ↔
      ∃ type access, param = state type access ∧ held = some type := by
  cases param <;> simp [spot?]

/-- A parameter that would be bound where another one is asks for the same. This turns round the
check of signatures into a statement about spots. -/
theorem repeats_of_spot?_eq {param other : Param} {spot : Spot}
    (hparam : param.spot? columns held = some spot) (hother : other.spot? columns held = some spot)
    {signature : Signature} (hmem : other ∈ signature) : param.Repeats signature := by
  cases spot with
  | column index =>
    obtain ⟨type, _, rfl, hindex⟩ := spot?_eq_column_iff.mp hparam
    obtain ⟨found, access, rfl, hfound⟩ := spot?_eq_column_iff.mp hother
    obtain ⟨_, htype, _⟩ := List.idxOf?_eq_some_iff.mp hindex
    obtain ⟨_, hsame, _⟩ := List.idxOf?_eq_some_iff.mp hfound
    obtain rfl : type = found := htype.symm.trans hsame
    exact Signature.mem_types.mpr ⟨access, hmem⟩
  | context =>
    obtain rfl := spot?_eq_context_iff.mp hparam
    obtain rfl := spot?_eq_context_iff.mp hother
    exact hmem
  | state =>
    obtain ⟨_, _, rfl, _⟩ := spot?_eq_state_iff.mp hparam
    obtain ⟨found, access, rfl, _⟩ := spot?_eq_state_iff.mp hother
    exact ⟨found, access, hmem⟩

end Param

namespace Signature

/-- What is lacking is what a parameter finds no spot for, so it can be decided parameter by
parameter. -/
theorem lacks_iff {signature : Signature} {columns : List TypeId} {held : Option TypeId} :
    signature.Lacks columns held ↔ ∃ param ∈ signature, param.spot? columns held = none := by
  constructor
  · rintro (⟨type, access, hmem, hmissing⟩ | ⟨type, access, hmem, hother⟩)
    · exact ⟨_, hmem, Option.map_eq_none_iff.mpr (List.idxOf?_eq_none_iff.mpr hmissing)⟩
    · exact ⟨_, hmem, if_neg hother⟩
  · rintro ⟨param, hmem, hnone⟩
    cases param with
    | component type access =>
      have hmissing := List.idxOf?_eq_none_iff.mp (Option.map_eq_none_iff.mp hnone)
      exact .inl ⟨type, access, hmem, hmissing⟩
    | context => cases hnone
    | state type access => exact .inr ⟨type, access, hmem, by simpa [Param.spot?] using hnone⟩

instance (signature : Signature) (columns : List TypeId) (held : Option TypeId) :
    Decidable (signature.Lacks columns held) :=
  decidable_of_iff _ lacks_iff.symm

/-- Parameters that ask for distinct things have distinct spots, so no argument is written over by
another. -/
theorem FoundAt.nodup {signature : Signature} {columns : List TypeId} {held : Option TypeId}
    {spots : List Spot} (hfound : signature.FoundAt columns held spots)
    (hdistinct : signature.Distinct) : spots.Nodup := by
  unfold FoundAt at hfound
  induction hfound with
  | nil => exact .nil
  | @cons param spot signature spots hspot hspots ih =>
    obtain ⟨hrest, hnew⟩ := distinct_cons_iff.mp hdistinct
    refine List.nodup_cons.mpr ⟨fun hmem => hnew ?_, ih hrest⟩
    -- Were the spot to come again, the parameter it comes for would ask for the same as the first.
    obtain ⟨other, hother, hsame⟩ := exists_of_mem_forall₂ hspots hmem
    exact Param.repeats_of_spot?_eq hspot hsame hother

end Signature

namespace Arguments

/-- Bound arguments are what is at the spots of their parameters, one after another. The induction
is over the parameters. -/
theorem exists_foundAt {signature : Signature} {arguments : Arguments S signature}
    (hbound : bind? row ambient view signature = some arguments) :
    ∃ spots, signature.FoundAt row.types (ambient.map Sigma.fst) spots ∧
      List.Forall₂ (fun spot argument => spot.content? row ambient view = some argument) spots
        (toList signature arguments) := by
  induction signature with
  | nil => exact ⟨[], .nil, .nil⟩
  | cons param signature ih =>
    rw [bind?] at hbound
    obtain ⟨slot, hslot, htail⟩ := Option.bind_eq_some_iff.mp hbound
    obtain ⟨rest, hrest, heq⟩ := Option.bind_eq_some_iff.mp htail
    obtain rfl := Option.some.inj heq
    obtain ⟨spot, hspot, hcontent⟩ := Param.bind?_eq_some_iff.mp hslot
    obtain ⟨spots, hspots, hcontents⟩ := ih hrest
    refine ⟨spot :: spots, .cons hspot hspots, ?_⟩
    cases param <;> exact .cons hcontent hcontents

/-- Arguments are missing exactly if something that is asked for is not there. Nothing else keeps an
entry point from running. -/
theorem bind?_eq_none_iff {signature : Signature} :
    bind? row ambient view signature = none ↔
      signature.Lacks row.types (ambient.map Sigma.fst) := by
  rw [← Option.not_isSome_iff_eq_none, isSome_bind?]
  simp only [not_forall, exists_prop]
  constructor
  · rintro ⟨param, hmem, hmissing⟩
    cases param with
    | component type access => exact .inl ⟨type, access, hmem, mt Row.find?_isSome.mpr hmissing⟩
    | context => exact absurd rfl hmissing
    | state type access => exact .inr ⟨type, access, hmem, mt Param.isSome_bind?_state.mpr hmissing⟩
  · rintro (⟨type, access, hmem, hmissing⟩ | ⟨type, access, hmem, hmissing⟩)
    · exact ⟨_, hmem, mt Row.find?_isSome.mp hmissing⟩
    · exact ⟨_, hmem, mt Param.isSome_bind?_state.mp hmissing⟩

theorem writeRow_cons {param : Param} {signature : Signature} (slot : param.Slot S)
    (rest : Arguments S signature) (row : Row S) :
    writeRow (param :: signature) (slot, rest) row =
      writeRow signature rest (writeRow [param] (single slot) row) := by
  match param with
  | .component _ .read | .component _ .write | .context | .state _ _ => rfl

theorem writeAmbient_cons {param : Param} {signature : Signature} (slot : param.Slot S)
    (rest : Arguments S signature) (ambient : Option (Ambient S)) :
    writeAmbient (param :: signature) (slot, rest) ambient =
      writeAmbient signature rest (writeAmbient [param] (single slot) ambient) := by
  match param with
  | .component _ _ | .context | .state _ .read | .state _ .write => rfl

/-- Writing one argument back changes what is at its spot, if the argument is declared as written,
and at no other. Row and ambient state are treated together, since a spot may be in either. -/
theorem content?_write_singleton {param : Param} {spot : Spot}
    (hspot : param.spot? row.types (ambient.map Sigma.fst) = some spot) (slot : param.Slot S)
    (view : ContextView) (other : Spot) :
    other.content? (writeRow [param] (single slot) row) (writeAmbient [param] (single slot) ambient)
        view =
      if param.isWritten ∧ other = spot then some (param.argument slot)
      else other.content? row ambient view := by
  have hunwritten (hparam : param.isWritten = false) :
      other.content? row ambient view =
        if param.isWritten ∧ other = spot then some (param.argument slot)
        else other.content? row ambient view := by
    rw [if_neg (by simp [hparam])]
  cases spot with
  | column index =>
    obtain ⟨type, access, rfl, hindex⟩ := Param.spot?_eq_column_iff.mp hspot
    cases access with
    | read => exact hunwritten rfl
    | write =>
      have hrow : writeRow [.component type .write] (single slot) row = row.set index ⟨type, slot⟩ :=
        @Row.replace_eq_set S row ⟨type, slot⟩ index hindex
      obtain ⟨hlt, _⟩ := List.idxOf?_eq_some_iff.mp hindex
      rw [Row.types, List.length_map] at hlt
      rw [hrow]
      cases other with
      | column place =>
        by_cases hplace : place = index
        · subst hplace
          simp [Spot.content?, Param.isWritten, Param.argument, hlt]
        · simp [Spot.content?, hplace, Ne.symm hplace]
      | context => exact (if_neg (by simp)).symm
      | state => exact (if_neg (by simp)).symm
  | context =>
    obtain rfl := Param.spot?_eq_context_iff.mp hspot
    exact hunwritten rfl
  | state =>
    obtain ⟨type, access, rfl, _⟩ := Param.spot?_eq_state_iff.mp hspot
    cases access with
    | read => exact hunwritten rfl
    | write =>
      cases other with
      | column place => exact (if_neg (by simp)).symm
      | context => exact (if_neg (by simp)).symm
      | state => rfl

theorem map_fst_writeAmbient_singleton {param : Param} {spot : Spot} {columns : List TypeId}
    (hspot : param.spot? columns (ambient.map Sigma.fst) = some spot) (slot : param.Slot S) :
    (writeAmbient [param] (single slot) ambient).map Sigma.fst = ambient.map Sigma.fst := by
  refine @map_fst_writeAmbient S _ [param] (fun {type access} hmem => ?_) _ _ rfl
  obtain rfl := List.mem_singleton.mp hmem
  by_contra hother
  rw [Param.spot?, if_neg hother] at hspot
  cases hspot

/-- Nothing is written to a spot at which nothing is bound, so the rest of the row is out of
reach. -/
theorem lookup_writes_of_not_mem {signature : Signature} (arguments : Arguments S signature)
    {spots : List Spot} {other : Spot} (hother : other ∉ spots) :
    (writes signature arguments spots).lookup other = none := by
  induction signature generalizing spots with
  | nil => rfl
  | cons param signature ih =>
    obtain ⟨slot, rest⟩ := arguments
    cases spots with
    | nil => rfl
    | cons spot spots =>
      obtain ⟨hne, hlater⟩ := not_or.mp (mt List.mem_cons.mpr hother)
      rw [writes]
      split
      case isTrue =>
        rw [List.lookup_cons, beq_false_of_ne hne]
        exact ih rest hlater
      case isFalse => exact ih rest hlater

/-- After everything that is declared as written has been put back, there is at each spot what was
left in the argument that is bound there, or what was there before. The induction is over the
parameters, with the types of row and state staying as they are. -/
theorem content?_write {signature : Signature} {spots : List Spot}
    (hfound : signature.FoundAt row.types (ambient.map Sigma.fst) spots) (hnodup : spots.Nodup)
    (arguments : Arguments S signature) (view : ContextView) (other : Spot) :
    other.content? (writeRow signature arguments row) (writeAmbient signature arguments ambient)
        view =
      ((writes signature arguments spots).lookup other).or (other.content? row ambient view) := by
  induction signature generalizing row ambient spots with
  | nil => rfl
  | cons param signature ih =>
    obtain ⟨slot, rest⟩ := arguments
    obtain ⟨spot, spots, hspot, hspots, rfl⟩ := List.forall₂_cons_left_iff.mp hfound
    obtain ⟨hfresh, hnodup⟩ := List.nodup_cons.mp hnodup
    -- No write changes a type, so the other parameters find their spots where they found them before.
    have hlater : Signature.FoundAt signature (writeRow [param] (single slot) row).types
        ((writeAmbient [param] (single slot) ambient).map Sigma.fst) spots := by
      rw [types_writeRow, map_fst_writeAmbient_singleton hspot]
      exact hspots
    rw [writeRow_cons, writeAmbient_cons, ih hlater hnodup rest,
      content?_write_singleton hspot slot view other]
    by_cases hwritten : param.isWritten = true
    · by_cases hother : other = spot
      · subst hother
        rw [lookup_writes_of_not_mem rest hfresh, writes, if_pos hwritten, if_pos ⟨hwritten, rfl⟩,
          List.lookup_cons_self, Option.none_or, Option.some_or]
      · rw [writes, if_pos hwritten, if_neg (fun hboth => hother hboth.2), List.lookup_cons,
          beq_false_of_ne hother]
    · rw [writes, if_neg hwritten, if_neg (fun hboth => hwritten hboth.1)]

end Arguments

namespace Engine

/-- An entry point whose signature has passed the check is invoked on a row, unless a component type
that it asks for is in no column or the ambient state is not of the type that it asks for: then
nothing happens. Where it is invoked, every parameter has a spot of its own, a component the column
of exactly its type, and gets what is there. Afterwards there is at each spot what the entry point
left in the argument that it declares as written there, and else what was there before. -/
theorem invoke_binds_distinct (line : Plan.Line) {shape : Shape S σ}
    (hcheck : Signature.check shape.signature = .ok ()) (entity : EntityId) (row : Row S)
    (scene : Scene S σ) :
    let run := invoke line shape entity row scene
    let columns := row.types
    let held := scene.ambient.map Sigma.fst
    let view := scene.context.view
    (run = { state := scene, events := [.invoking line entity, .unbound line entity] } ↔
      shape.signature.Lacks columns held) ∧
    (¬shape.signature.Lacks columns held →
      ∃ (spots : List Spot) (arguments : Arguments S shape.signature),
        shape.signature.FoundAt columns held spots ∧ spots.Nodup ∧
        List.Forall₂ (fun spot argument => spot.content? row scene.ambient view = some argument)
          spots (Arguments.toList shape.signature arguments) ∧
        let outcome := shape.invoke arguments scene.data
        run.invocations = [(line, entity, outcome.verdict)] ∧ run.state.data = outcome.data ∧
        ∃ after : Row S, run.state.store.rows = scene.store.rows.insert entity after ∧
          after.types = columns ∧
          ∀ spot : Spot, spot.content? after run.state.ambient view =
            ((Arguments.writes shape.signature outcome.arguments spots).lookup spot).or
              (spot.content? row scene.ambient view)) := by
  intro run columns held view
  have hbound (hhas : ¬shape.signature.Lacks columns held) :
      ∃ arguments, Arguments.bind? row scene.ambient view shape.signature = some arguments :=
    Option.ne_none_iff_exists'.mp (mt Arguments.bind?_eq_none_iff.mp hhas)
  refine ⟨⟨fun hrun => ?_, fun hlacks => ?_⟩, fun hhas => ?_⟩
  · by_contra hhas
    obtain ⟨arguments, harguments⟩ := hbound hhas
    have hcalls := invocations_invoke_of_bound line entity harguments
    cases (congrArg Run.invocations hrun).symm.trans hcalls
  · exact invoke_of_unbound line entity (Arguments.bind?_eq_none_iff.mpr hlacks)
  · obtain ⟨arguments, harguments⟩ := hbound hhas
    obtain ⟨spots, hspots, hcontents⟩ := Arguments.exists_foundAt harguments
    have hnodup := hspots.nodup (Signature.check_eq_ok_iff.mp hcheck).1
    have hrun : run = _ := invoke_of_bound line entity harguments
    refine ⟨spots, arguments, hspots, hnodup, hcontents,
      invocations_invoke_of_bound line entity harguments, ?_⟩
    rw [hrun]
    exact ⟨rfl, _, rfl, Arguments.types_writeRow .., fun spot =>
      Arguments.content?_write hspots hnodup _ view spot⟩

end Engine

/-- An entry point that asks for both components of one name, and sets the ambient state. -/
def Zoo.setter : Shape Zoo.schema Unit where
  signature :=
    [ .component secondTwin .write, .context, .component { name := secondTwin.name } .read,
      .state { name := "u8" } .write ]
  invoke := fun (second, view, first, _, ()) data =>
    { arguments := (second, view, first, Script.Scalar.u8 8, ()), data, verdict := .settled true }

/-- On a row with both components it runs, and the ambient state is set. A component of the same
name does not stand in for one that is missing. -/
theorem invoke_binds_distinct_twins :
    let line : Plan.Line :=
      { system := 0, shape := 0, name := "zoo::Sys<0>", key := .identity, params := 4
        state? := some { name := "u8" } }
    let scene : Scene Zoo.schema Unit :=
      { store := .empty 0, context := .empty, data := ()
        ambient := some ⟨{ name := "u8" }, .u8 7⟩ }
    let row : Row Zoo.schema :=
      [.initial { name := Zoo.secondTwin.name }, .initial Zoo.secondTwin]
    let run := Engine.invoke line Zoo.setter 0 row scene
    Signature.check Zoo.setter.signature = .ok () ∧
      run.invocations = [(line, 0, .settled true)] ∧
      Spot.state.content? row run.state.ambient scene.context.view =
        some (.state ⟨{ name := "u8" }, .u8 8⟩) ∧
      Engine.invoke line Zoo.setter 0 [.initial Zoo.secondTwin] scene =
        { state := scene, events := [.invoking line 0, .unbound line 0] } := by
  intro line scene row run
  have hcheck : Signature.check Zoo.setter.signature = .ok () := rfl
  obtain ⟨_, hbound⟩ := Engine.invoke_binds_distinct line hcheck 0 row scene
  obtain ⟨spots, arguments, hfound, _, _, hcalls, _, after, _, _, hcontents⟩ := hbound (by decide)
  have hspots : Signature.FoundAt Zoo.setter.signature row.types (scene.ambient.map Sigma.fst)
      [.column 1, .context, .column 0, .state] := by decide
  obtain rfl := List.right_unique_forall₂'
    (fun _ _ _ hspot hother => Option.some.inj (hspot.symm.trans hother)) hfound hspots
  refine ⟨hcheck, hcalls, hcontents .state, ?_⟩
  obtain ⟨hunbound, _⟩ := Engine.invoke_binds_distinct line hcheck 0 [.initial Zoo.secondTwin] scene
  exact hunbound.mpr (by decide)

end EntityWorld
