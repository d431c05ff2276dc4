import EntityWorld.Proofs.Update.Scan
import EntityWorld.Proofs.World.Reached

namespace EntityWorld

variable {S : Schema} {σ : Type}

namespace Store

/-- No components of an entity cancel out: the key of every part of its row differs from that of no
names at all. Only hashes that collide, or types that share a name, can break this. -/
def Free (store : Store S) : Prop :=
  ∀ ⦃entity : EntityId⦄ ⦃row : Row S⦄, store.rows[entity]? = some row →
    ∀ part : Row S, part.Sublist row → part ≠ [] →
      store.keyOf (part.map Component.name) ≠ Key.identity

/-- Where no components cancel out, an entity makes up a key in one way at most. -/
theorem Free.multiplicity_le_one {store : Store S} (hfree : store.Free) (entity : EntityId)
    (key : Key) : store.multiplicity entity key ≤ 1 := by
  cases hrow : store.rows[entity]? with
  | none => simp [multiplicity, hrow]
  | some row =>
    rw [multiplicity_of_some key hrow]
    exact Row.multiplicity_le_one (hfree hrow) key

/-- An entity with all components asked for is listed under the key of the line, whether or not
components cancel out. -/
theorem multiplicity_pos_of_owned {store : Store S} {line : Plan.Line} {shape : Shape S σ}
    (hshape : shape.signature.Acceptable) (hline : line.Describes shape store.seed)
    (hne : shape.signature.types ≠ []) {entity : EntityId} {row : Row S}
    (hrow : store.rows[entity]? = some row) (howned : shape.Owned row) :
    0 < store.multiplicity entity line.key := by
  rw [multiplicity_of_some line.key hrow, hline.key]
  exact Row.multiplicity_pos_of_types hshape.nodup hne
    (fun type htype => Row.contains_iff.mp (howned type htype)) store.seed

/-- Where no components cancel out, a line that some entity has all components for has a key. So the
lines that a pass leaves out have nobody to run on. -/
theorem Free.not_isIdentity {store : Store S} (hfree : store.Free) {line : Plan.Line}
    {shape : Shape S σ} (hshape : shape.signature.Acceptable)
    (hline : line.Describes shape store.seed) (hne : shape.signature.types ≠ [])
    {entity : EntityId} {row : Row S} (hrow : store.rows[entity]? = some row)
    (howned : shape.Owned row) : ¬line.key.isIdentity = true := by
  have hpos := multiplicity_pos_of_owned hshape hline hne hrow howned
  rw [multiplicity_of_some line.key hrow] at hpos
  obtain ⟨part, hpart, hpartNe, hkey⟩ := Row.multiplicity_pos_iff.mp hpos
  rw [Key.isIdentity_iff, ← hkey]
  exact hfree hrow part hpart hpartNe

end Store

namespace Scan

theorem sameFrame_runLine (systems : List (System S σ)) (inactive : InactiveHandling)
    (roster : Plan.Line → List EntityId) (line : Plan.Line) (scene : Scene S σ) :
    scene.SameFrame (runLine systems inactive roster line scene).state := by
  unfold runLine
  split
  · exact .refl scene
  case h_2 shape _ =>
    split
    · exact Run.forEach_induction scene.SameFrame
        (fun entity state hsame => hsame.trans (sameFrame_visit line shape inactive entity state))
        (roster line) (.refl scene)
    · exact .refl scene

/-- Where no components cancel out, the lists under the keys hold each entity that a line can run on
once, and otherwise only entities that it passes over. -/
theorem forEach_visit_listed {store : Store S} {order : List EntityId} (hfree : store.Free)
    {line : Plan.Line} {shape : Shape S σ}
    (hshape : shape.signature.Acceptable) (hline : line.Describes shape store.seed)
    (hne : shape.signature.types ≠ []) (inactive : InactiveHandling) {scene : Scene S σ}
    (hscene : store.SameLayout scene.store) :
    Run.forEach (visit line shape inactive) (listed store order line) scene =
      Run.forEach (visit line shape inactive) order scene := by
  let expand (entity : EntityId) : List EntityId :=
    if line.key.isIdentity then []
    else List.replicate (store.multiplicity entity line.key) entity
  have hlisted : listed store order line = order.flatMap expand := by
    unfold listed
    by_cases hkey : line.key.isIdentity = true
    · simp [expand, hkey]
    · simp [expand, hkey, Store.listing]
  have hidle {entity : EntityId}
      (hlacks : ∀ row, store.rows[entity]? = some row → ¬shape.Owned row) (state : Scene S σ)
      (hstate : store.SameLayout state.store) :
      visit line shape inactive entity state = { state := state } := by
    refine visit_of_not_owned fun row hrow howned => ?_
    obtain ⟨old, hold, hbefore⟩ := Shape.Owned.of_sameLayout hstate ⟨row, hrow, howned⟩
    exact hlacks old hold hbefore
  rw [hlisted]
  refine Run.forEach_flatMap_of_idle (fun state : Scene S σ => store.SameLayout state.store)
    (fun entity state hsame => hsame.trans (sameFrame_visit line shape inactive entity state).layout)
    (fun entity _ => ?_) hscene
  by_cases hkey : line.key.isIdentity = true
  · refine .inr ⟨if_pos hkey, hidle fun row hrow howned => ?_⟩
    exact hfree.not_isIdentity hshape hline hne hrow howned hkey
  · have hexpand : expand entity = List.replicate (store.multiplicity entity line.key) entity :=
      if_neg hkey
    have hle := hfree.multiplicity_le_one entity line.key
    by_cases hzero : store.multiplicity entity line.key = 0
    · refine .inr ⟨by rw [hexpand, hzero]; rfl, hidle fun row hrow howned => ?_⟩
      have hpos := Store.multiplicity_pos_of_owned hshape hline hne hrow howned
      omega
    · have hone : store.multiplicity entity line.key = 1 := by omega
      exact .inl (by rw [hexpand, hone]; rfl)

/-- Where no components cancel out, a scan of the lists under the keys is a scan of all entities:
the lists leave out only those that a line passes over, and repeat nobody. -/
theorem agrees_pass_order {systems : List (System S σ)} {plan : Plan} {store : Store S}
    {order : List EntityId} (hfree : store.Free)
    (hchecked : ∀ system ∈ systems, system.check = .ok ())
    (hplan : Plan.build systems store.seed = .ok plan) (inactive : InactiveHandling)
    {scene : Scene S σ} (hscene : store.SameLayout scene.store) :
    (pass systems plan inactive (listed store order) scene).Agrees
      (pass systems plan inactive (fun _ => order) scene) := by
  refine Run.agrees_forEach (fun state : Scene S σ => store.SameLayout state.store)
    (fun line state hsame =>
      hsame.trans (sameFrame_runLine systems inactive (listed store order) line state).layout)
    (fun line hline state hsame => ?_) hscene
  obtain ⟨shape, hshape, hacceptable, hdescribes⟩ :=
    Plan.exists_shape_of_mem_build hchecked hplan hline
  rw [runLine_eq hshape, runLine_eq hshape]
  split
  case isTrue hask =>
    rw [forEach_visit_listed hfree hacceptable hdescribes hask.1 inactive hsame]
    exact .refl _
  case isFalse => exact .refl _

end Scan

/-- Whatever systems do, and whatever the context and the ambient state are, a pass of a world does
what a scan does that goes through the entities in the order of placement, each as often as its
components make up the key of the line, and through none for a line whose key is that of no names.
Every entity with all components asked for makes up the key at least once, and no other is run on.
Where no components cancel out, each entity is gone through just once for every line, and whole
updates do what updates by such scans do. -/
theorem pass_agrees_scan {world : World S σ} {order : List EntityId}
    (hreached : world.Reached order) (inactive : InactiveHandling) :
    (order.Nodup ∧ ∀ entity, entity ∈ order ↔ world.store.contains entity = true) ∧
    (∀ line ∈ world.plan, ∃ shape, line.shape? world.systems = some shape ∧
      (shape.signature.types ≠ [] →
        ∀ (entity : EntityId) (row : Row S), world.store.rows[entity]? = some row →
          shape.Owned row → 0 < world.store.multiplicity entity line.key) ∧
      ∀ (entity : EntityId) (row : Row S) (scene : Scene S σ), shape.Owned row →
        shape.signature.stateType?.all (scene.ambientType? == some ·) = true →
        ∃ verdict, (Engine.invoke line shape entity row scene).invocations =
          [(line, entity, verdict)]) ∧
    ∀ scene : Scene S σ, world.store.SameLayout scene.store →
      (Engine.pass world.systems world.plan inactive scene).Agrees
        (Scan.pass world.systems world.plan inactive (Scan.listed world.store order) scene) ∧
      (∀ call ∈ (Engine.pass world.systems world.plan inactive scene).invocations,
        Invocation.OnOwner world.systems world.plan world.store call) ∧
      (world.store.Free →
        (Engine.pass world.systems world.plan inactive scene).Agrees
          (Scan.pass world.systems world.plan inactive (fun _ => order) scene) ∧
        ∀ (limit : Nat) (strategy : Strategy),
          (Engine.update world.systems world.plan limit strategy inactive scene).Agrees
            (Engine.updateBy (Scan.pass world.systems world.plan inactive fun _ => order)
              limit strategy inactive scene)) := by
  obtain ⟨-, hindexed, hplan, hchecked⟩ := hreached.consistent
  have hlisted {scene : Scene S σ} (hscene : world.store.SameLayout scene.store) :=
    Engine.agrees_pass hindexed hchecked hplan inactive hscene
  have hall {scene : Scene S σ} (hfree : world.store.Free)
      (hscene : world.store.SameLayout scene.store) :=
    (hlisted hscene).trans (Scan.agrees_pass_order hfree hchecked hplan inactive hscene)
  refine ⟨⟨hindexed.nodup, fun entity => ?_⟩, fun line hline => ?_, fun scene hscene =>
    ⟨hlisted hscene, fun call hcall => ?_, fun hfree => ⟨hall hfree hscene, ?_⟩⟩⟩
  · rw [hindexed.mem_iff]
    exact Std.ExtTreeMap.mem_iff_contains
  · obtain ⟨shape, hshape, hacceptable, hdescribes⟩ :=
      Plan.exists_shape_of_mem_build hchecked hplan hline
    exact ⟨shape, hshape,
      fun hne _ _ hrow howned =>
        Store.multiplicity_pos_of_owned hacceptable hdescribes hne hrow howned,
      fun entity _ _ howned hambient =>
        Engine.exists_invocations_invoke line hacceptable entity howned hambient⟩
  · obtain ⟨hline, shape, hshape, hrow⟩ := Engine.onOwner_of_mem_invocations_pass call hcall
    exact ⟨hline, shape, hshape, Shape.Owned.of_sameLayout hscene hrow⟩
  · intro limit strategy
    exact Engine.agrees_updateBy (fun _ hlater => hall hfree hlater)
      (fun later => (Engine.sameFrame_pass world.systems world.plan inactive later).layout) limit
      strategy inactive hscene

/-- That no components cancel out can be seen entry by entry, and so it can be decided for a given
store. -/
theorem Store.free_of_toList {store : Store S}
    (hfree : ∀ entry ∈ store.rows.toList, ∀ part ∈ entry.2.types.sublists,
      part.isEmpty = false → store.keyOf (part.map TypeId.name) ≠ Key.identity) : store.Free := by
  intro entity row hrow part hpart hne
  have hentry := Std.ExtTreeMap.mem_toList_iff_getElem?_eq_some.mpr hrow
  have hnames : part.map Component.name = (part.map Component.type).map TypeId.name := by
    rw [List.map_map]
    rfl
  rw [hnames]
  exact hfree (entity, row) hentry _ (List.mem_sublists.mpr (hpart.map Component.type))
    (by simpa using hne)

namespace Zoo

/-- A system with two entry points, one for two components and one for a component and a number. -/
def grazer : System Zoo.schema Unit where
  id := Zoo.system 0
  shapes :=
    [ { signature := [.component { name := "zoo::Health" } .write, .component plain.type .read]
        invoke := fun arguments data => { arguments, data, verdict := .settled true } },
      { signature := [.state { name := "u8" } .write, .component { name := "zoo::Health" } .read]
        invoke := fun arguments data => { arguments, data, verdict := .settled true } } ]

/-- Three entities of two kinds, and that system. -/
def pasture : World Zoo.schema Unit where
  systems := [grazer]
  plan := Plan.linesOf grazer 0 0
  store := Store.Call.runAll
    [ .create [plain, .initial { name := "zoo::Health" }],
      .create [.initial { name := "zoo::Health" }],
      .create [.initial { name := "zoo::Health" }, plain] ] {}
  config := {}
  data := ()

/-- The first entity is set back, which moves it behind the others. -/
def herd : World Zoo.schema Unit :=
  (World.Call.restore (Std.ExtTreeMap.empty.insert 0
    ((Std.ExtTreeMap.empty.insert "zoo::A" ∅).insert "zoo::Health" ∅))).run pasture

theorem reached_pasture : pasture.Reached [0, 1, 2] := by
  have hbuilder : Builder.Reached (S := Zoo.schema) _ _ :=
    .call (.addSystem grazer) <|
    .call (.create [.initial { name := "zoo::Health" }, plain]) <|
    .call (.create [.initial { name := "zoo::Health" }]) <|
    .call (.create [plain, .initial { name := "zoo::Health" }]) <| .start ()
  exact .built hbuilder rfl

/-- Setting the first entity back leads to this one, with another order of placement. -/
theorem reached_herd : herd.Reached [1, 2, 0] := by
  let snapshot : Snapshot := Std.ExtTreeMap.empty.insert 0
    ((Std.ExtTreeMap.empty.insert "zoo::A" ∅).insert "zoo::Health" ∅)
  have horder : (Store.Call.restore snapshot).reorder pasture.store [0, 1, 2] = [1, 2, 0] := by
    decide +kernel
  rw [← horder]
  exact .call (.restore snapshot) reached_pasture

end Zoo

/-- In that world nothing cancels out. In a pass for a number that passes inactive entities by, the
line for two components runs on the one of its two entities that is not inactive, and the line for
the number on all that are not, in the order of placement. -/
theorem pass_agrees_scan_herd :
    let scene : Scene Zoo.schema Unit :=
      { store := Zoo.herd.store, context := Context.empty.settle 2 false, data := ()
        ambient := some ⟨{ name := "u8" }, .u8 7⟩ }
    let run := Engine.pass Zoo.herd.systems Zoo.herd.plan .passBy scene
    Zoo.herd.Reached [1, 2, 0] ∧ Zoo.herd.store.Free ∧
      run.Agrees (Scan.pass Zoo.herd.systems Zoo.herd.plan .passBy (fun _ => [1, 2, 0]) scene) ∧
      run.invocations.map (fun call => (call.1.shape, call.2.1)) = [(0, 0), (1, 1), (1, 0)] := by
  intro scene run
  have hfree : Zoo.herd.store.Free := Store.free_of_toList (by decide +kernel)
  obtain ⟨_, _, hpasses⟩ := pass_agrees_scan Zoo.reached_herd .passBy
  obtain ⟨_, _, hall⟩ := hpasses scene (.refl _)
  exact ⟨Zoo.reached_herd, hfree, (hall hfree).1, by decide +kernel⟩

end EntityWorld
