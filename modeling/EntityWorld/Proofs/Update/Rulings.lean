import EntityWorld.Proofs.EntitySet
import EntityWorld.Proofs.Update.Agreement
import Mathlib.Data.List.Induction

namespace EntityWorld

/-- A verdict that an entity is active, or that it is not. An entity is on the side of its latest
ruling. -/
abbrev Ruling := EntityId × Bool

/-- What an invocation rules, unless it fails or panics. -/
def Invocation.ruling? : Invocation → Option Ruling
  | (_, entity, .settled isActive) => some (entity, isActive)
  | _ => none

/-- The rulings of a run in their order. -/
def Run.rulings {S : Schema} {τ : Type} (run : Run S τ) : List Ruling :=
  run.invocations.filterMap Invocation.ruling?

namespace Ruling

/-- The latest ruling on an entity. -/
def latest? (rulings : List Ruling) (entity : EntityId) : Option Bool :=
  rulings.reverse.lookup entity

section

variable (held : List EntityId) (side : Bool)

/-- After some rulings an entity is on a side, where `held` were on it before them: its latest
ruling says so, or there is none and it is where it was. -/
def OnSide (rulings : List Ruling) (entity : EntityId) : Prop :=
  latest? rulings entity = some side ∨ latest? rulings entity = none ∧ entity ∈ held

/-- The ruling at a place brings an entity to a side that it is not on at that moment. -/
def Enters (rulings : List Ruling) (entity : EntityId) (place : Nat) : Prop :=
  rulings[place]? = some (entity, side) ∧ ¬OnSide held side (rulings.take place) entity

/-- The one entity last came to a side before the other did. Those that have been on it all the time
came first, in the order in which they are held. -/
def CameBefore (rulings : List Ruling) (entity other : EntityId) : Prop :=
  (∃ place, Enters held side rulings other place ∧
    ∀ earlier, Enters held side rulings entity earlier → earlier < place) ∨
  (∀ place, ¬Enters held side rulings entity place ∧ ¬Enters held side rulings other place) ∧
    [entity, other].Sublist held

end

/-- The members of a side after a ruling. A newcomer goes to the end, a member that is told the same
again keeps its place. -/
def heed (side : Bool) (members : List EntityId) (ruling : Ruling) : List EntityId :=
  if ruling.2 = side then
    if ruling.1 ∈ members then members else members ++ [ruling.1]
  else
    members.erase ruling.1

/-- The members of a side after some rulings. -/
def heedAll (side : Bool) (held : List EntityId) (rulings : List Ruling) : List EntityId :=
  rulings.foldl (heed side) held

variable {held : List EntityId} {side : Bool} {rulings : List Ruling} {ruling : Ruling}
  {entity other : EntityId}

theorem latest?_concat :
    latest? (rulings ++ [ruling]) entity =
      if entity = ruling.1 then some ruling.2 else latest? rulings entity := by
  rw [latest?, List.reverse_append, List.reverse_singleton, List.singleton_append,
    List.lookup_cons]
  by_cases heq : entity = ruling.1
  · simp [heq]
  · simp [heq, beq_eq_false_iff_ne.mpr heq, latest?]

/-- One more ruling decides for its entity and leaves all others where they are. -/
theorem onSide_concat :
    OnSide held side (rulings ++ [ruling]) entity ↔
      if entity = ruling.1 then ruling.2 = side else OnSide held side rulings entity := by
  rw [OnSide, latest?_concat]
  split <;> simp [OnSide]

/-- One more ruling brings its entity to a side if it says so and the entity was not there. -/
theorem enters_concat {place : Nat} :
    Enters held side (rulings ++ [ruling]) entity place ↔
      Enters held side rulings entity place ∨
      place = rulings.length ∧ ruling = (entity, side) ∧ ¬OnSide held side rulings entity := by
  unfold Enters
  rcases Nat.lt_trichotomy place rulings.length with hlt | rfl | hgt
  · rw [List.getElem?_append_left hlt, List.take_append_of_le_length (Nat.le_of_lt hlt)]
    simp [Nat.ne_of_lt hlt]
  · simp
  · have hpast : (rulings ++ [ruling])[place]? = none := by
      rw [List.getElem?_eq_none_iff, List.length_append, List.length_singleton]
      omega
    have hnone : rulings[place]? = none := List.getElem?_eq_none_iff.mpr (Nat.le_of_lt hgt)
    simp [hpast, hnone, Nat.ne_of_gt hgt]

/-- A ruling that brings neither of two entities to a side leaves open which of them came first. -/
theorem CameBefore.concat (hbefore : CameBefore held side rulings entity other)
    (hentity : ruling = (entity, side) → OnSide held side rulings entity)
    (hother : ruling = (other, side) → OnSide held side rulings other) :
    CameBefore held side (rulings ++ [ruling]) entity other := by
  have hsame {member : EntityId} (hmember : ruling = (member, side) →
      OnSide held side rulings member) (place : Nat) :
      Enters held side (rulings ++ [ruling]) member place ↔
        Enters held side rulings member place := by
    rw [enters_concat, or_iff_left]
    rintro ⟨_, heq, hnot⟩
    exact hnot (hmember heq)
  simpa only [CameBefore, hsame hentity, hsame hother] using hbefore

@[simp] theorem heedAll_nil : heedAll side held [] = held := rfl

theorem heedAll_append (past future : List Ruling) :
    heedAll side held (past ++ future) = heedAll side (heedAll side held past) future :=
  List.foldl_append

theorem heedAll_concat :
    heedAll side held (rulings ++ [ruling]) = heed side (heedAll side held rulings) ruling := by
  simp [heedAll]

/-- Nobody stands on a side twice: a newcomer was not there, and a member keeps its one place. -/
theorem nodup_heed {members : List EntityId} (hmembers : members.Nodup) :
    (heed side members ruling).Nodup := by
  unfold heed
  split
  · split
    · exact hmembers
    case isFalse hnew => exact List.nodup_append.mpr ⟨hmembers, by simp, by grind⟩
  · exact hmembers.erase ruling.1

theorem mem_heed_iff {members : List EntityId} (hmembers : members.Nodup) :
    entity ∈ heed side members ruling ↔
      if entity = ruling.1 then ruling.2 = side else entity ∈ members := by
  unfold heed
  split
  case isTrue hside =>
    by_cases hmem : ruling.1 ∈ members <;> by_cases heq : entity = ruling.1 <;> simp_all
  case isFalse hside =>
    by_cases heq : entity = ruling.1
    · subst heq
      simp [hside, hmembers.not_mem_erase]
    · simp [heq, List.mem_erase_of_ne heq]

/-- Nobody stands on a side twice, whatever was ruled. -/
theorem nodup_heedAll (hheld : held.Nodup) : (heedAll side held rulings).Nodup := by
  induction rulings using List.reverseRecOn with
  | nil => exact hheld
  | append_singleton rulings ruling ih =>
    rw [heedAll_concat]
    exact nodup_heed ih

/-- An entity is a member of the side of its latest ruling, or of the one that it was on before. The
induction adds one ruling at the end. -/
theorem mem_heedAll_iff (hheld : held.Nodup) :
    entity ∈ heedAll side held rulings ↔ OnSide held side rulings entity := by
  induction rulings using List.reverseRecOn with
  | nil => simp [OnSide, latest?]
  | append_singleton rulings ruling ih =>
    rw [heedAll_concat, mem_heed_iff (nodup_heedAll hheld), onSide_concat, ih]

/-- The members of a side stand in the order in which they came to it last. The induction adds one
ruling at the end, which brings at most its own entity to the end of a side. -/
theorem pairwise_heedAll (hheld : held.Nodup) :
    (heedAll side held rulings).Pairwise (CameBefore held side rulings) := by
  induction rulings using List.reverseRecOn with
  | nil =>
    rw [heedAll_nil, List.pairwise_iff_forall_sublist]
    intro entity other hsub
    exact .inr ⟨fun place => by simp [Enters], hsub⟩
  | append_singleton rulings ruling ih =>
    have hon {member : EntityId} (hmember : member ∈ heedAll side held rulings) :
        OnSide held side rulings member := (mem_heedAll_iff hheld).mp hmember
    rw [heedAll_concat, heed]
    split
    case isFalse hside =>
      refine (ih.sublist List.erase_sublist).imp fun hbefore => hbefore.concat ?_ ?_ <;>
      · rintro rfl
        exact absurd rfl hside
    case isTrue hside =>
      have hstay : (heedAll side held rulings).Pairwise
          (CameBefore held side (rulings ++ [ruling])) :=
        ih.imp_of_mem fun hentity hother hbefore =>
          hbefore.concat (fun _ => hon hentity) fun _ => hon hother
      split
      case isTrue => exact hstay
      case isFalse hnew =>
        rw [List.pairwise_append]
        refine ⟨hstay, List.pairwise_singleton _ _, fun entity hentity other hother => ?_⟩
        obtain rfl := List.mem_singleton.mp hother
        have harrives : Enters held side (rulings ++ [ruling]) ruling.1 rulings.length :=
          enters_concat.mpr (.inr ⟨rfl, by rw [← hside], mt (mem_heedAll_iff hheld).mpr hnew⟩)
        refine .inl ⟨rulings.length, harrives, fun earlier henters => ?_⟩
        rcases enters_concat.mp henters with hbefore | ⟨_, heq, hnot⟩
        · exact (List.getElem?_eq_some_iff.mp hbefore.1).1
        · exact absurd (hon hentity) hnot

/-- A ruling on one entity leaves all others where they are. -/
theorem filter_heed {members : List EntityId} (hmembers : members.Nodup) {keep : EntityId → Bool}
    (hkeep : keep ruling.1 = false) :
    (heed side members ruling).filter keep = members.filter keep := by
  unfold heed
  split
  · split
    · rfl
    · simp [hkeep]
  · rw [hmembers.erase_eq_filter, List.filter_filter]
    refine List.filter_congr fun entity _ => ?_
    by_cases heq : entity = ruling.1 <;> simp [heq, hkeep]

/-- Those on whom there is no ruling stay as they are, and in their order. Others may come behind
them or leave from between them. -/
theorem filter_heedAll (hheld : held.Nodup) :
    (heedAll side held rulings).filter (fun entity => latest? rulings entity = none) =
      held.filter (fun entity => latest? rulings entity = none) := by
  induction rulings using List.reverseRecOn with
  | nil => rfl
  | append_singleton rulings ruling ih =>
    have hsplit (members : List EntityId) :
        members.filter (fun entity => latest? (rulings ++ [ruling]) entity = none) =
          (members.filter fun entity => latest? rulings entity = none).filter
            (· ≠ ruling.1) := by
      rw [List.filter_filter]
      refine List.filter_congr fun entity _ => ?_
      rw [latest?_concat]
      split <;> simp [*]
    rw [heedAll_concat, filter_heed (nodup_heedAll hheld) (by simp [latest?_concat]), hsplit, ih,
      ← hsplit]

end Ruling

end EntityWorld
