import CardDuel.Proofs.Calls
import CardDuel.Proofs.WellPlaced

/-!
# Consistency of the containers

After any calls, in any order and whether or not they failed, the containers hold
exactly the entities that record to be there, each at the place that it records, and
hand, field and secrets are within their capacities.
-/

namespace CardDuel

namespace Duel

/-- What entities and containers of a duel say of each other. -/
structure Consistent (duel : Duel) : Prop where
  /-- The entity at an index of a container records that it is there. -/
  recorded : ∀ player, ∀ zone ∈ ZoneKind.containers, ∀ index id,
    (duel.members player zone)[index]? = some id →
      ∃ entity, duel.entity? id = some entity ∧ entity.zone = zone ∧
        entity.position = index ∧ entity.owner = player
  /-- An entity that records to be in a container is at that place of its owner's container. -/
  held : ∀ id entity, duel.entity? id = some entity →
    entity.zone ∈ [.deck, .hand, .graveyard, .secret, .setAside] ∨
      entity.zone = .play ∧ entity.kind = .minion →
    (duel.members entity.owner entity.zone)[entity.position]? = some id
  /-- No entity is in two places. -/
  once : ∀ player other zone kind (index place : Nat) id,
    (duel.members player zone)[index]? = some id → (duel.members other kind)[place]? = some id →
      player = other ∧ zone = kind ∧ index = place
  hand : ∀ player, (duel.hand player).length ≤ duel.settings.handSize
  field : ∀ player, (duel.field player).length ≤ duel.settings.fieldSize
  secrets : ∀ player, (duel.members player .secret).length ≤ duel.settings.secretSize

/-- The container of a zone with a limit holds no more than that. -/
theorem WellPlaced.length_le {duel : Duel} (sound : duel.WellPlaced) (player : Player)
    {zone : ZoneKind} {capacity : Nat}
    (bounded : duel.settings.limits.capacity? zone = some capacity) :
    (duel.members player zone).length ≤ capacity := by
  have container : zone.IsContainer := by
    cases zone with
    | unplaced | removed => cases bounded
    | _ => decide
  obtain ⟨content, found⟩ := duel.zones.exists_get? player container
  obtain ⟨capacities, fits⟩ := sound.within player zone content found
  have members : duel.members player zone = content.members := members_eq_of_get? found
  rw [members]
  exact fits capacity (capacities.trans bounded)

theorem WellPlaced.consistent {duel : Duel} (sound : duel.WellPlaced) : duel.Consistent where
  recorded player zone _ index id held := by
    obtain ⟨seat, known, -, owner, inZone, position⟩ :=
      (sound.placed.getElem?_iff player zone index id).mp held
    obtain ⟨entity, knownEntity, rfl⟩ := Option.map_eq_some_iff.mp known
    exact ⟨entity, knownEntity, inZone, position, owner⟩
  held id entity known place := by
    refine (sound.placed.getElem?_iff entity.owner entity.zone entity.position id).mpr
      ⟨entity.seat, seat?_of_entity? known, ?_, rfl, rfl, rfl⟩
    rcases place with listed | ⟨inPlay, minion⟩
    · have container : entity.zone.IsContainer ∧ entity.zone ≠ .play := by
        revert listed
        cases entity.zone <;> decide
      exact ⟨container.1, fun inPlay => absurd inPlay container.2⟩
    · have container : entity.zone.IsContainer := by
        rw [inPlay]
        decide
      exact ⟨container, fun _ => minion⟩
  once player other zone kind index place id here there := by
    obtain ⟨seat, known, -, rfl, rfl, rfl⟩ :=
      (sound.placed.getElem?_iff player zone index id).mp here
    obtain ⟨same, knownSame, -, rfl, rfl, rfl⟩ :=
      (sound.placed.getElem?_iff other kind place id).mp there
    rw [known] at knownSame
    cases knownSame
    exact ⟨rfl, rfl, rfl⟩
  hand player := sound.length_le player rfl
  field player := sound.length_le player rfl
  secrets player := sound.length_le player rfl

/-- Whatever is asked of a duel that was set up, it stays consistent. -/
theorem consistent_afterCalls {settings : Settings} {catalogue : Catalogue} {duel : Duel}
    (created : Duel.create settings catalogue = .ok duel) (allowance : Nat) (calls : List Call) :
    (duel.afterCalls allowance calls).Consistent := by
  have reaches := duel.reaches_afterCalls allowance calls
  exact (Change.wellPlaced_of_reaches reaches (created_wellPlaced created)).consistent

/-- Two mages with a minion each, through a turn that ends and a call that fails. -/
theorem consistent_afterCalls_mages :
    ∃ duel, Duel.create Settings.mages Catalogue.mages = .ok duel ∧
      (duel.afterCalls 100 [.start, .take .zero .endTurn, .start]).Consistent := by
  obtain ⟨duel, created⟩ := create_mages
  exact ⟨duel, created, consistent_afterCalls created 100 _⟩

end Duel

end CardDuel
