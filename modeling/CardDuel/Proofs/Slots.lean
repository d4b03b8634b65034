import CardDuel.Proofs.Arrivals

/-!
# Agreement of the slots

Heroes, hero powers and weapons in play stand in slots instead of a container.  A move
into play overwrites the slot, whoever was in it, and a hero or hero power that leaves
play stays named by its slot.  So slots and entities agree exactly when the last of each
kind to come into play is still there and all before it are gone.
-/

namespace CardDuel

open Relation

namespace EntityKind

/-- Whether the slot of a kind always has to be filled. -/
def IsVital (kind : EntityKind) : Prop :=
  kind = .hero ∨ kind = .heroPower

/-- Whether entities of a kind stand in a slot of play. -/
def IsSlotted (kind : EntityKind) : Prop :=
  kind.IsVital ∨ kind = .weapon

end EntityKind

/-- When a log leaves slots and entities in agreement. -/
structure ArrivalLog.Orderly (log : ArrivalLog) : Prop where
  /-- The last hero and the last hero power that came into play under a player are still there. -/
  filled : ∀ player kind, kind.IsVital →
    ∃ id, log.entrant? player kind = some id ∧ log.Stays id player kind
  /-- Every hero, hero power and weapon that came into play before the last one has moved away. -/
  gone : ∀ player kind id, kind.IsSlotted → log.Stays id player kind →
    log.entrant? player kind = some id

namespace Duel

/-- The entity in the slot of a kind. -/
def slot? (duel : Duel) (player : Player) (kind : EntityKind) : Option EntityId :=
  (duel.player player).slots.holder? kind

/-- What slots and entities of a duel say of each other. -/
structure SlotsAgree (duel : Duel) : Prop where
  /-- A slot names an entity of its kind that its player owns and that is in play. -/
  named : ∀ player kind id, duel.slot? player kind = some id →
    ∃ entity, duel.entity? id = some entity ∧ entity.kind = kind ∧ entity.owner = player ∧
      entity.zone = .play
  /-- A hero, hero power or weapon in play is in its owner's slot. -/
  held : ∀ id entity, duel.entity? id = some entity → entity.kind.IsSlotted →
    entity.zone = .play → duel.slot? entity.owner entity.kind = some id

variable {duel : Duel} {log : ArrivalLog} {player : Player} {kind : EntityKind} {id : EntityId}

theorem exists_slot? (duel : Duel) (player : Player) (vital : kind.IsVital) :
    ∃ id, duel.slot? player kind = some id := by
  rcases vital with rfl | rfl <;> exact ⟨_, rfl⟩

theorem isSlotted_of_slot? (named : duel.slot? player kind = some id) : kind.IsSlotted := by
  cases kind with
  | hero => exact .inl (.inl rfl)
  | heroPower => exact .inl (.inr rfl)
  | weapon => exact .inr rfl
  | minion => cases named
  | spell => cases named

/-- Agreement in terms of posts. -/
theorem slotsAgree_iff_posts : duel.SlotsAgree ↔
    (∀ player kind id, duel.slot? player kind = some id →
      duel.table.post? id = some ⟨player, kind, .play⟩) ∧
    ∀ player kind id, kind.IsSlotted → duel.table.post? id = some ⟨player, kind, .play⟩ →
      duel.slot? player kind = some id := by
  constructor
  · intro agree
    constructor
    · intro player kind id named
      obtain ⟨entity, known, rfl, rfl, inPlay⟩ := agree.named player kind id named
      rw [post?_of_entity? known, inPlay]
    · intro player kind id slotted posted
      obtain ⟨entity, known, rfl, rfl, inPlay⟩ := exists_of_post? posted
      exact agree.held id entity known slotted inPlay
  · rintro ⟨named, held⟩
    constructor
    · intro player kind id slot
      obtain ⟨entity, known, owner, sort, inPlay⟩ := exists_of_post? (named player kind id slot)
      exact ⟨entity, known, sort, owner, inPlay⟩
    · intro id entity known slotted inPlay
      apply held entity.owner entity.kind id slotted
      rw [post?_of_entity? known, inPlay]

/-- Slots and entities agree exactly when the log is orderly. -/
theorem LoggedBy.slotsAgree_iff (logged : duel.LoggedBy log) :
    duel.SlotsAgree ↔ log.Orderly := by
  rw [slotsAgree_iff_posts]
  have stays (player : Player) (kind : EntityKind) (id : EntityId) :
      duel.table.post? id = some ⟨player, kind, .play⟩ ↔ log.Stays id player kind := by
    rw [logged.posts]
    rfl
  simp only [stays]
  constructor
  · rintro ⟨named, held⟩
    have gone (player : Player) (kind : EntityKind) (id : EntityId) (slotted : kind.IsSlotted)
        (there : log.Stays id player kind) : log.entrant? player kind = some id := by
      obtain ⟨entrant, last⟩ := there.entrant?_isSome
      have slot := held player kind id slotted there
      rcases slotted with vital | rfl
      · have same := logged.held player kind entrant vital last
        rw [last, ← same]
        exact slot
      · exact ((logged.armed player id).mp slot).1
    refine ⟨fun player kind vital => ?_, gone⟩
    obtain ⟨id, slot⟩ := duel.exists_slot? player vital
    have there := named player kind id slot
    exact ⟨id, gone player kind id (.inl vital) there, there⟩
  · intro orderly
    constructor
    · intro player kind id slot
      rcases isSlotted_of_slot? slot with vital | rfl
      · obtain ⟨last, entered, there⟩ := orderly.filled player kind vital
        have same := logged.held player kind last vital entered
        cases slot.symm.trans same
        exact there
      · exact ((logged.armed player id).mp slot).2
    · intro player kind id slotted there
      have last := orderly.gone player kind id slotted there
      rcases slotted with vital | rfl
      · exact logged.held player kind id vital last
      · exact (logged.armed player id).mpr ⟨last, there⟩

/-- After any calls slots and entities agree exactly when the arrivals since the table was bare
are orderly. -/
theorem slotsAgree_iff_orderly {settings : Settings} {catalogue : Catalogue}
    (created : Duel.create settings catalogue = .ok duel) (allowance : Nat) (calls : List Call) :
    ∃ bare, Duel.bare settings catalogue = .ok bare ∧
      (∃ log, Trail bare log (duel.afterCalls allowance calls)) ∧
        ∀ log, Trail bare log (duel.afterCalls allowance calls) →
          ((duel.afterCalls allowance calls).SlotsAgree ↔ log.Orderly) := by
  obtain ⟨bare, begun, quiets⟩ := create_quiet created
  have reaches : ReflTransGen Change bare (duel.afterCalls allowance calls) :=
    (Shift.changes (Quiet.shifts quiets)).trans (reaches_afterCalls duel allowance calls)
  refine ⟨bare, begun, exists_trail reaches (bare_wellPlaced begun), fun log trail => ?_⟩
  exact (trail.loggedBy (bare_loggedBy begun)).slotsAgree_iff

/-- Two mages with a minion each, through a turn that ends. -/
theorem slotsAgree_iff_orderly_mages :
    ∃ duel bare, Duel.create Settings.mages Catalogue.mages = .ok duel ∧
      Duel.bare Settings.mages Catalogue.mages = .ok bare ∧
        (∃ log, Trail bare log (duel.afterCalls 100 [.start, .take .zero .endTurn])) ∧
          ∀ log, Trail bare log (duel.afterCalls 100 [.start, .take .zero .endTurn]) →
            ((duel.afterCalls 100 [.start, .take .zero .endTurn]).SlotsAgree ↔ log.Orderly) := by
  obtain ⟨duel, created⟩ := create_mages
  obtain ⟨bare, begun, logged, agreement⟩ :=
    slotsAgree_iff_orderly created 100 [.start, .take .zero .endTurn]
  exact ⟨duel, bare, created, begun, logged, agreement⟩

end Duel

/-- A mage whose hero power puts two axes into play, and the axe. -/
def Catalogue.smiths : Catalogue :=
  .ofEntries
    [⟨Card.hero ⟨1⟩ "HERO" "" .mage 30 "POWER", Behaviour.none⟩,
      ⟨Card.power ⟨2⟩ "POWER" "" 0,
        { Behaviour.none with effects := [.addCards "AXE" .play 2 false] }⟩,
      ⟨Card.weapon ⟨3⟩ "AXE" "" 1 1 2, Behaviour.none⟩]
    [(.mage, ⟨1⟩)] (by decide) (by decide)

/-- The second axe takes the slot of the first one, which stays in play. -/
theorem Duel.not_slotsAgree_smiths :
    (∀ card ∈ Catalogue.smiths.cards, card.cardType = .hero →
      ((card.heroPower.bind Catalogue.smiths.cardByCode?).map Card.cardType) = some .heroPower) ∧
    ∃ duel after, Duel.create Settings.standard Catalogue.smiths = .ok duel ∧
      duel.Runs 100 [.start, .take .zero (.heroPower none)] after ∧ ¬ after.SlotsAgree := by
  refine ⟨by decide, ?_⟩
  obtain ⟨duel, after, created, runs, comes⟩ :=
    exists_of_outcome Settings.standard Catalogue.smiths 100
      [.start, .take .zero (.heroPower none)]
      (fun after => decide (after.table.post? ⟨6⟩ = some ⟨.zero, .weapon, .play⟩ ∧
        after.slot? .zero .weapon = some ⟨7⟩)) (by decide +kernel)
  refine ⟨duel, after, created, runs, fun agree => ?_⟩
  obtain ⟨posted, slot⟩ := of_decide_eq_true comes
  have first := (slotsAgree_iff_posts.mp agree).2 .zero .weapon ⟨6⟩ (.inr rfl) posted
  cases slot.symm.trans first

end CardDuel
