import CardDuel.Proofs.Listeners
import CardDuel.Proofs.Rounds

/-!
# What becomes of an entity

A change of a duel does one of a few things to any single entity, or nothing.  They are listed
here once, and so is where an entity can come from, so that what an entity carries can be followed
along a run without taking the changes apart again.
-/

namespace CardDuel

open Relation

namespace Duel

variable {before after duel : Duel} {id : EntityId} {entity later : Entity}

/-- What a change makes of one entity.  Its place goes unsaid. -/
inductive Fate (before : Duel) (id : EntityId) (entity : Entity) : Duel → Entity → Prop
  /-- At most its place is another one. -/
  | stays {after : Duel} {later : Entity} (same : later.body = entity.body) :
      Fate before id entity after later
  | revised {after : Duel} {change : Entity → Entity} (revision : Entity.Revision change) :
      Fate before id entity after (change entity)
  | healed {after : Duel} (amount : Int) :
      Fate before id entity after (entity.addTag .damage (-entity.healable amount))
  | silenced {after : Duel} : Fate before id entity after entity.silence
  | transformed {form : CardId} {card : Card} (listed : before.catalogue.card? form = some card)
      (kind : EntityKind.ofCardType? card.cardType = some entity.kind) :
      Fate before id entity (((before.dropTriggers id).updateEntity id fun entity =>
        entity.replacedBy card).startTriggers id entity.zone) (entity.replacedBy card)
  | shone {after : Duel} (total : AuraTotal) : Fate before id entity after (entity.withAura total)
  | expired {after : Duel} : Fate before id entity after entity.expire
  | fell {after : Duel} {later : Entity}
      (same : { later with lastBoardPosition := 0 } = { entity with lastBoardPosition := 0 }) :
      Fate before id entity after later
  /-- Somebody else has left play. -/
  | bereft {after : Duel} {later : Entity} (creator : EntityId)
      (same : later.body = (entity.unlink creator).body) : Fate before id entity after later
  | moved {goal : ZoneKind} {later : Entity} (placement : Placement)
      (same : later.body = before.partedBody goal entity) :
      Fate before id entity (before.relocate id entity goal placement) later
  | handedOver {after : Duel} {later : Entity} (owner : Player)
      (same : later.body = { before.partedBody .unplaced entity with owner := owner }) :
      Fate before id entity after later

/-- Whoever else leaves a zone takes along at most what was linked to it. -/
theorem Fate.bereaved {other : EntityId} {mover : Entity}
    (same : later.body = bereave other mover entity.body) : Fate before id entity after later := by
  unfold bereave at same
  split at same
  · exact .bereft other same
  · exact .stays same

theorem exists_fate_of_eq (known : before.entity? id = some entity)
    (same : after.entity? id = before.entity? id) :
    ∃ later, after.entity? id = some later ∧ Fate before id entity after later :=
  ⟨entity, same.trans known, .stays rfl⟩

theorem exists_fate_updateEntity (known : before.entity? id = some entity) (other : EntityId)
    {change : Entity → Entity} (fate : other = id → Fate before id entity after (change entity)) :
    ∃ later, (before.updateEntity other change).entity? id = some later ∧
      Fate before id entity after later := by
  rw [entity?_updateEntity, known]
  split
  next here => exact ⟨_, rfl, fate here.symm⟩
  next => exact ⟨entity, rfl, .stays rfl⟩

theorem exists_fate_of_body? {left : Duel} {body : Entity} (found : left.body? id = some body)
    (fate : ∀ later : Entity, later.body = body → Fate before id entity after later) :
    ∃ later, left.entity? id = some later ∧ Fate before id entity after later := by
  obtain ⟨later, knownLater, same⟩ := Option.map_eq_some_iff.mp found
  exact ⟨later, knownLater, fate later same⟩

theorem Stir.fate (stir : Stir before after) (known : before.entity? id = some entity) :
    ∃ later, after.entity? id = some later ∧ Fate before id entity after later := by
  cases stir with
  | revise other revision => exact exists_fate_updateEntity known other fun _ => .revised revision
  | @heal other patient amount knownPatient =>
      refine exists_fate_updateEntity known other fun here => ?_
      cases known.symm.trans (here ▸ knownPatient)
      exact .healed amount
  | silence other => exact exists_fate_updateEntity known other fun _ => .silenced
  | @transform other held form card knownHeld listed kind =>
      have started (duel : Duel) (zone : ZoneKind) :
          (duel.startTriggers other zone).entity? id = duel.entity? id := by
        obtain ⟨triggers, starts⟩ := startTriggers_eq duel other zone
        rw [starts]
        rfl
      rw [started]
      refine exists_fate_updateEntity known other fun here => ?_
      subst here
      cases known.symm.trans knownHeld
      exact .transformed listed kind
  | auras =>
      rw [entity?_updateAuras, known]
      exact ⟨_, rfl, .shone _⟩
  | expire =>
      have swept : before.expireEnchantments.entity? id = some entity.expire := by
        rw [entity?, expireEnchantments, Arena.get?_updateAll]
        exact congrArg (Option.map Entity.expire) known
      exact ⟨_, swept, .expired⟩
  | fall fallen =>
      have same : ((before.markFallen fallen).entity? id).map
          (fun entity : Entity => { entity with lastBoardPosition := 0 }) =
            (before.entity? id).map fun entity => { entity with lastBoardPosition := 0 } :=
        before.map_markFallen fallen id fun _ _ => rfl
      rw [known] at same
      obtain ⟨later, knownLater, same⟩ := Option.map_eq_some_iff.mp same
      exact ⟨later, knownLater, .fell same⟩
  | _ => exact exists_fate_of_eq known rfl

theorem Shift.fate (shift : Shift before after) (known : before.entity? id = some entity) :
    ∃ later, after.entity? id = some later ∧ Fate before id entity after later := by
  cases shift with
  | stir stir => exact stir.fate known
  | @relocate other mover goal placement knownMover allowed room =>
      have bodies := body?_relocate knownMover goal placement id
      by_cases here : id = other
      · subst here
        cases known.symm.trans knownMover
        rw [if_pos rfl] at bodies
        exact exists_fate_of_body? bodies fun _ => .moved placement
      · rw [if_neg here, body?_of_entity? known] at bodies
        exact exists_fate_of_body? bodies fun _ => .bereaved
  | @handOver other mover owner knownMover apart =>
      have bodies := body?_leaveZone knownMover .unplaced id
      rw [entity?_updateEntity]
      by_cases here : id = other
      · subst here
        cases known.symm.trans knownMover
        rw [if_pos rfl] at bodies
        obtain ⟨left, knownLeft, same⟩ := Option.map_eq_some_iff.mp bodies
        rw [if_pos rfl, knownLeft]
        exact ⟨_, rfl, .handedOver owner (congrArg (fun body : Entity =>
          { body with owner := owner }) same)⟩
      · rw [if_neg here, body?_of_entity? known] at bodies
        rw [if_neg here]
        exact exists_fate_of_body? bodies fun _ => .bereaved
  | create owner listed instantiable =>
      refine exists_fate_of_eq known ?_
      rw [entity?, Arena.get?_push, if_neg]
      · rfl
      · rintro rfl
        cases known.symm.trans before.arena.get?_nextId
  | shuffle player container reordered =>
      exact exists_fate_of_body?
        ((body?_renumber _ player .deck id).trans (body?_of_entity? known)) fun _ => .stays

/-- Everybody has a fate in every change. -/
theorem Change.fate (change : Change before after) (known : before.entity? id = some entity) :
    ∃ later, after.entity? id = some later ∧ Fate before id entity after later := by
  cases change with
  | shift shift => exact shift.fate known
  | _ => exact exists_fate_of_eq known rfl

theorem entity?_eq_none_of_table (table : after.table = before.table)
    (unknown : before.entity? id = none) : after.entity? id = none := by
  have seats : after.table.seat? id = before.table.seat? id := by rw [table]
  have vacant : before.table.seat? id = none := Option.map_eq_none_iff.mpr unknown
  exact Option.map_eq_none_iff.mp (seats.trans vacant)

/-- Nobody is new but a fresh copy of a listed card. -/
theorem Change.origin (change : Change before after) (unknown : before.entity? id = none)
    (known : after.entity? id = some later) :
    ∃ form owner card kind, before.catalogue.card? form = some card ∧
      later = Entity.fresh owner card kind := by
  have never {after : Duel} (still : after.entity? id = none)
      (known : after.entity? id = some later) :
      ∃ form owner card kind, before.catalogue.card? form = some card ∧
        later = Entity.fresh owner card kind := nomatch still.symm.trans known
  have absent : before.body? id = none := entity?_eq_none_iff.mp unknown
  have left {mover : EntityId} {entity body : Entity}
      (knownMover : before.entity? mover = some entity) :
      (if id = mover then some body else (before.body? id).map (bereave mover entity)) = none := by
    rw [if_neg, absent]
    · rfl
    · rintro rfl
      cases unknown.symm.trans knownMover
  cases change with
  | shift shift =>
      cases shift with
      | stir stir => exact never (entity?_eq_none_of_table stir.table unknown) known
      | relocate placement knownMover allowed room =>
          refine never (entity?_eq_none_iff.mpr ?_) known
          exact (body?_relocate knownMover _ placement id).trans (left knownMover)
      | handOver knownMover apart =>
          refine never ?_ known
          have gone := (body?_leaveZone knownMover .unplaced id).trans (left knownMover)
          rw [entity?_updateEntity, entity?_eq_none_iff.mpr gone]
          exact ite_self none
      | create owner listed instantiable =>
          rw [entity?, Arena.get?_push] at known
          split at known
          · cases known
            exact ⟨_, owner, _, _, listed, rfl⟩
          · exact never unknown known
      | shuffle player container reordered =>
          refine never (entity?_eq_none_iff.mpr ?_) known
          exact (body?_renumber _ player .deck id).trans absent
  | _ => exact never unknown known

/-! ## The cards behind the entities -/

/-- Every entity is a copy of a card in the catalogue. -/
def Catalogued (duel : Duel) : Prop :=
  ∀ id entity, duel.entity? id = some entity →
    ∃ card, duel.catalogue.card? entity.card = some card

/-- Leaving a zone keeps the card. -/
theorem card_partedBody (duel : Duel) (goal : ZoneKind) (entity : Entity) :
    (duel.partedBody goal entity).card = entity.card := by
  unfold partedBody afterPlay
  dsimp only
  split
  · split
    · split
      · rfl
      next card listed => exact Catalogue.id_of_card? listed
    · rfl
  · rfl

/-- The card of an entity stays the same, or becomes one that the catalogue lists. -/
theorem Fate.card (fate : Fate before id entity after later) :
    later.card = entity.card ∨ (before.catalogue.card? later.card).isSome = true := by
  have same {body : Entity} (kept : later.body = body) (card : body.card = entity.card) :
      later.card = entity.card := (congrArg Entity.card kept).trans card
  have stance {later : Entity} (kept : later.stance = entity.stance) : later.card = entity.card :=
    congrArg (fun stance : Stance => stance.card) kept
  cases fate with
  | stays kept => exact .inl (same kept rfl)
  | revised revision => exact .inl (revision.card entity)
  | healed amount => exact .inl rfl
  | silenced => exact .inl (Entity.card_keepHealth _ entity)
  | @transformed form card listed kind =>
      right
      change (before.catalogue.card? card.id).isSome = true
      rw [Catalogue.id_of_card? listed, listed]
      rfl
  | shone total => exact .inl (stance (entity.stance_withAura total))
  | expired => exact .inl (stance entity.stance_expire)
  | fell kept =>
      have cards := congrArg Entity.card kept
      exact .inl cards
  | bereft creator kept => exact .inl (same kept rfl)
  | moved placement kept => exact .inl (same kept (before.card_partedBody _ entity))
  | handedOver owner kept => exact .inl (same kept (before.card_partedBody _ entity))

theorem Catalogued.change (listed : before.Catalogued) (change : Change before after) :
    after.Catalogued := by
  intro id later known
  rw [change.fixed.2]
  cases unknown : before.entity? id with
  | none =>
      obtain ⟨form, owner, card, kind, found, rfl⟩ := change.origin unknown known
      exact ⟨card, (congrArg before.catalogue.card? (Catalogue.id_of_card? found)).trans found⟩
  | some entity =>
      obtain ⟨same, knownSame, fate⟩ := change.fate unknown
      cases known.symm.trans knownSame
      rcases fate.card with kept | listedToo
      · rw [kept]
        exact listed id entity unknown
      · exact Option.isSome_iff_exists.mp listedToo

theorem catalogued_of_bare {settings : Settings} {catalogue : Catalogue}
    (begun : Duel.bare settings catalogue = .ok before)
    (reaches : ReflTransGen Change before after) : after.Catalogued := by
  induction reaches with
  | refl =>
      obtain ⟨first, dice, zero, one, rfl⟩ := bare_eq begun
      exact fun id entity known => nomatch (Arena.get?_empty id).symm.trans known
  | tail _ last ih => exact ih.change last

theorem catalogued_of_reaches {settings : Settings} {catalogue : Catalogue}
    (created : Duel.create settings catalogue = .ok before)
    (reaches : ReflTransGen Change before after) : after.Catalogued := by
  obtain ⟨bare, begun, quiets⟩ := create_quiet created
  exact catalogued_of_bare begun ((Shift.changes (Quiet.shifts quiets)).trans reaches)

end Duel

/-! ## Duels of matches -/

namespace Duel

variable {before after duel : Duel}

/-- The duel has come about in a match. -/
def Arisen (duel : Duel) : Prop :=
  ∃ settings catalogue start, Duel.create settings catalogue = .ok start ∧
    ReflTransGen Change start duel

theorem Arisen.later (arisen : before.Arisen) (reaches : ReflTransGen Change before after) :
    after.Arisen := by
  obtain ⟨settings, catalogue, start, created, reached⟩ := arisen
  exact ⟨settings, catalogue, start, created, reached.trans reaches⟩

theorem Arisen.sound (arisen : duel.Arisen) : duel.WellPlaced := by
  obtain ⟨_, _, _, created, reached⟩ := arisen
  exact Change.wellPlaced_of_reaches reached (created_wellPlaced created)

/-- Who is known stays known. -/
theorem known_of_reaches {id : EntityId} (reaches : ReflTransGen Change before after)
    (known : before.entity? id ≠ none) : after.entity? id ≠ none := by
  induction reaches with
  | refl => exact known
  | tail _ change ih =>
      obtain ⟨entity, held⟩ := Option.ne_none_iff_exists'.mp ih
      obtain ⟨later, heldLater, -⟩ := change.fate held
      exact Option.ne_none_iff_exists'.mpr ⟨later, heldLater⟩

end Duel

end CardDuel
