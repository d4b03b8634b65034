import CardDuel.Proofs.Arrivals
import CardDuel.Proofs.Bodies
import CardDuel.Proofs.Book

/-!
# Live triggers

A trigger is live while its entity is in the zone of the rule.  Whatever moves an entity,
gives it to another player, turns it into another card or silences it strikes out all its
triggers, and then registers the rule of its card where that is due.  So the book never
holds a trigger that the table does not bear out.
-/

namespace CardDuel

open Relation

/-! ## Stances -/

/-- Whom an entity listens for, and as what it does so in which zone. -/
structure Calling where
  owner : Player
  card : CardId
  zone : ZoneKind
deriving DecidableEq

/-- What decides by which trigger an entity listens. -/
structure Stance extends Calling where
  silenced : Bool
deriving DecidableEq

namespace Entity

def calling (entity : Entity) : Calling :=
  ⟨entity.owner, entity.card, entity.zone⟩

def stance (entity : Entity) : Stance :=
  ⟨entity.calling, entity.tags.has .silenced⟩

theorem card_keepHealth (entity before : Entity) :
    (entity.keepHealth before).card = entity.card := by
  unfold keepHealth
  split <;> rfl

theorem card_takeHit (entity : Entity) (amount : Int) (poisonous freezing : Bool) :
    (entity.takeHit amount poisonous freezing).card = entity.card := by
  unfold takeHit
  simp only [apply_ite card, setTag, addTag, ite_self]

theorem Revision.card {change : Entity → Entity} (revision : Revision change) (entity : Entity) :
    (change entity).card = entity.card := by
  cases revision with
  | hit amount poisonous freezing => exact card_takeHit entity amount poisonous freezing
  | refresh =>
      unfold Entity.refresh
      dsimp only
      split <;> rfl
  | thaw =>
      unfold Entity.thaw
      split <;> rfl
  | enchant enchantment => exact card_keepHealth _ entity
  | _ => rfl

theorem calling_eq {first second : Entity} (seat : first.seat = second.seat)
    (card : first.card = second.card) : first.calling = second.calling := by
  obtain ⟨owner, -, zone, -⟩ := Seat.mk.inj seat
  rw [calling, calling, owner, card, zone]

theorem stance_eq {first second : Entity} (seat : first.seat = second.seat)
    (card : first.card = second.card)
    (silence : first.tags.get .silenced = second.tags.get .silenced) :
    first.stance = second.stance := by
  rw [stance, stance, calling_eq seat card, Tags.has, Tags.has, silence]

theorem Revision.calling {change : Entity → Entity} (revision : Revision change)
    (entity : Entity) : (change entity).calling = entity.calling :=
  calling_eq (revision.seat entity) (revision.card entity)

theorem Revision.stance_of_silenced {change : Entity → Entity} (revision : Revision change)
    (silenced : ∀ entity, (change entity).tags.get .silenced = entity.tags.get .silenced)
    (entity : Entity) : (change entity).stance = entity.stance :=
  stance_eq (revision.seat entity) (revision.card entity) (silenced entity)

theorem Routine.stance {change : Entity → Entity} (routine : Routine change) (entity : Entity) :
    (change entity).stance = entity.stance :=
  routine.revision.stance_of_silenced routine.silenced entity

theorem stance_keepHealth (entity before : Entity) :
    (entity.keepHealth before).stance = entity.stance :=
  stance_eq (seat_keepHealth entity before) (card_keepHealth entity before)
    (get_silenced_keepHealth entity before)

theorem stance_withAura (entity : Entity) (total : AuraTotal) :
    (entity.withAura total).stance = entity.stance := by
  unfold withAura
  split
  · rfl
  · exact stance_keepHealth _ entity

theorem stance_expire (entity : Entity) : entity.expire.stance = entity.stance := by
  unfold expire
  split
  · exact stance_keepHealth _ entity
  · rfl

theorem silenced_silence (entity : Entity) : entity.silence.stance.silenced = true := by
  have silent : entity.silence.tags.get .silenced = 1 :=
    (get_silenced_keepHealth _ entity).trans (Tags.get_set_self _ _ _)
  change decide (0 < entity.silence.tags.get .silenced) = true
  rw [silent]
  rfl

end Entity

namespace Duel

variable {duel before after : Duel} {id other : EntityId} {entity : Entity}

def calling? (duel : Duel) (id : EntityId) : Option Calling :=
  (duel.entity? id).map Entity.calling

def stance? (duel : Duel) (id : EntityId) : Option Stance :=
  (duel.entity? id).map Entity.stance

/-- The rule on a card. -/
def ruleOf (duel : Duel) (card : CardId) : Option TriggerRule :=
  ((duel.catalogue.behaviour? card).getD Behaviour.none).trigger

/-- Whether an entity ought to listen by a rule: the rule is on its card, and the entity is in the
zone of the rule and not silenced. -/
def Due (duel : Duel) (id : EntityId) (rule : TriggerRule) : Prop :=
  ∃ entity, duel.entity? id = some entity ∧ entity.tags.has .silenced = false ∧
    duel.triggerRule? entity = some rule ∧ rule.zone = entity.zone ∧ rule.zone ≠ .unplaced

theorem calling?_of_stance? (same : after.stance? id = before.stance? id) :
    after.calling? id = before.calling? id := by
  have callings (duel : Duel) : duel.calling? id = (duel.stance? id).map Stance.toCalling := by
    rw [stance?, Option.map_map]
    rfl
  rw [callings, callings, same]

theorem calling?_of_entity? (known : duel.entity? id = some entity) :
    duel.calling? id = some entity.calling :=
  congrArg (Option.map Entity.calling) known

/-- Where an entity is and what it is make up its stance. -/
theorem stance?_congr (posts : after.table.post? id = before.table.post? id)
    (bodies : (after.body? id).map Entity.stance = (before.body? id).map Entity.stance) :
    after.stance? id = before.stance? id := by
  have stances (duel : Duel) : duel.stance? id = (duel.table.post? id).bind fun post =>
      ((duel.body? id).map Entity.stance).map fun body =>
        ⟨⟨post.owner, body.card, post.zone⟩, body.silenced⟩ := by
    change (duel.entity? id).map Entity.stance = (((duel.entity? id).map Entity.seat).map
      Seat.post).bind fun post => (((duel.entity? id).map Entity.body).map Entity.stance).map _
    cases duel.entity? id <;> rfl
  rw [stances, stances, posts, bodies]

/-- A rewriting that keeps some part of every entity keeps it on the table. -/
theorem map_updateEntity {α : Type} (duel : Duel) (id other : EntityId) {change : Entity → Entity}
    {part : Entity → α} (kept : ∀ entity, part (change entity) = part entity) :
    ((duel.updateEntity id change).entity? other).map part = (duel.entity? other).map part := by
  rw [entity?_updateEntity]
  split
  · rw [Option.map_map]
    exact congrArg (Option.map · (duel.entity? other)) (funext kept)
  · rfl

theorem map_updateAll {α : Type} (duel : Duel) (id : EntityId)
    {change : EntityId → Entity → Entity} {part : Entity → α}
    (kept : ∀ id entity, part (change id entity) = part entity) :
    (Arena.get? (duel.arena.updateAll change) id).map part = (duel.entity? id).map part := by
  rw [Arena.get?_updateAll, Option.map_map]
  exact congrArg (Option.map · (duel.entity? id)) (funext (kept id))

theorem map_markFallen {α : Type} (duel : Duel) (fallen : List (EntityId × Nat)) (id : EntityId)
    {part : Entity → α}
    (kept : ∀ entity place, part { entity with lastBoardPosition := place } = part entity) :
    ((duel.markFallen fallen).entity? id).map part = (duel.entity? id).map part := by
  induction fallen generalizing duel with
  | nil => rfl
  | cons entry fallen ih =>
      exact (ih (duel.updateEntity entry.1 fun entity =>
        { entity with lastBoardPosition := entry.2 })).trans
          (duel.map_updateEntity entry.1 id fun entity => kept entity entry.2)

/-! ## Restarts -/

/-- The triggers of one entity start anew: all are struck out, and then the rule of its card is
registered if it is due, and only where the entity is in its zone. -/
structure Restarts (before after : Duel) (id : EntityId) : Prop where
  catalogue : after.catalogue = before.catalogue
  others : ∀ other, other ≠ id → after.stance? other = before.stance? other
  triggers : after.triggers = before.triggers.dropOwner id ∧ (∀ rule, ¬ after.Due id rule) ∨
    ∃ calling rule, after.calling? id = some calling ∧ after.ruleOf calling.card = some rule ∧
      rule.zone = calling.zone ∧
        after.triggers = (before.triggers.dropOwner id).register id calling.owner rule
  /-- Nothing is registered for an entity that is silenced. -/
  silent : ∀ entity, after.entity? id = some entity → entity.tags.has .silenced = true →
    after.triggers = before.triggers.dropOwner id

/-- What the live triggers of a duel say of its entities. -/
structure TriggersAgree (duel : Duel) : Prop where
  /-- The owner of a live trigger is in the zone of the rule and belongs to the controller, and the
  rule is the one of its card. -/
  owned : ∀ trigger ∈ duel.triggers.active, ∃ entity, duel.entity? trigger.owner = some entity ∧
    entity.zone = trigger.rule.zone ∧ entity.owner = trigger.controller ∧
      duel.triggerRule? entity = some trigger.rule
  /-- No entity has two of them. -/
  single : ∀ id, (duel.triggers.ownedBy id).length ≤ 1

/-- The book is well kept and agrees with the table. -/
structure Listening (duel : Duel) : Prop where
  kept : duel.triggers.WellKept
  agree : duel.TriggersAgree

/-- Whether a calling bears a live trigger out. -/
def Bears (duel : Duel) (trigger : Trigger) : Prop :=
  ∃ calling, duel.calling? trigger.owner = some calling ∧ calling.zone = trigger.rule.zone ∧
    calling.owner = trigger.controller ∧ duel.ruleOf calling.card = some trigger.rule

theorem triggersAgree_iff : duel.TriggersAgree ↔
    (∀ trigger ∈ duel.triggers.active, duel.Bears trigger) ∧
      ∀ id, (duel.triggers.ownedBy id).length ≤ 1 := by
  constructor
  · intro agree
    refine ⟨fun trigger live => ?_, agree.single⟩
    obtain ⟨entity, known, zone, owner, rule⟩ := agree.owned trigger live
    exact ⟨entity.calling, calling?_of_entity? known, zone, owner, rule⟩
  · rintro ⟨borne, single⟩
    refine ⟨fun trigger live => ?_, single⟩
    obtain ⟨calling, called, zone, owner, rule⟩ := borne trigger live
    obtain ⟨entity, known, rfl⟩ := Option.map_eq_some_iff.mp called
    exact ⟨entity, known, zone, owner, rule⟩

theorem Bears.congr {trigger : Trigger} (bears : before.Bears trigger)
    (catalogue : after.catalogue = before.catalogue)
    (callings : after.calling? trigger.owner = before.calling? trigger.owner) :
    after.Bears trigger := by
  obtain ⟨calling, called, zone, owner, rule⟩ := bears
  refine ⟨calling, callings.trans called, zone, owner, ?_⟩
  rw [ruleOf, catalogue]
  exact rule

theorem Listening.keep (listening : before.Listening) (triggers : after.triggers = before.triggers)
    (catalogue : after.catalogue = before.catalogue)
    (callings : ∀ id, after.calling? id = before.calling? id) : after.Listening := by
  obtain ⟨kept, agree⟩ := listening
  obtain ⟨borne, single⟩ := triggersAgree_iff.mp agree
  refine ⟨triggers ▸ kept, triggersAgree_iff.mpr ⟨fun trigger live => ?_, triggers ▸ single⟩⟩
  rw [triggers] at live
  exact (borne trigger live).congr catalogue (callings trigger.owner)

theorem Listening.restarts (listening : before.Listening) (restarts : Restarts before after id) :
    after.Listening := by
  obtain ⟨kept, agree⟩ := listening
  obtain ⟨borne, single⟩ := triggersAgree_iff.mp agree
  have others {trigger : Trigger} (live : trigger ∈ (before.triggers.dropOwner id).active) :
      after.Bears trigger := by
    rw [kept.active_dropOwner, List.mem_filter, decide_eq_true_eq] at live
    exact (borne trigger live.1).congr restarts.catalogue
      (calling?_of_stance? (restarts.others trigger.owner live.2))
  rcases restarts.triggers with ⟨dropped, -⟩ | ⟨calling, rule, called, listed, there, registered⟩
  · refine ⟨dropped ▸ kept.dropOwner id,
      triggersAgree_iff.mpr ⟨fun trigger live => ?_, fun other => ?_⟩⟩
    · rw [dropped] at live
      exact others live
    · rw [dropped, kept.ownedBy_dropOwner]
      split
      · exact Nat.zero_le 1
      · exact single other
  · refine ⟨registered ▸ (kept.dropOwner id).register id calling.owner rule,
      triggersAgree_iff.mpr ⟨fun trigger live => ?_, fun other => ?_⟩⟩
    · rw [registered] at live
      rcases List.mem_append.mp live with old | new
      · exact others old
      · rw [List.mem_singleton.mp new]
        exact ⟨calling, called, there.symm, rfl, listed⟩
    · rw [registered, TriggerBook.ownedBy_register, kept.ownedBy_dropOwner]
      split
      · exact Nat.le_refl 1
      · exact single other

theorem Listening.unregister (listening : before.Listening) (id : TriggerId) :
    ({ before with triggers := before.triggers.unregister id } : Duel).Listening := by
  obtain ⟨kept, agree⟩ := listening
  refine ⟨kept.unregister id, fun trigger live => ?_, fun other => ?_⟩
  · change trigger ∈ (before.triggers.unregister id).active at live
    rw [TriggerBook.active_unregister] at live
    exact agree.owned trigger (List.mem_of_mem_filter live)
  · change ((before.triggers.unregister id).active.filter _).length ≤ 1
    rw [TriggerBook.active_unregister]
    have fewer := (List.filter_sublist (p := fun trigger : Trigger => trigger.id ≠ id)
      (l := before.triggers.active)).filter fun trigger => decide (trigger.owner = other)
    exact Nat.le_trans fewer.length_le (agree.single other)

/-! ## What restarts -/

/-- Who leaves a zone has no live trigger any more. -/
theorem Listening.triggers_leaveZone (listening : duel.Listening)
    (known : duel.entity? id = some entity) (goal : ZoneKind) :
    (duel.leaveZone id goal).triggers = duel.triggers.dropOwner id := by
  have detached : (duel.detach id entity).triggers = duel.triggers ∧
      (duel.detach id entity).catalogue = duel.catalogue := by
    unfold detach
    split
    · exact ⟨rfl, rfl⟩
    · split <;> exact ⟨rfl, rfl⟩
  have left : (duel.leaveZone id goal).triggers =
      ((duel.detach id entity).endTriggers id entity).triggers := by
    unfold leaveZone
    rw [known]
    dsimp only
    split <;> rfl
  have rule : (duel.detach id entity).triggerRule? entity = duel.ruleOf entity.card := by
    rw [triggerRule?, behaviourOf, detached.2]
    rfl
  -- A live trigger has the rule of the card in the zone where the entity is.
  have idle (unruly : ∀ rule, duel.ruleOf entity.card = some rule → rule.zone ≠ entity.zone) :
      duel.triggers.ownedBy id = [] := by
    rw [List.eq_nil_iff_forall_not_mem]
    intro trigger owned
    obtain ⟨live, own⟩ := TriggerBook.mem_ownedBy.mp owned
    obtain ⟨held, knownHeld, zone, -, listed⟩ := listening.agree.owned trigger live
    rw [own, known] at knownHeld
    cases knownHeld
    exact unruly trigger.rule listed zone.symm
  rw [left]
  unfold endTriggers
  rw [rule]
  cases listed : duel.ruleOf entity.card with
  | none =>
      refine detached.1.trans (TriggerBook.dropOwner_of_none (idle fun rule same => ?_)).symm
      cases listed.symm.trans same
  | some rule =>
      dsimp only
      split
      · change (duel.detach id entity).triggers.dropOwner id = _
        rw [detached.1]
      next away =>
        refine detached.1.trans (TriggerBook.dropOwner_of_none (idle fun other same => ?_)).symm
        cases listed.symm.trans same
        exact away

theorem stance?_startTriggers (duel : Duel) (id other : EntityId) (zone : ZoneKind) :
    (duel.startTriggers id zone).stance? other = duel.stance? other := by
  obtain ⟨triggers, started⟩ := startTriggers_eq duel id zone
  rw [started]
  rfl

theorem due_iff_of_entity? {rule : TriggerRule} (known : duel.entity? id = some entity) :
    duel.Due id rule ↔ entity.tags.has .silenced = false ∧ duel.triggerRule? entity = some rule ∧
      rule.zone = entity.zone ∧ rule.zone ≠ .unplaced := by
  constructor
  · rintro ⟨held, knownHeld, due⟩
    cases known.symm.trans knownHeld
    exact due
  · exact fun due => ⟨entity, known, due⟩

/-- Whose triggers are struck out and then started restarts. -/
theorem restarts_startTriggers {zone : ZoneKind} (catalogue : after.catalogue = before.catalogue)
    (others : ∀ other, other ≠ id → after.stance? other = before.stance? other)
    (dropped : after.triggers = before.triggers.dropOwner id)
    (there : ∀ entity, after.entity? id = some entity → entity.zone = zone) :
    Restarts before (after.startTriggers id zone) id := by
  obtain ⟨triggers, started⟩ := startTriggers_eq after id zone
  have same : (after.startTriggers id zone).catalogue = before.catalogue := by
    rw [started]
    exact catalogue
  refine ⟨same, fun other away => (stance?_startTriggers after id other zone).trans
    (others other away), ?_, fun entity known silent => ?_⟩
  on_goal 2 =>
    have known : after.entity? id = some entity := by
      rw [started] at known
      exact known
    unfold startTriggers
    rw [known]
    dsimp only
    rw [if_pos silent, dropped]
  clear triggers started same
  unfold startTriggers
  cases known : after.entity? id with
  | none =>
      refine .inl ⟨dropped, ?_⟩
      rintro rule ⟨entity, knownEntity, -⟩
      cases known.symm.trans knownEntity
  | some entity =>
      have due {rule : TriggerRule} : after.Due id rule ↔ _ := due_iff_of_entity? known
      dsimp only
      split
      next silent =>
        refine .inl ⟨dropped, fun rule listens => ?_⟩
        obtain ⟨spoken, -⟩ := due.mp listens
        cases silent.symm.trans spoken
      cases listed : after.triggerRule? entity with
      | none =>
          refine .inl ⟨dropped, fun rule listens => ?_⟩
          obtain ⟨-, ruled, -⟩ := due.mp listens
          cases listed.symm.trans ruled
      | some rule =>
          dsimp only
          split
          next here =>
            refine .inr ⟨entity.calling, rule, calling?_of_entity? known, listed, ?_, ?_⟩
            · exact here.trans (there entity known).symm
            · rw [← dropped]
              rfl
          next elsewhere =>
            refine .inl ⟨dropped, fun other listens => elsewhere ?_⟩
            obtain ⟨-, ruled, stands, -⟩ := due.mp listens
            cases listed.symm.trans ruled
            exact stands.trans (there entity known)

/-- Who leaves a zone changes the stance of nobody else. -/
theorem stance_bereave (id : EntityId) (entity other : Entity) :
    (bereave id entity other).stance = other.stance := by
  unfold bereave
  split <;> rfl

theorem stance?_of_bereaved {goal : ZoneKind} (away : other ≠ id)
    (posts : after.table.post? other = before.table.post? other)
    (bodies : after.body? other = if other = id then some (before.partedBody goal entity)
      else (before.body? other).map (bereave id entity)) :
    after.stance? other = before.stance? other := by
  apply stance?_congr posts
  rw [bodies, if_neg away, Option.map_map]
  exact congrArg (Option.map · (before.body? other)) (funext (stance_bereave id entity))

/-- The last thing that a move does is to start triggers. -/
theorem exists_arrived (duel : Duel) (id : EntityId) (entity : Entity) (goal : ZoneKind)
    (placement : Placement) : ∃ arrived : Duel,
      duel.relocate id entity goal placement = arrived.startTriggers id goal ∧
        arrived.triggers = (duel.leaveZone id goal).triggers ∧
          arrived.catalogue = duel.catalogue := by
  have left : (duel.leaveZone id goal).catalogue = duel.catalogue :=
    congrArg Control.catalogue (control_leaveZone duel id goal)
  refine ⟨_, rfl, ?_⟩
  split
  · exact ⟨rfl, left⟩
  · unfold putInto
    split <;> exact ⟨rfl, left⟩

theorem restarts_relocate {goal : ZoneKind} (placement : Placement) (sound : duel.WellPlaced)
    (listening : duel.Listening) (known : duel.entity? id = some entity)
    (room : usesSlot entity.kind goal = true ∨ entity.zone = goal ∨
      duel.zones.isFull entity.owner goal = false) :
    Restarts duel (duel.relocate id entity goal placement) id := by
  have posts (other : EntityId) :
      (duel.relocate id entity goal placement).table.post? other =
        if other = id then some ⟨entity.owner, entity.kind, goal⟩ else duel.table.post? other :=
    post?_relocate placement sound known room
  obtain ⟨arrived, starts, triggers, catalogue⟩ := exists_arrived duel id entity goal placement
  have table : arrived.table = (duel.relocate id entity goal placement).table := by
    rw [starts, table_startTriggers]
  rw [starts]
  refine restarts_startTriggers catalogue (fun other away => ?_)
    (triggers.trans (listening.triggers_leaveZone known goal)) fun held knownHeld => ?_
  · rw [← stance?_startTriggers arrived id other goal, ← starts]
    exact stance?_of_bereaved away ((posts other).trans (if_neg away))
      (body?_relocate known goal placement other)
  · have posted := (posts id).trans (if_pos rfl)
    rw [← table, post?_of_entity? knownHeld] at posted
    exact congrArg Post.zone (Option.some.inj posted)

theorem restarts_handOver (owner : Player) (sound : duel.WellPlaced) (listening : duel.Listening)
    (known : duel.entity? id = some entity) :
    Restarts duel ((duel.leaveZone id .unplaced).updateEntity id fun entity =>
      { entity with owner := owner }) id := by
  refine ⟨congrArg Control.catalogue (control_leaveZone duel id .unplaced), fun other away => ?_,
    .inl ⟨listening.triggers_leaveZone known .unplaced, ?_⟩,
    fun _ _ _ => listening.triggers_leaveZone known .unplaced⟩
  · have left : (duel.leaveZone id .unplaced).stance? other = duel.stance? other :=
      stance?_of_bereaved away ((post?_leaveZone sound.placed known .unplaced other).trans
        (if_neg away)) (body?_leaveZone known .unplaced other)
    rw [← left, stance?, entity?_updateEntity, if_neg away]
    rfl
  · rintro rule ⟨held, knownHeld, -, -, zone, placed⟩
    have posted := (post?_handOver owner sound known).trans (if_pos rfl)
    rw [post?_of_entity? knownHeld] at posted
    exact placed (zone.trans (congrArg Post.zone (Option.some.inj posted)))

theorem restarts_create {owner : Player} {card : Card} {kind : EntityKind}
    (listening : duel.Listening) :
    Restarts duel { duel with arena := duel.arena.push (Entity.fresh owner card kind) }
      duel.arena.nextId := by
  have idle : duel.triggers = duel.triggers.dropOwner duel.arena.nextId := by
    refine (TriggerBook.dropOwner_of_none (List.eq_nil_iff_forall_not_mem.mpr ?_)).symm
    intro trigger owned
    obtain ⟨live, own⟩ := TriggerBook.mem_ownedBy.mp owned
    obtain ⟨entity, known, -⟩ := listening.agree.owned trigger live
    rw [own] at known
    cases duel.post?_nextId.symm.trans (post?_of_entity? known)
  refine ⟨rfl, fun other away => ?_, .inl ⟨idle, ?_⟩, fun _ _ _ => idle⟩
  · change (Arena.get? _ other).map _ = _
    rw [Arena.get?_push, if_neg away]
    rfl
  · rintro rule ⟨entity, known, -, -, zone, placed⟩
    change Arena.get? _ _ = _ at known
    rw [Arena.get?_push, if_pos rfl] at known
    cases known
    exact placed zone

theorem restarts_silence (duel : Duel) (id : EntityId) :
    Restarts duel ((duel.updateEntity id Entity.silence).dropTriggers id) id := by
  refine ⟨rfl, fun other away => ?_, .inl ⟨rfl, ?_⟩, fun _ _ _ => rfl⟩
  · change ((duel.updateEntity id Entity.silence).entity? other).map _ = _
    rw [entity?_updateEntity, if_neg away]
    rfl
  · rintro rule ⟨entity, known, spoken, -⟩
    change (duel.updateEntity id Entity.silence).entity? id = some entity at known
    rw [entity?_updateEntity, if_pos rfl] at known
    obtain ⟨before, -, rfl⟩ := Option.map_eq_some_iff.mp known
    have silent := before.silenced_silence
    cases spoken.symm.trans silent

theorem restarts_transform {card : Card} (known : duel.entity? id = some entity) :
    Restarts duel (((duel.dropTriggers id).updateEntity id fun entity =>
      entity.replacedBy card).startTriggers id entity.zone) id := by
  refine restarts_startTriggers rfl (fun other away => ?_) rfl fun held knownHeld => ?_
  · rw [stance?, entity?_updateEntity, if_neg away]
    rfl
  · rw [entity?_updateEntity, if_pos rfl] at knownHeld
    obtain ⟨old, knownOld, rfl⟩ := Option.map_eq_some_iff.mp knownHeld
    cases known.symm.trans knownOld
    rfl

/-! ## What changes nobody's stance -/

theorem stance?_updateAuras (duel : Duel) (id : EntityId) :
    duel.updateAuras.stance? id = duel.stance? id := by
  change (Arena.get? (duel.arena.updateAll fun id entity =>
    entity.withAura (totalFor duel.contributions id)) id).map _ = _
  exact duel.map_updateAll id fun _ entity => entity.stance_withAura _

theorem stance?_expireEnchantments (duel : Duel) (id : EntityId) :
    duel.expireEnchantments.stance? id = duel.stance? id :=
  duel.map_updateAll id fun _ entity => entity.stance_expire

theorem stance?_markFallen (duel : Duel) (fallen : List (EntityId × Nat)) (id : EntityId) :
    (duel.markFallen fallen).stance? id = duel.stance? id :=
  duel.map_markFallen fallen id fun _ _ => rfl

theorem stance?_shuffle {player : Player} {zone : Zone} {shuffled : List EntityId}
    (sound : duel.WellPlaced) (found : duel.zones.get? player .deck = some zone)
    (reordered : shuffled.Perm zone.members) (id : EntityId) :
    (duel.refill player .deck { zone with members := shuffled }).stance? id = duel.stance? id :=
  stance?_congr (post?_shuffle sound found reordered)
    (congrArg _ (body?_renumber { duel with zones := _ } player .deck id))

/-! ## Every change -/

theorem Stir.listening (stir : Stir before after) (listening : before.Listening) :
    after.Listening := by
  cases stir with
  | revise id revision =>
      exact listening.keep rfl rfl fun other => before.map_updateEntity id other revision.calling
  | @heal id entity amount known =>
      exact listening.keep rfl rfl fun other =>
        before.map_updateEntity id other (Entity.Revision.add .damage _).calling
  | silence id => exact listening.restarts (restarts_silence before id)
  | transform known listed kind => exact listening.restarts (restarts_transform known)
  | auras =>
      exact listening.keep rfl rfl fun id => calling?_of_stance? (before.stance?_updateAuras id)
  | expire =>
      exact listening.keep rfl rfl fun id =>
        calling?_of_stance? (before.stance?_expireEnchantments id)
  | fall fallen =>
      exact listening.keep rfl rfl fun id =>
        calling?_of_stance? (before.stance?_markFallen fallen id)
  | unregister id => exact listening.unregister id
  | _ => exact listening.keep rfl rfl fun _ => rfl

/-- Every change keeps the book in agreement with the table. -/
theorem Change.listening (change : Change before after) (sound : before.WellPlaced)
    (listening : before.Listening) : after.Listening := by
  cases change with
  | shift shift =>
      cases shift with
      | stir stir => exact stir.listening listening
      | relocate placement known allowed room =>
          exact listening.restarts (restarts_relocate placement sound listening known room)
      | @handOver id entity owner known other =>
          exact listening.restarts (restarts_handOver owner sound listening known)
      | create owner listed instantiable => exact listening.restarts (restarts_create listening)
      | shuffle player container reordered =>
          exact listening.keep rfl rfl fun id =>
            calling?_of_stance? (stance?_shuffle sound container reordered id)
  | _ => exact listening.keep rfl rfl fun _ => rfl

theorem listening_of_reaches (reaches : ReflTransGen Change before after)
    (sound : before.WellPlaced) (listening : before.Listening) : after.Listening := by
  induction reaches with
  | refl => exact listening
  | tail reached change ih => exact change.listening (Change.wellPlaced_of_reaches reached sound) ih

theorem bare_listening {settings : Settings} {catalogue : Catalogue}
    (begun : Duel.bare settings catalogue = .ok duel) : duel.Listening := by
  obtain ⟨first, dice, zero, one, rfl⟩ := bare_eq begun
  exact ⟨TriggerBook.wellKept_empty, ⟨fun _ => nofun, fun _ => Nat.zero_le 1⟩⟩

/-- The table is well placed, and the triggers agree with it. -/
structure Attentive (duel : Duel) : Prop where
  placed : duel.WellPlaced
  listening : duel.Listening

theorem Change.attentive (change : Change before after) (attentive : before.Attentive) :
    after.Attentive :=
  ⟨change.wellPlaced attentive.placed, change.listening attentive.placed attentive.listening⟩

/-- What a change does to the book: the triggers of an entity start anew, one trigger is struck out,
or the book stays as it is. -/
theorem Change.triggers (change : Change before after) (attentive : before.Attentive) :
    (∃ id, Restarts before after id) ∨
      (∃ id, after.triggers = before.triggers.unregister id) ∨
        after.triggers = before.triggers := by
  obtain ⟨sound, listening⟩ := attentive
  cases change with
  | shift shift =>
      cases shift with
      | stir stir =>
          cases stir with
          | silence id => exact .inl ⟨id, restarts_silence before id⟩
          | transform known listed kind => exact .inl ⟨_, restarts_transform known⟩
          | unregister id => exact .inr (.inl ⟨id, rfl⟩)
          | _ => exact .inr (.inr rfl)
      | relocate placement known allowed room =>
          exact .inl ⟨_, restarts_relocate placement sound listening known room⟩
      | @handOver id entity owner known other =>
          exact .inl ⟨id, restarts_handOver owner sound listening known⟩
      | create owner listed instantiable => exact .inl ⟨_, restarts_create listening⟩
      | shuffle player container reordered => exact .inr (.inr rfl)
  | _ => exact .inr (.inr rfl)

theorem bare_attentive {settings : Settings} {catalogue : Catalogue}
    (begun : Duel.bare settings catalogue = .ok duel) : duel.Attentive :=
  ⟨bare_wellPlaced begun, bare_listening begun⟩

end Duel

end CardDuel
