import CardDuel.Proofs.Burials

/-!
# Health bonuses that end

A character keeps its health when a bonus to its health ends, unless the health exceeds
the new maximum: changed auras, the end of a turn and a silence see to that.  Whoever
leaves its zone takes the enchantments linked to it along without that care.  The damage
stays then, so a damaged character loses as much health as the bonus gave.
-/

namespace CardDuel

open Relation

namespace Entity

variable {entity left changed : Entity}

theorem maxHealth_keepHealth (changed entity : Entity) :
    (changed.keepHealth entity).maxHealth = changed.maxHealth := by
  unfold keepHealth
  split
  · simp only [maxHealth, setTag, Tags.get_set, enchanted, reduceCtorEq, if_false]
  · rfl

/-- The entity is as it was, or it was changed and its health was seen to. -/
def Tended (entity left : Entity) : Prop :=
  left = entity ∨ ∃ changed : Entity, changed.kind = entity.kind ∧ left = changed.keepHealth entity

theorem tended_withAura (entity : Entity) (total : AuraTotal) :
    entity.Tended (entity.withAura total) := by
  unfold withAura
  split
  · exact .inl rfl
  · refine .inr ⟨_, ?_, rfl⟩
    rfl

theorem tended_expire (entity : Entity) : entity.Tended entity.expire := by
  unfold expire
  split
  · refine .inr ⟨_, ?_, rfl⟩
    rfl
  · exact .inl rfl

theorem tended_silence (entity : Entity) : entity.Tended entity.silence := by
  unfold silence
  refine .inr ⟨_, ?_, rfl⟩
  rfl

/-- A character whose health was seen to keeps it, or falls to its new maximum. -/
theorem Tended.health (tended : entity.Tended left) (character : entity.isCharacter = true)
    (alive : 0 < entity.health) (lower : left.maxHealth < entity.maxHealth) :
    left.health = min entity.health left.maxHealth := by
  rcases tended with rfl | ⟨changed, kind, rfl⟩
  · omega
  rw [maxHealth_keepHealth] at lower
  have still : changed.isCharacter = true := by
    unfold isCharacter
    rw [kind]
    exact character
  have set : changed.keepHealth entity = changed.setTag .damage
      (max (changed.maxHealth - min entity.health changed.maxHealth) 0) :=
    if_pos ⟨lower, alive, still⟩
  have damage (value : Int) : (changed.setTag .damage value).damage = value := by
    simp only [Entity.damage, setTag, Tags.get_set, if_true]
  unfold Entity.health
  rw [maxHealth_keepHealth, set, damage]
  change changed.maxHealth - max (changed.maxHealth - min entity.health changed.maxHealth) 0 =
    min entity.health changed.maxHealth
  omega

end Entity

theorem Play.silence_eq {duel : Duel} {id : EntityId} {entity : Entity}
    (known : duel.entity? id = some entity) :
    Play.silence id duel = .ok () ((duel.updateEntity id Entity.silence).dropTriggers id) := by
  have changed : Play.change id Entity.silence duel =
      .ok () (duel.updateEntity id Entity.silence) :=
    Play.bind_of_ok (Play.lookup_of_entity? known)
  exact Play.bind_of_ok changed

theorem Play.exists_of_silence {before after : Duel} {id : EntityId}
    (ran : Play.silence id before = .ok () after) :
    ∃ entity, before.entity? id = some entity ∧
      after = (before.updateEntity id Entity.silence).dropTriggers id := by
  have silences : (Play.silence id).Ensures before fun _ left =>
      ∃ entity, before.entity? id = some entity ∧
        left = (before.updateEntity id Entity.silence).dropTriggers id := by
    unfold Play.silence Play.change
    rw [Play.Ensures, Play.yields_bind, Play.yields_bind, Play.yields_lookup]
    exact ⟨fun entity known => ⟨entity, known, rfl⟩, fun _ => trivial⟩
  exact silences.of_ok ran

namespace Duel

variable {before after : Duel} {id creator : EntityId} {entity left : Entity} {departs : Bool}

/-- What may take a bonus to its health from an entity; the flag tells whether that comes of
somebody who leaves its zone. -/
inductive Withdraws (before : Duel) : Bool → Duel → Prop
  | auras : before.Withdraws false before.updateAuras
  | expire : before.Withdraws false before.expireEnchantments
  | silence {after : Duel} {target : EntityId}
      (ran : Play.silence target before = .ok () after) : before.Withdraws false after
  | move {after : Duel} {creator : EntityId} {goal : ZoneKind} {placement : Placement}
      {moved : Bool} (ran : Play.move creator goal placement before = .ok moved after) :
      before.Withdraws true after
  | giveTo {after : Duel} {creator : EntityId} {owner : Player}
      (ran : Play.giveTo creator owner before = .ok () after) : before.Withdraws true after

theorem Withdraws.tended (withdraws : before.Withdraws false after)
    (known : before.entity? id = some entity) (knownAfter : after.entity? id = some left) :
    entity.Tended left := by
  cases withdraws with
  | auras =>
      rw [entity?_updateAuras, known] at knownAfter
      cases knownAfter
      exact entity.tended_withAura _
  | expire =>
      have expired : before.expireEnchantments.entity? id = (before.entity? id).map Entity.expire :=
        Arena.get?_updateAll ..
      rw [expired, known] at knownAfter
      cases knownAfter
      exact entity.tended_expire
  | @silence _ target ran =>
      obtain ⟨-, -, rfl⟩ := Play.exists_of_silence ran
      change (before.updateEntity target Entity.silence).entity? id = some left at knownAfter
      rw [entity?_updateEntity, known] at knownAfter
      split at knownAfter
      · cases knownAfter
        exact entity.tended_silence
      · cases knownAfter
        exact .inl rfl

/-- What an entity leaves behind does not touch the damage of another one. -/
theorem damage_of_bereave {mover : Entity}
    (bodies : after.body? id = (before.body? id).map (bereave creator mover))
    (known : before.entity? id = some entity) (knownAfter : after.entity? id = some left) :
    left.damage = entity.damage := by
  rw [body?_of_entity? known, body?_of_entity? knownAfter] at bodies
  have same : left.body = bereave creator mover entity.body := Option.some.inj bodies
  have tags : left.body.tags = entity.body.tags := by
    rw [same]
    unfold bereave
    split <;> rfl
  exact congrArg (Tags.get · .damage) tags

theorem Withdraws.damage_eq (withdraws : before.Withdraws true after) (sound : before.WellPlaced)
    (known : before.entity? id = some entity) (knownAfter : after.entity? id = some left)
    (stays : left.zone = .play) : left.damage = entity.damage := by
  have still (same : after = before) : left.damage = entity.damage := by
    rw [same, known] at knownAfter
    cases knownAfter
    rfl
  cases withdraws with
  | @move _ creator goal placement moved ran =>
      have moves : (Play.move creator goal placement).Ensures before fun _ after =>
          after = before ∨ ∃ mover, before.entity? creator = some mover ∧
            (usesSlot mover.kind goal = true ∨ mover.zone = goal ∨
              before.zones.isFull mover.owner goal = false) ∧
              after = before.relocate creator mover goal placement := by
        rw [Play.Ensures, Play.yields_move]
        exact ⟨fun _ => trivial, fun mover here => ⟨fun _ => trivial, fun _ =>
          ⟨fun _ => .inl rfl, fun room => .inr ⟨mover, here, not_turnsAway_iff.mp room, rfl⟩⟩⟩⟩
      rcases moves.of_ok ran with same | ⟨mover, here, room, rfl⟩
      · exact still same
      by_cases itself : id = creator
      · -- Whoever moves and is in play then has not become a new copy of its card.
        subst itself
        cases known.symm.trans here
        have posted : (before.relocate id entity goal placement).table.post? id = _ :=
          post?_relocate placement sound known room
        rw [post?_of_entity? knownAfter, if_pos rfl] at posted
        have inPlay : goal = .play := by
          rw [← stays]
          exact (congrArg Post.zone (Option.some.inj posted)).symm
        have bodies := body?_relocate known goal placement id
        rw [body?_of_entity? knownAfter, if_pos rfl, inPlay] at bodies
        have tags : left.body.tags = (before.partedBody .play entity).tags :=
          congrArg Entity.tags (Option.some.inj bodies)
        have kept : (before.partedBody .play entity).tags = entity.tags := by
          unfold partedBody
          split <;> rfl
        exact congrArg (Tags.get · .damage) (tags.trans kept)
      · have bodies := body?_relocate here goal placement id
        rw [if_neg itself] at bodies
        exact damage_of_bereave bodies known knownAfter
  | @giveTo _ creator owner ran =>
      have gives : (Play.giveTo creator owner).Ensures before fun _ after =>
          after = before ∨ ∃ giver, before.entity? creator = some giver ∧
            after = (before.leaveZone creator .unplaced).updateEntity creator fun entity =>
              { entity with owner := owner } := by
        unfold Play.giveTo
        rw [Play.Ensures, Play.yields_bind, Play.yields_lookup]
        refine ⟨fun giver here => ?_, fun _ => trivial⟩
        split
        · exact .inl rfl
        · exact .inr ⟨giver, here, rfl⟩
      rcases gives.of_ok ran with same | ⟨giver, here, rfl⟩
      · exact still same
      by_cases itself : id = creator
      · subst itself
        have posted := post?_of_entity? knownAfter
        rw [post?_handOver owner sound here, if_pos rfl] at posted
        cases stays.symm.trans (congrArg Post.zone (Option.some.inj posted)).symm
      · have bodies := body?_leaveZone here .unplaced id
        rw [if_neg itself] at bodies
        rw [entity?_updateEntity, if_neg itself] at knownAfter
        exact damage_of_bereave bodies known knownAfter

/-- A character in play that loses a bonus to its health, but neither its life nor its maximum, has
afterwards the lesser of its health and its new maximum, exactly if it was not damaged or nobody
leaving its zone took the bonus along. -/
theorem health_of_withdraws {settings : Settings} {catalogue : Catalogue} {start : Duel}
    (created : Duel.create settings catalogue = .ok start)
    (reaches : ReflTransGen Change start before) (withdraws : before.Withdraws departs after)
    (known : before.entity? id = some entity) (knownAfter : after.entity? id = some left)
    (character : entity.isCharacter = true) (stays : left.zone = .play) (alive : 0 < entity.health)
    (lower : left.maxHealth < entity.maxHealth) (positive : 0 < left.maxHealth) :
    (left.health = min entity.health left.maxHealth ↔ departs = false ∨ entity.damage = 0) ∧
      (departs = false ∨ entity.damage = 0 → 0 < left.health) ∧
        (departs = true → left.health = entity.health - (entity.maxHealth - left.maxHealth)) := by
  cases departs with
  | false =>
      have kept := (withdraws.tended known knownAfter).health character alive lower
      refine ⟨iff_of_true kept (.inl rfl), fun _ => ?_, nofun⟩
      omega
  | true =>
      obtain ⟨sound, -⟩ := sound_of_reaches created reaches
      have damage := withdraws.damage_eq sound known knownAfter stays
      have health : entity.health = entity.maxHealth - entity.damage := rfl
      have sunk : left.health = left.maxHealth - left.damage := rfl
      refine ⟨⟨fun least => .inr ?_, fun spared => ?_⟩, fun spared => ?_, fun _ => ?_⟩
      · omega
      · have whole := spared.resolve_left nofun
        omega
      · have whole := spared.resolve_left nofun
        omega
      · omega

/-- Whether a living character in play has a lower maximum in the second duel, and still some. -/
def lowers (before after : Duel) (id : EntityId) : Bool :=
  (before.entity? id).any fun entity => (after.entity? id).any fun left =>
    entity.isCharacter && left.zone = .play && 0 < entity.health &&
      left.maxHealth < entity.maxHealth && 0 < left.maxHealth

theorem exists_of_lowers (lowers : before.lowers after id = true) :
    ∃ entity left, before.entity? id = some entity ∧ after.entity? id = some left ∧
      entity.isCharacter = true ∧ left.zone = .play ∧ 0 < entity.health ∧
        left.maxHealth < entity.maxHealth ∧ 0 < left.maxHealth := by
  unfold Duel.lowers at lowers
  simp only [Option.any_eq_true, Bool.and_eq_true, decide_eq_true_eq] at lowers
  obtain ⟨entity, known, left, knownAfter, ⟨⟨⟨character, stays⟩, alive⟩, lower⟩, positive⟩ := lowers
  exact ⟨entity, left, known, knownAfter, character, stays, alive, lower, positive⟩

/-- The calls that bring two blessed and wounded wisps and their saint into play. -/
def blessing : List Call :=
  [.start, .take .zero (.play ⟨7⟩), .take .zero (.play ⟨6⟩), .take .zero (.play ⟨5⟩)]

/-- A wisp that is silenced loses its blessing and keeps its health. -/
theorem health_of_withdraws_saints :
    ∃ start before after entity left, Duel.create Settings.saints Catalogue.saints = .ok start ∧
      ReflTransGen Change start before ∧ before.Withdraws false after ∧
        before.entity? ⟨7⟩ = some entity ∧ after.entity? ⟨7⟩ = some left ∧
          entity.isCharacter = true ∧ left.zone = .play ∧ 0 < entity.health ∧
            left.maxHealth < entity.maxHealth ∧ 0 < left.maxHealth ∧
              left.health = min entity.health left.maxHealth ∧ 0 < left.health := by
  obtain ⟨start, before, created, runs, comes⟩ :=
    exists_of_outcome Settings.saints Catalogue.saints 100 blessing
      (fun before => before.lowers ((before.updateEntity ⟨7⟩ Entity.silence).dropTriggers ⟨7⟩) ⟨7⟩)
      (by decide +kernel)
  obtain ⟨entity, left, known, knownAfter, character, stays, alive, lower, positive⟩ :=
    exists_of_lowers comes
  have reaches := reaches_of_runs runs
  have withdraws := Withdraws.silence (Play.silence_eq known)
  obtain ⟨least, lives, -⟩ := health_of_withdraws created reaches withdraws known knownAfter
    character stays alive lower positive
  exact ⟨start, before, _, entity, left, created, reaches, withdraws, known, knownAfter, character,
    stays, alive, lower, positive, least.mpr (.inl rfl), lives (.inl rfl)⟩

/-- When the saint leaves play, a wounded wisp loses its blessing and is dead. -/
theorem not_spared_saints :
    ∃ start before after entity left, Duel.create Settings.saints Catalogue.saints = .ok start ∧
      ReflTransGen Change start before ∧
        Play.move ⟨5⟩ .graveyard .top before = .ok true after ∧
          before.entity? ⟨7⟩ = some entity ∧ after.entity? ⟨7⟩ = some left ∧
            entity.isCharacter = true ∧ entity.zone = .play ∧ left.zone = .play ∧
              0 < entity.health ∧ left.maxHealth < entity.maxHealth ∧ 0 < left.maxHealth ∧
                left.health ≠ min entity.health left.maxHealth ∧ ¬ 0 < left.health := by
  obtain ⟨start, before, created, runs, comes⟩ :=
    exists_of_outcome Settings.saints Catalogue.saints 100 blessing
      (fun before => (before.entity? ⟨5⟩).any fun saint =>
        let after := before.relocate ⟨5⟩ saint .graveyard .top
        before.lowers after ⟨7⟩ && ((before.entity? ⟨7⟩).any fun wisp => wisp.zone = .play) &&
          (after.entity? ⟨7⟩).any fun wisp => wisp.health ≤ 0)
      (by decide +kernel)
  simp only [Option.any_eq_true, Bool.and_eq_true, decide_eq_true_eq] at comes
  obtain ⟨saint, held, ⟨lowers, wisp, there, inPlay⟩, dead, gone, fell⟩ := comes
  obtain ⟨entity, left, known, knownAfter, character, stays, alive, lower, positive⟩ :=
    exists_of_lowers lowers
  rw [Option.some.inj (there.symm.trans known)] at inPlay
  rw [Option.some.inj (gone.symm.trans knownAfter)] at fell
  have reaches := reaches_of_runs runs
  obtain ⟨sound, -⟩ := sound_of_reaches created reaches
  have leaves : (Play.move ⟨5⟩ .graveyard .top).Yields before
      (fun moved after => moved = true ∧ after = before.relocate ⟨5⟩ saint .graveyard .top)
      fun _ => False :=
    Play.yields_move_of_room held nofun (sound.roomInGraveyard saint) ⟨rfl, rfl⟩
  obtain ⟨moved, after, ran, rfl, rfl⟩ := leaves.exists_ok
  refine ⟨start, before, _, entity, left, created, reaches, ran, known, knownAfter, character,
    inPlay, stays, alive, lower, positive, ?_, ?_⟩
  · omega
  · omega

end Duel
end CardDuel
