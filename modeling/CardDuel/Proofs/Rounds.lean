import CardDuel.Proofs.Arrivals
import CardDuel.Proofs.Bodies
import Mathlib.Algebra.Ring.Int.Defs

/-!
# Rounds of settling

A round buries the dead of the table and then brings the auras up to date.  Burying
somebody takes the enchantments linked to it from the others without a look at the health
that is left to them, so a round that nobody was to die in afterwards can leave new dead.
-/

namespace CardDuel

open Relation

/-- Whether an enchantment goes when these creators leave play. -/
def Enchantment.goesWith (creators : List EntityId) (enchantment : Enchantment) : Bool :=
  enchantment.effect.linked && creators.contains enchantment.creator

namespace Entity

variable {entity : Entity} {creators : List EntityId} {id : EntityId} {total : AuraTotal}

/-- Drop the enchantments that are linked to any of the creators. -/
def unlinkAll (creators : List EntityId) (entity : Entity) : Entity :=
  { entity with enchantments := entity.enchantments.filter fun e => !e.goesWith creators }

/-- The health that enchantments linked to the creators give. -/
def linkedHealth (creators : List EntityId) (entity : Entity) : Int :=
  ((entity.enchantments.filter (Enchantment.goesWith creators)).map (·.effect.health)).sum

theorem unlinkAll_nil (entity : Entity) : entity.unlinkAll [] = entity := by
  simp [unlinkAll, Enchantment.goesWith]

theorem unlinkAll_unlink (entity : Entity) :
    (entity.unlink id).unlinkAll creators = entity.unlinkAll (id :: creators) := by
  simp only [unlinkAll, unlink, List.filter_filter, Entity.mk.injEq, true_and, and_true]
  apply List.filter_congr
  intro enchantment _
  by_cases linked : enchantment.effect.linked
  · simp [Enchantment.goesWith, linked, Bool.and_comm, BEq.beq]
  · simp [Enchantment.goesWith, linked]

theorem maxHealth_unlinkAll :
    (entity.unlinkAll creators).maxHealth = entity.maxHealth - entity.linkedHealth creators := by
  have split (enchantments : List Enchantment) :
      ((enchantments.filter fun e => !e.goesWith creators).map (·.effect.health)).sum =
        (enchantments.map (·.effect.health)).sum -
          ((enchantments.filter (Enchantment.goesWith creators)).map (·.effect.health)).sum := by
    induction enchantments with
    | nil => rfl
    | cons enchantment enchantments ih =>
        cases goes : enchantment.goesWith creators with
        | true =>
            simp only [List.filter_cons, goes, Bool.not_true, Bool.false_eq_true, if_false, if_true,
              List.map_cons, List.sum_cons, ih]
            omega
        | false =>
            simp only [List.filter_cons, goes, Bool.not_false, Bool.false_eq_true, if_false,
              if_true, List.map_cons, List.sum_cons, ih]
            omega
  have total := split entity.enchantments
  change entity.tags.get .health +
      ((entity.enchantments.filter fun e => !e.goesWith creators).map (·.effect.health)).sum +
        entity.aura.health =
    entity.tags.get .health + (entity.enchantments.map (·.effect.health)).sum +
      entity.aura.health - entity.linkedHealth creators
  unfold linkedHealth
  omega

theorem health_unlinkAll :
    (entity.unlinkAll creators).health = entity.health - entity.linkedHealth creators := by
  have damage : (entity.unlinkAll creators).damage = entity.damage := rfl
  unfold health
  rw [maxHealth_unlinkAll, damage]
  omega

/-- Whether health that a character has left, and may have, does not outlast a change of auras. -/
def Sinks (health maximum swing : Int) : Prop :=
  if health ≤ 0 then health + swing ≤ 0 else swing < 0 ∧ maximum + swing ≤ 0

/-- Auras that give less only kill who is left without a maximum, and auras that give more can
save. -/
theorem health_withAura_iff (character : entity.isCharacter = true) (total : AuraTotal) :
    (entity.withAura total).health ≤ 0 ↔
      Sinks entity.health entity.maxHealth (total.health - entity.aura.health) := by
  let reached : Entity := { entity with aura := total }
  have maximum : reached.maxHealth = entity.maxHealth + (total.health - entity.aura.health) := by
    simp only [maxHealth, reached, enchanted]
    omega
  have health : reached.health = entity.health + (total.health - entity.aura.health) := by
    have damage : reached.damage = entity.damage := rfl
    unfold Entity.health
    rw [maximum, damage]
    omega
  unfold Sinks withAura
  by_cases same : total = entity.aura
  · rw [if_pos same, same]
    split <;> omega
  rw [if_neg same]
  change (reached.keepHealth entity).health ≤ 0 ↔ _
  unfold keepHealth
  by_cases drops : reached.maxHealth < entity.maxHealth ∧ 0 < entity.health ∧ reached.isCharacter
  · -- The damage is set so that the health stays, unless the maximum is below it.
    rw [if_pos drops]
    have kept (value : Int) :
        (reached.setTag .damage value).health = reached.maxHealth - value := by
      simp only [Entity.health, maxHealth, setTag, damage, Tags.get_set, enchanted, reduceCtorEq,
        if_false, if_true]
    rw [kept]
    split <;> omega
  · rw [if_neg drops]
    have still : ¬ (reached.maxHealth < entity.maxHealth ∧ 0 < entity.health) := fun both =>
      drops ⟨both.1, both.2, character⟩
    rw [health]
    split <;> omega

theorem isCharacter_of_kind (kind : entity.kind = .minion ∨ entity.kind = .hero) :
    entity.isCharacter = true := by
  unfold isCharacter
  rcases kind with minion | hero
  · rw [minion]
    rfl
  · rw [hero]
    rfl

theorem isDead_iff_of_character (character : entity.isCharacter = true) :
    entity.isDead = true ↔ entity.destroyed = true ∨ entity.health ≤ 0 := by
  unfold isDead
  cases kind : entity.kind with
  | hero => simp
  | minion => simp
  | _ => simp [isCharacter, kind, EntityKind.isCharacter] at character

/-- Losing everything that is linked to the creators and having its auras changed is the end of a
character. -/
def Succumbs (entity : Entity) (creators : List EntityId) (total : AuraTotal) : Prop :=
  Sinks (entity.health - entity.linkedHealth creators)
    (entity.maxHealth - entity.linkedHealth creators) (total.health - entity.aura.health)

theorem kind_withAura (entity : Entity) (total : AuraTotal) :
    (entity.withAura total).kind = entity.kind :=
  congrArg Seat.kind (entity.seat_withAura total)

theorem destroyed_withAura (entity : Entity) (total : AuraTotal) :
    (entity.withAura total).destroyed = entity.destroyed := by
  unfold withAura keepHealth
  split
  · rfl
  · split <;> rfl

theorem aura_withAura (entity : Entity) (total : AuraTotal) :
    (entity.withAura total).aura = total := by
  unfold withAura keepHealth
  split
  next same => exact same.symm
  · split <;> rfl

theorem isDead_body (entity : Entity) : entity.body.isDead = entity.isDead :=
  rfl

/-- Auras act on the body. -/
theorem body_withAura (entity : Entity) (total : AuraTotal) :
    (entity.withAura total).body = entity.body.withAura total := by
  have health : entity.body.health = entity.health := rfl
  unfold withAura keepHealth
  by_cases same : total = entity.aura
  · rw [if_pos same]
    exact (if_pos same).symm
  · rw [if_neg same]
    refine Eq.trans ?_ (if_neg same).symm
    split
    next drops => exact (if_pos drops).symm
    next still => exact (if_neg still).symm

theorem isDead_round_iff (character : entity.isCharacter = true) (creators : List EntityId)
    (total : AuraTotal) :
    ((entity.unlinkAll creators).withAura total).isDead = true ↔
      entity.destroyed = true ∨ entity.Succumbs creators total := by
  have still : (entity.unlinkAll creators).isCharacter = true := character
  have kept : ((entity.unlinkAll creators).withAura total).isCharacter = true := by
    unfold isCharacter
    rw [kind_withAura]
    exact character
  rw [isDead_iff_of_character kept, destroyed_withAura, health_withAura_iff still,
    health_unlinkAll, maxHealth_unlinkAll]
  rfl

/-- Neither matters to a weapon. -/
theorem isDead_round_of_weapon (weapon : entity.kind = .weapon) (creators : List EntityId)
    (total : AuraTotal) :
    ((entity.unlinkAll creators).withAura total).isDead = entity.isDead := by
  have noCharacter : entity.isCharacter = false := by
    rw [isCharacter, weapon]
    rfl
  have tags : ((entity.unlinkAll creators).withAura total).tags = entity.tags := by
    unfold withAura keepHealth
    split
    · rfl
    · rw [if_neg]
      · rfl
      · rintro ⟨-, -, character⟩
        cases noCharacter.symm.trans character
  have kind := kind_withAura (entity.unlinkAll creators) total
  change ((entity.unlinkAll creators).withAura total).kind = entity.kind at kind
  unfold isDead durability
  rw [kind, weapon, destroyed_withAura, tags]
  rfl

end Entity

namespace Duel

variable {before mid after : Duel} {ids : List EntityId} {id : EntityId}

/-! ## Burying -/

/-- What the burial of some entities in play has done. -/
structure Buries (before : Duel) (ids : List EntityId) (after : Duel) : Prop where
  sound : after.WellPlaced
  posts : ∀ other, after.table.post? other =
    if other ∈ ids then (before.table.post? other).map fun post => { post with zone := .graveyard }
    else before.table.post? other
  bodies : ∀ other, other ∉ ids →
    after.body? other = (before.body? other).map (Entity.unlinkAll ids)
  /-- Slots are at most emptied. -/
  slots : ∀ player slot holder, (after.table.slots player).holder? slot = some holder →
    (before.table.slots player).holder? slot = some holder

theorem buries_nil (sound : before.WellPlaced) : before.Buries [] before where
  sound := sound
  posts other := (if_neg List.not_mem_nil).symm
  bodies other _ := by
    have same : Entity.unlinkAll [] = id := funext Entity.unlinkAll_nil
    rw [same, Option.map_id, id]
  slots _ _ _ := id

theorem Buries.cons (first : before.Buries [id] mid) (rest : mid.Buries ids after)
    (fresh : id ∉ ids) : before.Buries (id :: ids) after where
  sound := rest.sound
  posts other := by
    rw [rest.posts, first.posts]
    by_cases here : other = id
    · rw [here, if_neg fresh, if_pos (List.mem_singleton_self id), if_pos List.mem_cons_self]
    · rw [if_neg (List.mem_singleton.not.mpr here)]
      exact if_congr (by simp [here]) rfl rfl
  bodies other absent := by
    obtain ⟨apart, absent⟩ := not_or.mp (List.mem_cons.not.mp absent)
    rw [rest.bodies other absent, first.bodies other (List.mem_singleton.not.mpr apart),
      Option.map_map]
    congr 1
    funext entity
    have single : entity.unlinkAll [id] = entity.unlink id := by
      rw [← Entity.unlinkAll_unlink, Entity.unlinkAll_nil]
    rw [Function.comp_apply, single, Entity.unlinkAll_unlink]
  slots player slot holder holds :=
    first.slots player slot holder (rest.slots player slot holder holds)

/-- Scheduling work does not matter to what was buried. -/
theorem Buries.scheduling (buries : before.Buries ids after) (agenda : Agenda) :
    before.Buries ids { after with agenda := agenda } where
  sound := buries.sound.congr rfl rfl
  posts := buries.posts
  bodies := buries.bodies
  slots := buries.slots

theorem ensures_sendToGraveyard {post : Post} (sound : before.WellPlaced)
    (posted : before.table.post? id = some post) (inPlay : post.zone = .play) :
    (Play.send id .graveyard).Ensures before fun _ left => before.Buries [id] left := by
  obtain ⟨entity, known, owner, kind, zone⟩ := exists_of_post? posted
  have allowed : ¬ (entity.kind = .spell ∧ ZoneKind.graveyard = .play) := nofun
  have room := sound.roomInGraveyard entity
  apply Play.Ensures.discard
  refine Play.yields_move_of_room known allowed room ?_
  refine ⟨relocate_wellPlaced .top sound known room, fun other => ?_, fun other apart => ?_,
    fun player slot holder holds => ?_⟩
  · rw [post?_relocate .top sound known room]
    by_cases same : other = id
    · rw [if_pos same, if_pos (List.mem_singleton.mpr same), same, posted, owner, kind]
      rfl
    · rw [if_neg same, if_neg (List.mem_singleton.not.mpr same)]
  · have bereaved : bereave id entity = Entity.unlinkAll [id] := by
      funext other
      rw [← Entity.unlinkAll_unlink, Entity.unlinkAll_nil]
      exact if_pos (zone.trans inPlay)
    rw [body?_relocate known, if_neg (List.mem_singleton.not.mp apart), bereaved]
  · rw [holder?_relocate .top allowed, if_neg (by simp [usesSlot]),
      holder?_leaveZone sound.placed known] at holds
    split at holds
    · cases holds
    · exact holds

/-- Burying one entity that is in play. -/
theorem ensures_bury {post : Post} (sound : before.WellPlaced)
    (posted : before.table.post? id = some post) (inPlay : post.zone = .play) :
    (Play.bury id).Ensures before fun _ left => before.Buries [id] left := by
  unfold Play.bury
  rw [Play.Ensures, Play.yields_bind, Play.yields_lookup]
  refine ⟨fun entity _ => ?_, fun _ => trivial⟩
  refine (ensures_sendToGraveyard sound posted inPlay).bind fun _ left buried => ?_
  -- What is left is to schedule the deathrattle, if there is one, and the reactions.
  dsimp only
  split
  · exact buried.scheduling _
  · split
    · exact buried.scheduling _
    · exact (buried.scheduling _).scheduling _

/-- Burying entities in play, one after the other. -/
theorem ensures_burials (nodup : ids.Nodup) (sound : before.WellPlaced)
    (inPlay : ∀ id ∈ ids, ∃ post, before.table.post? id = some post ∧ post.zone = .play) :
    (ids.forM Play.bury).Ensures before fun _ left => before.Buries ids left := by
  induction ids generalizing before with
  | nil => exact buries_nil sound
  | cons id ids ih =>
      obtain ⟨fresh, nodup⟩ := List.nodup_cons.mp nodup
      obtain ⟨post, posted, there⟩ := inPlay id List.mem_cons_self
      refine (ensures_bury sound posted there).bind fun _ mid first => ?_
      refine (ih nodup first.sound fun other member => ?_).mono fun _ left rest =>
        first.cons rest fresh
      rw [first.posts, if_neg]
      · exact inPlay other (List.mem_cons_of_mem id member)
      · rintro here
        rw [List.mem_singleton.mp here] at member
        exact fresh member

/-! ## The death pass -/

/-- Whoever leaves in the next death pass, in this order. -/
def fallen (duel : Duel) : List EntityId :=
  duel.deadMinions.map Prod.fst ++ duel.deadWeapons

theorem WellPlaced.mem_field_iff (sound : before.WellPlaced) (player : Player) (id : EntityId) :
    id ∈ before.field player ↔ before.table.post? id = some ⟨player, .minion, .play⟩ := by
  refine (sound.placed.mem_iff player .play id).trans ⟨?_, fun posted => ?_⟩
  · rintro ⟨-, seat, seated, contained, rfl, zone⟩
    rw [Table.post?, seated, Option.map_some, Seat.post, contained.2 zone, zone]
  · obtain ⟨entity, known, owner, kind, zone⟩ := exists_of_post? posted
    have container : entity.zone.IsContainer := by
      rw [show entity.zone = .play from zone]
      decide
    exact ⟨Option.some_ne_none id, entity.seat, seat?_of_entity? known,
      ⟨container, fun _ => kind⟩, owner, zone⟩

theorem mem_turnOrder (duel : Duel) (player : Player) : player ∈ duel.turnOrder := by
  unfold turnOrder
  cases duel.current <;> cases player <;> decide

theorem deadMinions_eq (duel : Duel) : duel.deadMinions.map Prod.fst =
    duel.turnOrder.flatMap fun player => (duel.field player).filter duel.isDead := by
  have places (row : List EntityId) :
      (row.zipIdx.filter fun entry => duel.isDead entry.1).map Prod.fst =
        row.filter duel.isDead := by
    rw [← Function.comp_def duel.isDead Prod.fst, ← List.filter_map, List.zipIdx_map_fst]
  unfold deadMinions
  rw [List.map_flatMap]
  simp only [places]

/-- Who is among the fallen. -/
theorem mem_fallen_iff : id ∈ before.fallen ↔ before.isDead id = true ∧
    ∃ player, id ∈ before.field player ∨ before.weapon player = some id := by
  unfold fallen deadWeapons
  rw [deadMinions_eq]
  simp only [List.mem_append, List.mem_flatMap, List.mem_filter, mem_turnOrder, true_and,
    Option.mem_toList]
  constructor
  · rintro (⟨player, stands, dead⟩ | ⟨player, held, dead⟩)
    · exact ⟨dead, player, .inl stands⟩
    · exact ⟨dead, player, .inr held⟩
  · rintro ⟨dead, player, stands | held⟩
    · exact .inl ⟨player, stands, dead⟩
    · exact .inr ⟨player, held, dead⟩

/-- The weapon slots name weapons of their players that are in play. -/
def Armed (duel : Duel) : Prop :=
  ∀ player id, duel.weapon player = some id →
    duel.table.post? id = some ⟨player, .weapon, .play⟩

theorem nodup_fallen (sound : before.WellPlaced) (armed : before.Armed) : before.fallen.Nodup := by
  have order : before.turnOrder.Nodup := by
    unfold turnOrder
    cases before.current <;> decide
  -- The post of an entity tells whose list it is in, and in which of the two.
  have apart {row : Player → List EntityId} {kind : EntityKind}
      (posted : ∀ player, ∀ id ∈ row player,
        before.table.post? id = some ⟨player, kind, .play⟩)
      (nodup : ∀ player, (row player).Nodup) :
      (before.turnOrder.flatMap fun player => (row player).filter before.isDead).Nodup := by
    refine List.nodup_flatMap.mpr ⟨fun player _ => (nodup player).filter _, ?_⟩
    refine order.imp fun {player other} away => ?_
    intro id here there
    have first := posted player id (List.mem_of_mem_filter here)
    have second := posted other id (List.mem_of_mem_filter there)
    rw [first] at second
    exact away (congrArg Post.owner (Option.some.inj second))
  have minions (player : Player) (id : EntityId) (stands : id ∈ before.field player) :=
    (sound.mem_field_iff player id).mp stands
  have weapons (player : Player) (id : EntityId) (held : id ∈ (before.weapon player).toList) :=
    armed player id (Option.mem_toList.mp held)
  unfold fallen deadWeapons
  rw [deadMinions_eq]
  refine List.nodup_append.mpr ⟨apart minions fun player => sound.placed.nodup player .play,
    apart weapons fun player => ?_, ?_⟩
  · cases before.weapon player <;> simp
  · rintro id stands other held rfl
    simp only [List.mem_flatMap, List.mem_filter] at stands held
    obtain ⟨player, -, stands, -⟩ := stands
    obtain ⟨other, -, held, -⟩ := held
    have first := minions player id stands
    rw [weapons other id held] at first
    cases first

/-- Noting where the fallen stood changes the bodies of nobody else. -/
theorem body?_markFallen (duel : Duel) (fallen : List (EntityId × Nat))
    (spared : id ∉ fallen.map Prod.fst) : (duel.markFallen fallen).body? id = duel.body? id := by
  induction fallen generalizing duel with
  | nil => rfl
  | cons entry fallen ih =>
      rw [List.map_cons, List.mem_cons, not_or] at spared
      let marked := duel.updateEntity entry.1 fun entity =>
        { entity with lastBoardPosition := entry.2 }
      calc (duel.markFallen (entry :: fallen)).body? id
        _ = (marked.markFallen fallen).body? id := rfl
        _ = marked.body? id := ih marked spared.2
        _ = duel.body? id := by rw [body?, entity?_updateEntity, if_neg spared.1, body?]

/-- A death pass after which the match goes on has buried the fallen and left no hero dead. -/
theorem ensures_processDeaths_buries (sound : before.WellPlaced) (armed : before.Armed) :
    Play.processDeaths.Ensures before fun _ mid =>
      mid.isOver = true ∨ before.Buries before.fallen mid ∧ mid.defeated = [] := by
  unfold Play.processDeaths
  apply Play.ensures_get_bind.mpr
  split
  next ended => exact .inl ended
  let marked := before.markFallen before.deadMinions
  have table : marked.table = before.table := table_markFallen before before.deadMinions
  have soundMarked : marked.WellPlaced := sound.congr table rfl
  have inPlay : ∀ id ∈ before.fallen,
      ∃ post, marked.table.post? id = some post ∧ post.zone = .play := by
    intro id member
    rw [table]
    obtain ⟨-, player, stands | held⟩ := mem_fallen_iff.mp member
    · exact ⟨_, (sound.mem_field_iff player id).mp stands, rfl⟩
    · exact ⟨_, armed player id held, rfl⟩
  refine Play.ensures_bind.mpr ?_
  change Play.Ensures _ marked _
  refine (ensures_burials (nodup_fallen sound armed) soundMarked inPlay).bind fun _ mid buries => ?_
  have all : before.Buries before.fallen mid := by
    refine ⟨buries.sound, fun other => ?_, fun other spared => ?_, fun player slot holder => ?_⟩
    · rw [buries.posts, table]
    · rw [buries.bodies other spared, body?_markFallen]
      exact fun minion => spared (List.mem_append_left _ minion)
    · rw [← table]
      exact buries.slots player slot holder
  have ending : (modify fun duel : Duel =>
      if duel.defeated.isEmpty then duel else duel.finish duel.defeated : Play Unit).Ensures mid
        fun _ left => left = if mid.defeated.isEmpty then mid else mid.finish mid.defeated := rfl
  refine ending.mono fun _ left same => ?_
  by_cases survived : mid.defeated.isEmpty = true
  · rw [if_pos survived] at same
    rw [same]
    exact .inr ⟨all, List.isEmpty_iff.mp survived⟩
  · rw [if_neg survived] at same
    rw [same]
    exact .inl rfl

/-! ## Who is dead after a round -/

/-- One round of settling. -/
def Rounds (before after : Duel) : Prop :=
  ∃ mid, Play.processDeaths before = .ok () mid ∧ after = mid.updateAuras

/-- Nobody on the table is dead. -/
structure Quiescent (duel : Duel) : Prop where
  minions : ∀ player, ∀ id ∈ duel.field player, duel.isDead id = false
  weapons : ∀ player id, duel.weapon player = some id → duel.isDead id = false
  heroes : ∀ player, duel.isDead (duel.hero player) = false

/-- A character that stands on the table after a round does not get over it: what the fallen take
along and what the auras now give leaves it without health. -/
def Overwhelms (before after : Duel) (id : EntityId) : Prop :=
  ∃ entity left, before.entity? id = some entity ∧ after.entity? id = some left ∧
    entity.Succumbs before.fallen left.aura

theorem entity?_updateAuras (duel : Duel) (id : EntityId) :
    duel.updateAuras.entity? id =
      (duel.entity? id).map fun entity => entity.withAura (totalFor duel.contributions id) :=
  Arena.get?_updateAll ..

theorem isDead_of_entity? {duel : Duel} {entity : Entity} (known : duel.entity? id = some entity) :
    duel.isDead id = entity.isDead := by
  unfold isDead
  rw [known]

/-- Who was not buried is after the round what the fallen have left of it, under new auras. -/
theorem Buries.after_round {entity : Entity} (buries : before.Buries before.fallen mid)
    (spared : id ∉ before.fallen) (known : before.entity? id = some entity) :
    ∃ left, mid.updateAuras.entity? id = some left ∧ left.kind = entity.kind ∧
      left.isDead = ((entity.unlinkAll before.fallen).withAura left.aura).isDead := by
  have bodies := buries.bodies id spared
  rw [body?_of_entity? known] at bodies
  obtain ⟨held, knownHeld, same⟩ := Option.map_eq_some_iff.mp bodies
  refine ⟨_, (entity?_updateAuras mid id).trans (congrArg _ knownHeld), ?_, ?_⟩
  · have kind : held.body.kind = (entity.body.unlinkAll before.fallen).kind := by rw [same]
    rw [Entity.kind_withAura]
    exact kind
  · rw [Entity.aura_withAura, ← Entity.isDead_body, Entity.body_withAura, same,
      ← Entity.isDead_body ((entity.unlinkAll before.fallen).withAura _), Entity.body_withAura]
    rfl

/-- A character that was not buried is dead after the round when it was marked for death or the
round overwhelms it. -/
theorem Buries.isDead_iff {entity : Entity} (buries : before.Buries before.fallen mid)
    (spared : id ∉ before.fallen) (known : before.entity? id = some entity)
    (character : entity.isCharacter = true) :
    mid.updateAuras.isDead id = true ↔
      entity.destroyed = true ∨ before.Overwhelms mid.updateAuras id := by
  obtain ⟨left, knownLeft, -, dead⟩ := buries.after_round spared known
  have overwhelms : before.Overwhelms mid.updateAuras id ↔
      entity.Succumbs before.fallen left.aura := by
    constructor
    · rintro ⟨same, same', known', knownLeft', succumbs⟩
      cases known.symm.trans known'
      cases knownLeft.symm.trans knownLeft'
      exact succumbs
    · exact fun succumbs => ⟨entity, left, known, knownLeft, succumbs⟩
  unfold isDead
  rw [overwhelms, knownLeft]
  change left.isDead = true ↔ _
  rw [dead, Entity.isDead_round_iff character]

/-- Who is in play after the burial was not among the fallen. -/
theorem Buries.not_mem_fallen {post : Post} (buries : before.Buries before.fallen mid)
    (posted : mid.table.post? id = some post) (inPlay : post.zone = .play) :
    id ∉ before.fallen := by
  intro member
  rw [buries.posts, if_pos member] at posted
  obtain ⟨old, -, rfl⟩ := Option.map_eq_some_iff.mp posted
  cases inPlay

/-- A minion on a field after the burial was alive before it. -/
theorem Buries.minion_alive {player : Player} (buries : before.Buries before.fallen mid)
    (sound : before.WellPlaced) (stands : id ∈ mid.field player) :
    id ∉ before.fallen ∧ ∃ entity, before.entity? id = some entity ∧
      entity.isCharacter = true ∧ entity.isDead = false := by
  have posted := (buries.sound.mem_field_iff player id).mp stands
  have free := buries.not_mem_fallen posted rfl
  rw [buries.posts, if_neg free] at posted
  obtain ⟨entity, known, -, kind, -⟩ := exists_of_post? posted
  refine ⟨free, entity, known, Entity.isCharacter_of_kind (.inl kind),
    Bool.eq_false_iff.mpr fun dead => free ?_⟩
  have fell : before.isDead id = true := by rw [isDead_of_entity? known, dead]
  exact mem_fallen_iff.mpr ⟨fell, player, .inl ((sound.mem_field_iff player id).mpr posted)⟩

/-- A weapon that is left in a slot is not dead after the round. -/
theorem Buries.weapon_alive {player : Player} (buries : before.Buries before.fallen mid)
    (armed : before.Armed) (armedMid : mid.Armed) (held : mid.weapon player = some id) :
    mid.updateAuras.isDead id = false := by
  have free := buries.not_mem_fallen (armedMid player id held) rfl
  have heldBefore := buries.slots player .weapon id held
  obtain ⟨entity, known, -, kind, -⟩ := exists_of_post? (armed player id heldBefore)
  obtain ⟨left, knownLeft, -, dead⟩ := buries.after_round free known
  rw [isDead_of_entity? knownLeft, dead, Entity.isDead_round_of_weapon kind, Bool.eq_false_iff]
  intro fell
  rw [← isDead_of_entity? known] at fell
  exact free (mem_fallen_iff.mpr ⟨fell, player, .inr heldBefore⟩)

/-- A hero is never among the fallen. -/
theorem not_mem_fallen_of_hero {post : Post} (sound : before.WellPlaced) (armed : before.Armed)
    (posted : before.table.post? id = some post) (hero : post.kind = .hero) :
    id ∉ before.fallen := by
  intro member
  obtain ⟨-, other, stands | held⟩ := mem_fallen_iff.mp member
  · rw [(sound.mem_field_iff other _).mp stands] at posted
    cases posted
    cases hero
  · rw [armed other _ held] at posted
    cases posted
    cases hero

/-- Who is marked for death and not buried is dead after the burial. -/
theorem Buries.isDead_of_destroyed {entity : Entity} (buries : before.Buries before.fallen mid)
    (spared : id ∉ before.fallen) (known : before.entity? id = some entity)
    (marked : entity.destroyed = true) : mid.isDead id = true := by
  have bodies := buries.bodies id spared
  rw [body?_of_entity? known] at bodies
  obtain ⟨held, knownHeld, same⟩ := Option.map_eq_some_iff.mp bodies
  have marks : held.body.destroyed = true := by
    rw [same]
    exact marked
  rw [isDead_of_entity? knownHeld, Entity.isDead, show held.destroyed = true from marks]
  rfl

/-- A hero that the burial left alive is dead when the auras overwhelm it. -/
theorem Buries.hero_isDead_iff (buries : before.Buries before.fallen mid)
    (sound : before.WellPlaced) (armed : before.Armed) (fits : before.SlotsFit)
    (undefeated : mid.defeated = []) (player : Player) :
    mid.updateAuras.isDead (mid.hero player) = true ↔
      before.Overwhelms mid.updateAuras (mid.hero player) := by
  rcases fits player .hero (mid.hero player) (buries.slots player .hero _ rfl) with
    handle | ⟨post, posted, kind⟩
  · -- The slot names the player, who is no entity.
    have nobody (duel : Duel) : duel.entity? (mid.hero player) = none :=
      Arena.get?_of_isPlayer duel.arena handle
    refine iff_of_false (fun dead => ?_) fun ⟨entity, _, known, _⟩ => ?_
    · unfold isDead at dead
      rw [nobody] at dead
      cases dead
    · cases (nobody before).symm.trans known
  · obtain ⟨entity, known, -, sort, -⟩ := exists_of_post? posted
    have free := not_mem_fallen_of_hero sound armed posted kind
    have unmarked : entity.destroyed ≠ true := fun marked =>
      List.filter_eq_nil_iff.mp undefeated player player.mem_both
        (buries.isDead_of_destroyed free known marked)
    rw [buries.isDead_iff free known (Entity.isCharacter_of_kind (.inr (sort.trans kind))),
      or_iff_right unmarked]

/-- After a round that did not end the match nobody is dead but whom it overwhelms. -/
theorem Rounds.quiescent_iff (rounds : before.Rounds after) (sound : before.WellPlaced)
    (armed : before.Armed) (armedAfter : after.Armed) (fits : before.SlotsFit)
    (running : after.isOver = false) :
    after.Quiescent ↔ ∀ player, ∀ id ∈ after.side player, ¬ before.Overwhelms after id := by
  obtain ⟨mid, ran, rfl⟩ := rounds
  obtain ⟨buries, undefeated⟩ :=
    ((ensures_processDeaths_buries sound armed).of_ok ran).resolve_left fun ended => by
      cases running.symm.trans ended
  have armedMid : mid.Armed := fun player id held => by
    rw [← (Stir.auras mid).table]
    exact armedAfter player id held
  have hero (player : Player) : mid.updateAuras.isDead (mid.updateAuras.hero player) = true ↔
      before.Overwhelms mid.updateAuras (mid.updateAuras.hero player) :=
    buries.hero_isDead_iff sound armed fits undefeated player
  constructor
  · intro quiet player id member overwhelms
    rcases List.mem_cons.mp member with rfl | stands
    · have alive := quiet.heroes player
      cases alive.symm.trans ((hero player).mpr overwhelms)
    · obtain ⟨free, entity, known, character, -⟩ := buries.minion_alive sound stands
      have alive := quiet.minions player id stands
      cases alive.symm.trans ((buries.isDead_iff free known character).mpr (.inr overwhelms))
  · intro spares
    refine ⟨fun player id stands => ?_,
      fun player id held => buries.weapon_alive armed armedMid held, fun player => ?_⟩
    · obtain ⟨free, entity, known, character, alive⟩ := buries.minion_alive sound stands
      rw [Bool.eq_false_iff]
      intro dead
      rcases (buries.isDead_iff free known character).mp dead with marked | overwhelms
      · cases alive.symm.trans ((Entity.isDead_iff_of_character character).mpr (.inl marked))
      · exact spares player id (List.mem_cons_of_mem _ stands) overwhelms
    · rw [Bool.eq_false_iff]
      exact fun dead => spares player _ List.mem_cons_self ((hero player).mp dead)

end Duel
end CardDuel
