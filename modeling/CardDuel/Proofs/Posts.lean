import CardDuel.Proofs.WellPlaced

/-!
# Posts and slots

The post of an entity is its place without the number: whose it is, what it is and in
which zone.  Moving an entity gives it another post and nobody else; it may empty a
weapon slot and fill a slot.
-/

namespace CardDuel

open Relation

/-- Whose an entity is, what it is and in which zone. -/
structure Post where
  owner : Player
  kind : EntityKind
  zone : ZoneKind
deriving DecidableEq

/-- The place without its number. -/
def Seat.post (seat : Seat) : Post :=
  ⟨seat.owner, seat.kind, seat.zone⟩

/-- The post of an entity. -/
def Table.post? (table : Table) (id : EntityId) : Option Post :=
  (table.seat? id).map Seat.post

/-- The entity in the slot of a kind. -/
def Slots.holder? (slots : Slots) : EntityKind → Option EntityId
  | .hero => some slots.hero
  | .heroPower => some slots.heroPower
  | .weapon => slots.weapon
  | .minion | .spell => none

namespace Duel

variable {duel : Duel} {id other : EntityId} {entity : Entity} {player : Player}

theorem post?_of_entity? (known : duel.entity? id = some entity) :
    duel.table.post? id = some ⟨entity.owner, entity.kind, entity.zone⟩ := by
  rw [Table.post?, seat?_of_entity? known]
  rfl

theorem exists_of_post? {post : Post} (posted : duel.table.post? id = some post) :
    ∃ entity, duel.entity? id = some entity ∧ entity.owner = post.owner ∧
      entity.kind = post.kind ∧ entity.zone = post.zone := by
  obtain ⟨seat, seated, rfl⟩ := Option.map_eq_some_iff.mp posted
  obtain ⟨entity, known, rfl⟩ := Option.map_eq_some_iff.mp seated
  exact ⟨entity, known, rfl, rfl, rfl⟩

/-- Whoever is in a container is posted there. -/
theorem WellPlaced.posted_of_mem {zone : ZoneKind} (sound : duel.WellPlaced)
    (member : id ∈ duel.members player zone) :
    ∃ kind, duel.table.post? id = some ⟨player, kind, zone⟩ := by
  obtain ⟨-, seat, seated, -, rfl, rfl⟩ := (sound.placed.mem_iff player zone id).mp member
  refine ⟨seat.kind, ?_⟩
  rw [Table.post?, seated]
  rfl

/-- Nobody is in another container than its zone. -/
theorem WellPlaced.zone_of_mem {zone : ZoneKind} {post : Post} (sound : duel.WellPlaced)
    (member : id ∈ duel.members player zone) (posted : duel.table.post? id = some post) :
    post.zone = zone := by
  obtain ⟨kind, there⟩ := sound.posted_of_mem member
  cases posted.symm.trans there
  rfl

/-- What is in one container is in no other. -/
theorem WellPlaced.disjoint_members (sound : duel.WellPlaced) {owner other : Player}
    {zone goal : ZoneKind} (differ : ¬ (owner = other ∧ zone = goal)) :
    (duel.members owner zone).Disjoint (duel.members other goal) := by
  intro id here there
  obtain ⟨kind, posted⟩ := sound.posted_of_mem here
  obtain ⟨kind', posted'⟩ := sound.posted_of_mem there
  cases posted.symm.trans posted'
  exact differ ⟨rfl, rfl⟩

/-- No minion is in two places of the fields. -/
theorem WellPlaced.nodup_fields (sound : duel.WellPlaced) (player : Player) :
    (duel.field player ++ duel.field player.opponent).Nodup :=
  (sound.placed.nodup player .play).append (sound.placed.nodup player.opponent .play)
    (sound.disjoint_members fun same => player.opponent_ne same.1.symm)

/-- Writing the places of a container anew moves nobody who was in it. -/
theorem post?_refill {out : Option EntityId} {zone : ZoneKind} {content : Zone}
    (placed : duel.table.Placed out) (container : zone.IsContainer)
    (nodup : content.members.Nodup)
    (before : other ∈ content.members → other ∈ duel.table.members player zone) :
    (duel.refill player zone content).table.post? other = duel.table.post? other := by
  rw [Table.post?, seat?_refill duel player content container nodup]
  split
  next member =>
    obtain ⟨-, seat, seated, -, -, rfl⟩ := (placed.mem_iff player zone other).mp (before member)
    rw [Table.post?, seated]
    rfl
  · rfl

theorem post?_detach (placed : duel.table.Placed none) (known : duel.entity? id = some entity) :
    (duel.detach id entity).table.post? other = duel.table.post? other := by
  by_cases contained : entity.seat.InContainer
  · obtain ⟨content, found, members, member, nodup⟩ := exists_holding placed known contained
    rw [detach_contained contained found member]
    refine post?_refill placed contained.1 (nodup.erase id) fun stays => ?_
    rw [members]
    exact List.mem_of_mem_erase stays
  · rw [Table.post?, (detach_uncontained duel id contained).2]
    rfl

/-- Who leaves a zone is nowhere, and everybody else stays. -/
theorem post?_leaveZone (placed : duel.table.Placed none)
    (known : duel.entity? id = some entity) (goal : ZoneKind) (other : EntityId) :
    (duel.leaveZone id goal).table.post? other =
      if other = id then some ⟨entity.owner, entity.kind, .unplaced⟩
      else duel.table.post? other := by
  obtain ⟨-, seat, seated, owner, kind⟩ := apart_detach placed known
  rw [table_leaveZone goal known seated]
  change (if other = id then some (seat.placedAt .unplaced 0)
    else (duel.detach id entity).table.seat? other).map Seat.post = _
  by_cases here : other = id
  · rw [if_pos here, if_pos here, ← owner, ← kind]
    rfl
  · rw [if_neg here, if_neg here]
    exact post?_detach placed known

theorem table_startTriggers (duel : Duel) (id : EntityId) (zone : ZoneKind) :
    (duel.startTriggers id zone).table = duel.table := by
  obtain ⟨triggers, started⟩ := startTriggers_eq duel id zone
  rw [started]
  rfl

theorem post?_fillSlot {kind : EntityKind} {post : Post}
    (posted : duel.table.post? id = some post) :
    (duel.fillSlot id player kind).table.post? other =
      if other = id then some { post with zone := .play } else duel.table.post? other := by
  obtain ⟨seat, seated, rfl⟩ := Option.map_eq_some_iff.mp posted
  obtain ⟨entity, known, rfl⟩ := Option.map_eq_some_iff.mp seated
  unfold fillSlot
  rw [Table.post?, seat?_updateEntity]
  split
  · change ((duel.entity? id).map _).map _ = _
    rw [known]
    rfl
  · rfl

theorem post?_putInto {zone : ZoneKind} {post : Post} (placement : Placement)
    (apart : duel.table.Placed (some id)) (posted : duel.table.post? id = some post)
    (room : duel.zones.isFull post.owner zone = false) :
    (duel.putInto id post.owner zone placement).table.post? other =
      if other = id then some { post with zone := zone } else duel.table.post? other := by
  by_cases container : zone.IsContainer
  · obtain ⟨content, inserted, nodup, order⟩ := putInto_contained placement apart container room
    rw [inserted]
    by_cases here : other = id
    · obtain ⟨seat, seated, rfl⟩ := Option.map_eq_some_iff.mp posted
      rw [if_pos here, here, Table.post?, seat?_refill duel _ _ container nodup,
        if_pos (order.mem_iff.mpr List.mem_cons_self), seated]
      rfl
    · rw [if_neg here]
      refine post?_refill apart container nodup fun member => ?_
      exact (List.mem_cons.mp (order.mem_iff.mp member)).resolve_left here
  · obtain ⟨entity, known, owner, kind, -⟩ := exists_of_post? posted
    rw [putInto_uncontained duel id post.owner placement container, Table.post?,
      seat?_updateEntity]
    split
    · rw [known, Option.map_some, Option.map_some, ← owner, ← kind]
      rfl
    · rfl

/-- A move gives the entity another post, and nobody else. -/
theorem post?_relocate {goal : ZoneKind} (placement : Placement) (sound : duel.WellPlaced)
    (known : duel.entity? id = some entity)
    (room : usesSlot entity.kind goal = true ∨ entity.zone = goal ∨
      duel.zones.isFull entity.owner goal = false) :
    (duel.relocate id entity goal placement).table.post? other =
      if other = id then some ⟨entity.owner, entity.kind, goal⟩ else duel.table.post? other := by
  have apart := (apart_leaveZone goal sound.placed known).1
  have left := post?_leaveZone sound.placed known goal
  have posted := (left id).trans (if_pos rfl)
  unfold relocate
  dsimp only
  rw [table_startTriggers]
  split
  next slot =>
    rw [post?_fillSlot posted, left, (usesSlot_iff.mp slot).1]
    split <;> rfl
  next noSlot =>
    have roomThere := room_arrival sound known noSlot room
    refine (post?_putInto placement apart posted roomThere).trans ?_
    rw [left]
    split <;> rfl

theorem post?_handOver (owner : Player) (sound : duel.WellPlaced)
    (known : duel.entity? id = some entity) :
    ((duel.leaveZone id .unplaced).updateEntity id fun entity =>
        { entity with owner := owner }).table.post? other =
      if other = id then some ⟨owner, entity.kind, .unplaced⟩ else duel.table.post? other := by
  have left := post?_leaveZone sound.placed known .unplaced
  obtain ⟨gone, knownGone, -, kind, zone⟩ := exists_of_post? ((left id).trans (if_pos rfl))
  rw [Table.post?, seat?_updateEntity]
  split
  · rw [knownGone]
    change some (⟨owner, gone.kind, gone.zone⟩ : Post) = _
    rw [kind, zone]
  next away => exact (left other).trans (if_neg away)

theorem post?_create {owner : Player} {card : Card} {kind : EntityKind} :
    ({ duel with arena := duel.arena.push (Entity.fresh owner card kind) } : Duel).table.post?
        other =
      if other = duel.arena.nextId then some ⟨owner, kind, .unplaced⟩
      else duel.table.post? other := by
  change ((Arena.get? _ other).map Entity.seat).map Seat.post = _
  rw [Arena.get?_push]
  split <;> rfl

theorem post?_shuffle {zone : Zone} {shuffled : List EntityId} (sound : duel.WellPlaced)
    (found : duel.zones.get? player .deck = some zone) (reordered : shuffled.Perm zone.members) :
    (duel.refill player .deck { zone with members := shuffled }).table.post? other =
      duel.table.post? other := by
  have members := members_eq_of_get? found
  have nodup : shuffled.Nodup :=
    reordered.nodup_iff.mpr (members ▸ sound.placed.nodup player .deck)
  refine post?_refill sound.placed (by decide) nodup fun member => ?_
  rw [members]
  exact reordered.mem_iff.mp member

/-! ## Slots -/

/-- Who leaves a zone leaves the slots as they are, but for the weapon in the slot. -/
theorem holder?_leaveZone (placed : duel.table.Placed none)
    (known : duel.entity? id = some entity) (goal : ZoneKind) (player : Player)
    (slot : EntityKind) :
    ((duel.leaveZone id goal).table.slots player).holder? slot =
      if slot = .weapon ∧ player = entity.owner ∧ entity.zone = .play ∧ entity.kind ≠ .minion ∧
          (duel.table.slots player).holder? .weapon = some id then none
      else (duel.table.slots player).holder? slot := by
  obtain ⟨-, seat, seated, -⟩ := apart_detach placed known
  rw [table_leaveZone goal known seated]
  change ((duel.detach id entity).table.slots player).holder? slot = _
  unfold detach
  split
  next inSlot =>
    change (PlayerState.slots ((duel.updatePlayer entity.owner _).player player)).holder? slot = _
    rw [player_updatePlayer]
    by_cases own : player = entity.owner
    · rw [if_pos own]
      by_cases armed : (duel.player player).weapon = some id
      · rw [if_pos armed]
        by_cases weapon : slot = .weapon
        · rw [if_pos ⟨weapon, own, inSlot.1, inSlot.2, armed⟩, weapon]
          rfl
        · rw [if_neg fun all => weapon all.1]
          cases slot <;> first | rfl | exact absurd rfl weapon
      · rw [if_neg armed, if_neg fun all => armed all.2.2.2.2]
        rfl
    · rw [if_neg own, if_neg fun all => own all.2.1]
      rfl
  next noSlot =>
    rw [if_neg fun all => noSlot ⟨all.2.2.1, all.2.2.2.1⟩]
    split <;> rfl

theorem holder?_fillSlot (duel : Duel) (id : EntityId) (owner : Player) (kind : EntityKind)
    (player : Player) (slot : EntityKind) :
    ((duel.fillSlot id owner kind).table.slots player).holder? slot =
      if player = owner ∧ slot = kind ∧ kind ≠ .minion ∧ kind ≠ .spell then some id
      else (duel.table.slots player).holder? slot := by
  change (PlayerState.slots ((duel.updatePlayer owner _).player player)).holder? slot = _
  rw [player_updatePlayer]
  by_cases own : player = owner
  · rw [if_pos own]
    cases kind <;> cases slot <;> simp [own] <;> rfl
  · rw [if_neg own, if_neg fun all => own all.1]
    rfl

theorem holder?_relocate {goal : ZoneKind} (placement : Placement)
    (allowed : ¬ (entity.kind = .spell ∧ goal = .play)) (player : Player) (slot : EntityKind) :
    ((duel.relocate id entity goal placement).table.slots player).holder? slot =
      if player = entity.owner ∧ slot = entity.kind ∧ usesSlot entity.kind goal = true then some id
      else ((duel.leaveZone id goal).table.slots player).holder? slot := by
  unfold relocate
  dsimp only
  rw [table_startTriggers]
  split
  next uses =>
    have slotted : goal = .play ∧ entity.kind ≠ .minion := usesSlot_iff.mp uses
    have noSpell : entity.kind ≠ .spell := fun spell => allowed ⟨spell, slotted.1⟩
    rw [holder?_fillSlot]
    simp only [slotted.2, noSpell, uses, ne_eq, not_false_eq_true, and_true]
  next noSlot =>
    rw [if_neg fun all => noSlot all.2.2]
    unfold putInto
    split <;> rfl

end Duel

end CardDuel
