import CardDuel.Card

/-!
# Entities

An entity is one copy of a card in a duel.  Attack, health and cost are computed
on reading, from its tags, its enchantments and the total of the auras that reach
it.  `Arena` holds every entity that a duel ever created; entities are created in
order and never deleted.
-/

namespace CardDuel

/-- What an entity is, for as long as it exists. -/
inductive EntityKind
  | hero
  | heroPower
  | minion
  | spell
  | weapon
deriving DecidableEq, Inhabited

namespace EntityKind

def name : EntityKind → String
  | hero => "Hero"
  | heroPower => "HeroPower"
  | minion => "Minion"
  | spell => "Spell"
  | weapon => "Weapon"

instance : Enumerated EntityKind where
  values := [hero, heroPower, minion, spell, weapon]
  name := name
  mem_values kind := by cases kind <;> decide

/-- What a card of a type becomes; enchantments never become entities. -/
def ofCardType? : CardType → Option EntityKind
  | .hero => some hero
  | .heroPower => some heroPower
  | .minion => some minion
  | .spell => some spell
  | .weapon => some weapon
  | .enchantment | .unset => none

/-- Heroes and minions attack and are attacked. -/
def isCharacter : EntityKind → Bool
  | hero | minion => true
  | _ => false

end EntityKind

structure Entity where
  owner : Player
  card : CardId
  kind : EntityKind
  tags : Tags
  zone : ZoneKind
  /-- The index in its container. -/
  position : Nat
  /-- The field index at its last death. -/
  lastBoardPosition : Nat
  /-- Marked for the next death pass. -/
  destroyed : Bool
  /-- Oldest first. -/
  enchantments : List Enchantment
  aura : AuraTotal
deriving DecidableEq, Inhabited

namespace Entity

/-- Tags of a fresh copy of a card: its mechanics with the printed stats written over them. -/
def freshTags (card : Card) : Tags :=
  let write (tag : Tag) (value : Option Int) (tags : Tags) : Tags :=
    match value with
    | none => tags
    | some value => tags.set tag value
  (card.tags.set .cost card.cost).set .attack card.attack
    |> write .health card.health
    |> write .durability card.durability
    |> write .spellPower card.spellPower

def fresh (owner : Player) (card : Card) (kind : EntityKind) : Entity where
  owner := owner
  card := card.id
  kind := kind
  tags := freshTags card
  zone := .unplaced
  position := 0
  lastBoardPosition := 0
  destroyed := false
  enchantments := []
  aura := AuraTotal.zero

def enchanted (entity : Entity) (stat : Modifier → Int) : Int :=
  (entity.enchantments.map fun enchantment => stat enchantment.effect).foldr (· + ·) 0

/-- Current attack, never negative. -/
def attack (entity : Entity) : Int :=
  max (entity.tags.get .attack + entity.enchanted Modifier.attack + entity.aura.attack) 0

def maxHealth (entity : Entity) : Int :=
  entity.tags.get .health + entity.enchanted Modifier.health + entity.aura.health

def damage (entity : Entity) : Int :=
  entity.tags.get .damage

def health (entity : Entity) : Int :=
  entity.maxHealth - entity.damage

/-- Current mana cost, never negative. -/
def cost (entity : Entity) : Int :=
  max (entity.tags.get .cost + entity.enchanted Modifier.cost + entity.aura.cost) 0

def durability (entity : Entity) : Int :=
  entity.tags.get .durability

def armor (entity : Entity) : Int :=
  entity.tags.get .armor

/-- Whether it has a keyword, of its own or granted by an aura or an enchantment. -/
def has (entity : Entity) (tag : Tag) : Bool :=
  entity.tags.has tag || entity.aura.grants.contains tag ||
    entity.enchantments.any fun enchantment => enchantment.effect.grants.contains tag

def isDamaged (entity : Entity) : Bool :=
  0 < entity.damage

/-- Destroyed, out of health, or out of durability. -/
def isDead (entity : Entity) : Bool :=
  entity.destroyed ||
    match entity.kind with
    | .hero | .minion => entity.health ≤ 0
    | .weapon => entity.durability ≤ 0
    | .heroPower | .spell => false

/-- On the field or in a slot of its player. -/
def inPlay (entity : Entity) : Bool :=
  entity.zone = .play

def isCharacter (entity : Entity) : Bool :=
  entity.kind.isCharacter

/-- Whether it can neither be aimed at nor attacked by the other side. -/
def isHidden (entity : Entity) : Bool :=
  entity.has .stealth || entity.has .immune

def setTag (entity : Entity) (tag : Tag) (value : Int) : Entity :=
  { entity with tags := entity.tags.set tag value }

def addTag (entity : Entity) (tag : Tag) (change : Int) : Entity :=
  { entity with tags := entity.tags.add tag change }

/-- After a character has lost a health bonus that it had in `before`, it keeps its health unless
that now exceeds its maximum. -/
def keepHealth (entity before : Entity) : Entity :=
  if entity.maxHealth < before.maxHealth ∧ 0 < before.health ∧ entity.isCharacter then
    entity.setTag .damage
      (max (entity.maxHealth - min before.health entity.maxHealth) 0)
  else entity

/-- Let a changed total of auras reach the entity. -/
def withAura (entity : Entity) (total : AuraTotal) : Entity :=
  if total = entity.aura then entity
  else { entity with aura := total }.keepHealth entity

def enchant (entity : Entity) (enchantment : Enchantment) : Entity :=
  { entity with enchantments := entity.enchantments ++ [enchantment] }.keepHealth entity

def expire (entity : Entity) : Entity :=
  if entity.enchantments.any (·.effect.oneTurn) then
    { entity with
      enchantments := entity.enchantments.filter fun e => !e.effect.oneTurn }.keepHealth entity
  else entity

/-- Drop the enchantments that are linked to a creator. -/
def unlink (creator : EntityId) (entity : Entity) : Entity :=
  { entity with
    enchantments := entity.enchantments.filter fun e => !(e.effect.linked && e.creator == creator) }

def silence (entity : Entity) : Entity :=
  { entity with
    tags := (entity.tags.clear Tag.silenceable).set .silenced 1
    enchantments := [] }.keepHealth entity

/-- Take a divine shield away, its own and those granted by enchantments. -/
def loseShield (entity : Entity) : Entity :=
  { entity with
    tags := entity.tags.set .divineShield 0
    enchantments := entity.enchantments.map fun e =>
      { e with effect := { e.effect with grants := e.effect.grants.filter (· ≠ .divineShield) } } }

end Entity

structure Arena where
  entities : Array Entity
deriving DecidableEq, Inhabited

namespace Arena

def empty : Arena := ⟨#[]⟩

def idAt (place : Nat) : EntityId :=
  ⟨place + EntityId.reserved⟩

def nextId (arena : Arena) : EntityId :=
  idAt arena.entities.size

def ids (arena : Arena) : List EntityId :=
  (List.range arena.entities.size).map idAt

def get? (arena : Arena) (id : EntityId) : Option Entity :=
  if id.isPlayer then none else arena.entities[id.number - EntityId.reserved]?

def contains (arena : Arena) (id : EntityId) : Bool :=
  (arena.get? id).isSome

/-- Change one entity; nothing happens for a handle that is not in use. -/
def update (arena : Arena) (id : EntityId) (change : Entity → Entity) : Arena :=
  if id.isPlayer then arena
  else ⟨arena.entities.modify (id.number - EntityId.reserved) change⟩

def updateAll (arena : Arena) (change : EntityId → Entity → Entity) : Arena :=
  ⟨arena.entities.mapIdx fun place entity => change (idAt place) entity⟩

def push (arena : Arena) (entity : Entity) : Arena :=
  ⟨arena.entities.push entity⟩

@[simp]
theorem get?_empty (id : EntityId) : empty.get? id = none := by
  simp [empty, get?]

@[simp]
theorem isPlayer_idAt (place : Nat) : (idAt place).isPlayer = false := by
  have beyond : ¬ place + EntityId.reserved < EntityId.reserved := by omega
  exact decide_eq_false beyond

@[simp]
theorem number_idAt (place : Nat) : (idAt place).number - EntityId.reserved = place := by
  simp only [idAt]
  omega

@[simp]
theorem idAt_inj {place other : Nat} : idAt place = idAt other ↔ place = other := by
  simp [idAt]

theorem exists_idAt {id : EntityId} (entity : id.isPlayer = false) : ∃ place, id = idAt place := by
  cases id with
  | mk number =>
    simp only [EntityId.isPlayer, decide_eq_false_iff_not] at entity
    exact ⟨number - EntityId.reserved, by simp only [idAt, EntityId.mk.injEq]; omega⟩

@[simp]
theorem get?_idAt (arena : Arena) (place : Nat) :
    arena.get? (idAt place) = arena.entities[place]? := by
  simp [get?]

theorem get?_of_isPlayer (arena : Arena) {id : EntityId} (player : id.isPlayer = true) :
    arena.get? id = none := by
  simp [get?, player]

theorem get?_update (arena : Arena) (id other : EntityId) (change : Entity → Entity) :
    (arena.update id change).get? other =
      if other = id then (arena.get? other).map change else arena.get? other := by
  cases reserved : id.isPlayer with
  | true =>
    simp only [update, reserved, if_true]
    split
    next same => simp [same, get?_of_isPlayer arena reserved]
    next => rfl
  | false =>
    cases otherReserved : other.isPlayer with
    | true => simp [get?_of_isPlayer _ otherReserved]
    | false =>
      obtain ⟨place, rfl⟩ := exists_idAt reserved
      obtain ⟨otherPlace, rfl⟩ := exists_idAt otherReserved
      simp [update, Array.getElem?_modify, eq_comm]

theorem get?_updateAll (arena : Arena) (id : EntityId) (change : EntityId → Entity → Entity) :
    (arena.updateAll change).get? id = (arena.get? id).map (change id) := by
  cases reserved : id.isPlayer with
  | true => simp [get?_of_isPlayer _ reserved]
  | false =>
    obtain ⟨place, rfl⟩ := exists_idAt reserved
    simp [updateAll]

/-- The handle that comes next is not in use. -/
theorem get?_nextId (arena : Arena) : arena.get? arena.nextId = none := by
  rw [nextId, get?_idAt, Array.getElem?_eq_none (Nat.le_refl _)]

theorem get?_push (arena : Arena) (entity : Entity) (id : EntityId) :
    (arena.push entity).get? id = if id = arena.nextId then some entity else arena.get? id := by
  cases reserved : id.isPlayer with
  | true =>
    have apart : id ≠ arena.nextId := by
      rintro rfl
      simp [nextId] at reserved
    simp [get?_of_isPlayer _ reserved, apart]
  | false =>
    obtain ⟨place, rfl⟩ := exists_idAt reserved
    simp [push, nextId, Array.getElem?_push]

end Arena

end CardDuel
