import CardDuel.Duel

/-!
# Snapshots

A snapshot is a plain record of everything on the table together with the
position of the dice.  Two duels that reached the same table by the same actions
have equal snapshots.  Its numbers are plain: a snapshot read from elsewhere need
not belong to any duel.
-/

namespace CardDuel

structure EntitySnapshot where
  id : Nat
  owner : Nat
  code : String
  kind : EntityKind
  zone : ZoneKind
  position : Nat
  attack : Int
  health : Int
  maxHealth : Int
  cost : Int
  /-- In the order of tags. -/
  tags : List (Tag × Int)
  /-- Codes of the enchantments, oldest first. -/
  enchantments : List String
deriving DecidableEq, Inhabited

structure PlayerSnapshot where
  id : Nat
  cardClass : CardClass
  standing : Standing
  hero : Nat
  heroPower : Nat
  weapon : Option Nat
  remainingMana : Int
  tags : List (Tag × Int)
  hand : List Nat
  deck : List Nat
  field : List Nat
  graveyard : List Nat
  secrets : List Nat
deriving DecidableEq, Inhabited

structure ChoiceSnapshot where
  player : Nat
  kind : ChoiceKind
  options : List Nat
deriving DecidableEq, Inhabited

structure Snapshot where
  turn : Nat
  step : Step
  current : Nat
  seed : Nat
  /-- How many words of the dice have been read. -/
  position : Nat
  players : List PlayerSnapshot
  /-- In the order of handles. -/
  entities : List EntitySnapshot
  choices : List ChoiceSnapshot
  actions : Nat
deriving DecidableEq, Inhabited

namespace Snapshot

def entity? (snapshot : Snapshot) (id : Nat) : Option EntitySnapshot :=
  snapshot.entities.find? fun entity => entity.id == id

end Snapshot

namespace Duel

/-- The code of a card, empty when the card is not registered. -/
def codeOf (duel : Duel) (card : CardId) : String :=
  match duel.catalogue.card? card with
  | none => ""
  | some card => card.code

def entitySnapshot (duel : Duel) (id : EntityId) (entity : Entity) : EntitySnapshot where
  id := id.number
  owner := entity.owner.number
  code := duel.codeOf entity.card
  kind := entity.kind
  zone := entity.zone
  position := entity.position
  attack := duel.attackOf id
  health := entity.health
  maxHealth := entity.maxHealth
  cost := entity.cost
  tags := entity.tags.toList
  enchantments := entity.enchantments.filterMap fun enchantment =>
    (duel.catalogue.card? enchantment.card).map Card.code

def playerSnapshot (duel : Duel) (player : Player) : PlayerSnapshot :=
  let state := duel.player player
  let numbers (zone : ZoneKind) : List Nat := (duel.members player zone).map EntityId.number
  { id := player.number
    cardClass := state.cardClass
    standing := state.standing
    hero := state.hero.number
    heroPower := state.heroPower.number
    weapon := state.weapon.map EntityId.number
    remainingMana := state.remainingMana
    tags := state.tags.toList
    hand := numbers .hand
    deck := numbers .deck
    field := numbers .play
    graveyard := numbers .graveyard
    secrets := numbers .secret }

def snapshot (duel : Duel) : Snapshot where
  turn := duel.turn
  step := duel.step
  current := duel.current.number
  seed := duel.dice.seed.toNat
  position := duel.dice.position
  players := Player.both.map duel.playerSnapshot
  entities := duel.arena.ids.filterMap fun id =>
    (duel.entity? id).map (duel.entitySnapshot id)
  choices := Player.both.filterMap fun player =>
    (duel.choice? player).map fun choice =>
      ⟨player.number, choice.kind, choice.options.map EntityId.number⟩
  actions := duel.history.length

end Duel

end CardDuel
