import CardDuel.Duel.Harm
import CardDuel.Duel.Movement

/-!
# What happens to cards

Drawing, summoning, equipping, enchanting, silencing and transforming: the
changes that effects, steps and actions share.
-/

namespace CardDuel

namespace Entity

/-- A minion that just came onto the field: it has to wait, and it has not attacked yet. -/
def newcomer (entity : Entity) : Entity :=
  ((entity.setTag .exhausted 1).setTag .attacksThisTurn 0).setTag .turnsInPlay 0

/-- A fresh copy of another card in the place of an entity, as tired as it was. -/
def replacedBy (entity : Entity) (card : Card) : Entity :=
  { Entity.fresh entity.owner card entity.kind with
    zone := entity.zone
    position := entity.position
    lastBoardPosition := entity.lastBoardPosition }.setTag .exhausted (entity.tags.get .exhausted)

end Entity

namespace Play

/-- Draw the top card of a deck.  A full hand burns it; an empty deck deals the hero one more
damage each time. -/
def drawCard (player : Player) : Play Unit := do
  match ((← get).deck player).getLast? with
  | some top =>
    if ← move top .hand .top then
      announce (Event.caused .drawCard player top)
    else
      send top .graveyard
  | none =>
    modify fun duel => duel.updatePlayer player fun state => state.addTag .fatigue 1
    let duel ← get
    damage (duel.hero player) (duel.hero player) ((duel.player player).tags.get .fatigue)

/-- Put an entity onto its owner's field, at the right end unless a place is given. -/
def placeMinion (id : EntityId) (place : Option Nat) : Play Bool := do
  let placement :=
    match place with
    | none => Placement.top
    | some place => .index place
  if ← move id .play placement then
    change id Entity.newcomer
    return true
  else
    return false

/-- Summon a minion: announce it at once, and once more when the reactions to that are over. -/
def summon (id : EntityId) (place : Option Nat) : Play Bool := do
  if ← placeMinion id place then
    let owner := (← lookup id).owner
    announce (Event.caused .summon owner id)
    modify fun duel => duel.addReaction (.announce (Event.caused .afterSummon owner id))
    return true
  else
    return false

def silence (id : EntityId) : Play Unit := do
  change id Entity.silence
  modify fun duel => duel.dropTriggers id

/-- Equip a weapon; the weapon before it dies. -/
def equip (player : Player) (id : EntityId) : Play Unit := do
  match (← get).weapon player with
  | none => pure ()
  | some old =>
    send old .graveyard
    announce (Event.caused .death player old)
  giveTo id player
  send id .play

def enchant (target : EntityId) (id : CardId) (creator : EntityId) : Play Unit := do
  let duel ← get
  match duel.catalogue.card? id with
  | none => violate (.unknownCard id)
  | some card =>
    if card.cardType ≠ .enchantment then
      violate (.notAnEnchantment card.code)
    else
      match (duel.catalogue.behaviour? id).bind Behaviour.enchant with
      | none => violate (.enchantmentWithoutEffect card.code)
      | some effect => change target fun entity => entity.enchant ⟨id, creator, effect⟩

def transform (id : EntityId) (form : CardId) : Play Unit := do
  match (← get).catalogue.card? form with
  | none => violate (.unknownCard form)
  | some card =>
    match EntityKind.ofCardType? card.cardType with
    | none => violate (.noFormOf card.code)
    | some kind =>
      let entity ← lookup id
      if entity.kind ≠ kind then
        violate (.kindChange entity.kind id kind)
      else
        modify fun duel =>
          (duel.dropTriggers id).updateEntity id fun entity => entity.replacedBy card
        modify fun duel => duel.startTriggers id entity.zone

/-- Put a new hero or hero power into its slot; the old one leaves the match. -/
def replaceSlot (player : Player) (old : EntityId) (card : CardId) : Play Unit := do
  let new ← create player card
  send old .removed
  send new .play

/-- Replace hero and hero power of a player, who takes on the hero's class, and equip a weapon. -/
def replaceHero (player : Player) (hero power : CardId) (weapon : Option CardId) : Play Unit := do
  let old := (← get).player player
  replaceSlot player old.hero hero
  replaceSlot player old.heroPower power
  modify fun duel =>
    match duel.catalogue.card? hero with
    | none => duel
    | some card => duel.updatePlayer player fun state => { state with cardClass := card.cardClass }
  match weapon with
  | none => pure ()
  | some weapon => equip player (← create player weapon)

end Play

end CardDuel
