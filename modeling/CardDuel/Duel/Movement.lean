import CardDuel.Duel.Judgement

/-!
# Moving entities

Every move goes through `Play.move`, which keeps the containers, the places that
entities record and the book of triggers in step.  A move into a full container
does nothing and says so.
-/

namespace CardDuel

namespace Duel

/-- Write the places of a container into its entities. -/
def renumber (duel : Duel) (player : Player) (zone : ZoneKind) : Duel :=
  { duel with
    arena := (duel.members player zone).zipIdx.foldl
      (fun arena entry =>
        arena.update entry.1 fun entity => { entity with zone := zone, position := entry.2 })
      duel.arena }

/-- Take an entity out of the container or the weapon slot that holds it. -/
def detach (duel : Duel) (id : EntityId) (entity : Entity) : Duel :=
  if entity.zone = .play ∧ entity.kind ≠ .minion then
    duel.updatePlayer entity.owner fun state =>
      if state.weapon = some id then { state with weapon := none } else state
  else
    match duel.zones.remove? entity.owner entity.zone id with
    | none => duel
    | some (_, zones) => { duel with zones := zones }.renumber entity.owner entity.zone

def triggerRule? (duel : Duel) (entity : Entity) : Option TriggerRule :=
  (duel.behaviourOf entity).trigger

/-- Strike out the triggers of an entity that leaves the zone its trigger lives in. -/
def endTriggers (duel : Duel) (id : EntityId) (entity : Entity) : Duel :=
  match duel.triggerRule? entity with
  | none => duel
  | some rule => if rule.zone = entity.zone then duel.dropTriggers id else duel

/-- An entity that just left play: without enchantments and auras, and on its way to the hand or
the deck a fresh copy of its card. -/
def afterPlay (duel : Duel) (goal : ZoneKind) (entity : Entity) : Entity :=
  let bare := { entity with enchantments := [], aura := AuraTotal.zero }
  if goal = .hand ∨ goal = .deck then
    match duel.catalogue.card? entity.card with
    | none => bare
    | some card =>
      { Entity.fresh entity.owner card entity.kind with
        lastBoardPosition := entity.lastBoardPosition }
  else bare

/-- Take an entity out of wherever it is, on its way to a zone.  When it leaves play, the
enchantments linked to it go everywhere. -/
def leaveZone (duel : Duel) (id : EntityId) (goal : ZoneKind) : Duel :=
  match duel.entity? id with
  | none => duel
  | some entity =>
    let duel := (duel.detach id entity).endTriggers id entity
    let duel :=
      if entity.zone = .play then
        { duel with arena := duel.arena.updateAll fun _ other => other.unlink id }.updateEntity id
          (duel.afterPlay goal)
      else duel
    duel.updateEntity id fun entity => { entity with zone := .unplaced, position := 0 }

/-- Register the trigger of an entity that entered the zone its trigger lives in. -/
def startTriggers (duel : Duel) (id : EntityId) (zone : ZoneKind) : Duel :=
  match duel.entity? id with
  | none => duel
  | some entity =>
    if entity.tags.has .silenced then duel
    else
      match duel.triggerRule? entity with
      | none => duel
      | some rule =>
        if rule.zone = zone then
          { duel with triggers := duel.triggers.register id entity.owner rule }
        else duel

def fillSlot (duel : Duel) (id : EntityId) (owner : Player) (kind : EntityKind) : Duel :=
  let duel := duel.updatePlayer owner fun state =>
    match kind with
    | .hero => { state with hero := id }
    | .heroPower => { state with heroPower := id }
    | .weapon => { state with weapon := some id }
    | .minion | .spell => state
  duel.updateEntity id fun entity => { entity with zone := .play, position := 0 }

/-- Put an entity into a zone of its owner; a zone without a container is only recorded. -/
def putInto (duel : Duel) (id : EntityId) (owner : Player) (zone : ZoneKind)
    (placement : Placement) : Duel :=
  match duel.zones.insert? owner zone id placement with
  | some (_, zones) => { duel with zones := zones }.renumber owner zone
  | none => duel.updateEntity id fun entity => { entity with zone := zone, position := 0 }

/-- In play, everything but minions stands in a slot. -/
def usesSlot (kind : EntityKind) (zone : ZoneKind) : Bool :=
  zone = .play && kind ≠ .minion

theorem usesSlot_iff {kind : EntityKind} {zone : ZoneKind} :
    usesSlot kind zone = true ↔ zone = .play ∧ kind ≠ .minion := by
  simp [usesSlot]

/-- Move an entity, whether or not there is room. -/
def relocate (duel : Duel) (id : EntityId) (entity : Entity) (goal : ZoneKind)
    (placement : Placement) : Duel :=
  let duel := duel.leaveZone id goal
  let duel :=
    if usesSlot entity.kind goal then duel.fillSlot id entity.owner entity.kind
    else duel.putInto id entity.owner goal placement
  duel.startTriggers id goal

end Duel

namespace Play

/-- Move an entity to a zone of its owner.  The answer is false, and nothing happens, when the
zone is full. -/
def move (id : EntityId) (goal : ZoneKind) (placement : Placement) : Play Bool := do
  let entity ← lookup id
  if entity.kind = .spell ∧ goal = .play then
    violate (.spellInPlay id)
  else
    let duel ← get
    if !Duel.usesSlot entity.kind goal && entity.zone ≠ goal &&
        duel.zones.isFull entity.owner goal then
      return false
    else
      set (duel.relocate id entity goal placement)
      return true

/-- Move an entity to the end of a zone without asking whether there was room. -/
def send (id : EntityId) (goal : ZoneKind) : Play Unit := do
  discard (move id goal .top)

/-- Move an entity to a zone, or else to another one. -/
def sendOrElse (id : EntityId) (goal otherwise : ZoneKind) : Play Unit := do
  unless ← move id goal .top do
    send id otherwise

/-- Put an entity into its owner's deck at a random place. -/
def shuffleIn (id : EntityId) (owner : Player) : Play Bool := do
  let size := ((← get).deck owner).length
  let place ← roll fun dice => dice.belowLong (size + 1)
  move id .deck (.index place)

/-- Hand an entity to a player.  It first leaves its zone under the old owner. -/
def giveTo (id : EntityId) (owner : Player) : Play Unit := do
  let entity ← lookup id
  if entity.owner = owner then
    return ()
  else
    modify fun duel =>
      (duel.leaveZone id .unplaced).updateEntity id fun entity => { entity with owner := owner }

/-- Create an entity of a card, outside every zone. -/
def create (owner : Player) (id : CardId) : Play EntityId := do
  let duel ← get
  match duel.catalogue.card? id with
  | none => violate (.unknownCard id)
  | some card =>
    match EntityKind.ofCardType? card.cardType with
    | none => violate (.notInstantiable card.code)
    | some kind =>
      set { duel with arena := duel.arena.push (Entity.fresh owner card kind) }
      return duel.arena.nextId

/-- Put a new copy of a card into a player's hand; a full hand loses it to the graveyard. -/
def give (player : Player) (code : String) : Play EntityId := do
  let card ← lookupCode code
  let id ← create player card
  sendOrElse id .hand .graveyard
  return id

end Play

end CardDuel
