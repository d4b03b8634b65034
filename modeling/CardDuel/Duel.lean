import CardDuel.Action
import CardDuel.Agenda
import CardDuel.Catalogue
import CardDuel.Dice.Sample
import CardDuel.PlayerState
import CardDuel.Settings
import CardDuel.Step
import CardDuel.Trigger.Book

/-!
# Duels

The state of a duel, the questions that only read it, and the smallest changes.
Whatever can fail runs as a `Play`: it answers with a value or a fault and always
with the duel it leaves behind, so that what was applied before a fault stays.
-/

namespace CardDuel

structure Duel where
  settings : Settings
  catalogue : Catalogue
  dice : Dice
  players : PerPlayer PlayerState
  arena : Arena
  zones : Zones
  triggers : TriggerBook
  agenda : Agenda
  choices : PerPlayer (Option Choice)
  /-- The effect list that waits for a choice. -/
  suspended : Option Resolution
  step : Step
  current : Player
  first : Player
  turn : Nat
  /-- The accepted actions, oldest first. -/
  history : List ActionRecord

/-- A change of a duel that may fail. -/
abbrev Play := EStateM Fault Duel

namespace Duel

/-! ## Reading -/

def entity? (duel : Duel) (id : EntityId) : Option Entity :=
  duel.arena.get? id

def player (duel : Duel) (player : Player) : PlayerState :=
  duel.players.get player

def members (duel : Duel) (player : Player) (zone : ZoneKind) : List EntityId :=
  duel.zones.members player zone

def field (duel : Duel) (player : Player) : List EntityId :=
  duel.members player .play

def hand (duel : Duel) (player : Player) : List EntityId :=
  duel.members player .hand

/-- The deck of a player; the last card is the top. -/
def deck (duel : Duel) (player : Player) : List EntityId :=
  duel.members player .deck

def hero (duel : Duel) (player : Player) : EntityId :=
  (duel.player player).hero

def weapon (duel : Duel) (player : Player) : Option EntityId :=
  (duel.player player).weapon

def side (duel : Duel) (player : Player) : List EntityId :=
  duel.hero player :: duel.field player

def cardOf? (duel : Duel) (id : EntityId) : Option Card := do
  duel.catalogue.card? (← duel.entity? id).card

def behaviourOf (duel : Duel) (entity : Entity) : Behaviour :=
  (duel.catalogue.behaviour? entity.card).getD Behaviour.none

/-- The attack of an entity; a hero adds its weapon. -/
def attackOf (duel : Duel) (id : EntityId) : Int :=
  match duel.entity? id with
  | none => 0
  | some entity =>
    if entity.kind = .hero then
      match (duel.weapon entity.owner).bind duel.entity? with
      | none => entity.attack
      | some weapon => entity.attack + weapon.attack
    else entity.attack

def healthOf (duel : Duel) (id : EntityId) : Int :=
  match duel.entity? id with
  | none => 0
  | some entity => entity.health

def spellDamage (duel : Duel) (player : Player) : Int :=
  ((duel.field player).map fun id =>
    match duel.entity? id with
    | none => 0
    | some entity => entity.tags.get .spellPower).foldr (· + ·) 0

def isOver (duel : Duel) : Bool :=
  duel.step = .finalGameOver

def choice? (duel : Duel) (player : Player) : Option Choice :=
  duel.choices.get player

def hasChoice (duel : Duel) : Bool :=
  Player.both.any fun player => (duel.choice? player).isSome

/-! ## Small changes -/

def updateEntity (duel : Duel) (id : EntityId) (change : Entity → Entity) : Duel :=
  { duel with arena := duel.arena.update id change }

def updatePlayer (duel : Duel) (player : Player) (change : PlayerState → PlayerState) : Duel :=
  { duel with players := duel.players.modify player change }

def addPhase (duel : Duel) (work : Work) : Duel :=
  { duel with agenda := duel.agenda.addPhase work }

def addReaction (duel : Duel) (work : Work) : Duel :=
  { duel with agenda := duel.agenda.addReaction work }

def clearAgenda (duel : Duel) : Duel :=
  { duel with agenda := Agenda.empty }

def setChoice (duel : Duel) (player : Player) (choice : Option Choice) : Duel :=
  { duel with choices := duel.choices.set player choice }

def dropTriggers (duel : Duel) (id : EntityId) : Duel :=
  { duel with triggers := duel.triggers.dropOwner id }

end Duel

namespace Play

/-- Fail because of what a card or a caller asked for. -/
def violate {α : Type} (cause : Violation) : Play α :=
  throw (.violation cause)

def lookup (id : EntityId) : Play Entity := do
  match (← get).entity? id with
  | some entity => return entity
  | none => violate (.unknownEntity id)

def lookupCode (code : String) : Play CardId := do
  match (← get).catalogue.cardByCode? code with
  | some card => return card.id
  | none => violate (.unknownCode code)

def roll {α : Type} (draw : Dice → α × Dice) : Play α :=
  modifyGet fun duel =>
    let (value, dice) := draw duel.dice
    (value, { duel with dice := dice })

def change (id : EntityId) (change : Entity → Entity) : Play Unit := do
  let _ ← lookup id
  modify fun duel => duel.updateEntity id change

def times : Nat → Play Unit → Play Unit
  | 0, _ => pure ()
  | count + 1, action => do
    action
    times count action

/-- Repair the duel that a failing action leaves behind. -/
def onFault {α : Type} (action : Play α) (repair : Duel → Duel) : Play α := fun duel =>
  match action duel with
  | .ok value left => .ok value left
  | .error fault left => .error fault (repair left)

end Play

end CardDuel
