import CardDuel.Duel.Judgement

/-!
# Requirements and targets

The requirements of a card are the printed ones together with those of its
behaviour.  Target filters narrow the characters that a play may be aimed at; the
other requirements are gates of the play itself.
-/

namespace CardDuel

namespace Requirements

/-- Whether a play takes a target at all. -/
def takesTarget (requirements : Requirements) : Bool :=
  requirements.contains .targetToPlay || requirements.contains .targetIfAvailable

end Requirements

namespace Duel

def requirements (duel : Duel) (source : EntityId) : Requirements :=
  match duel.entity? source with
  | none => Requirements.empty
  | some entity =>
    let printed :=
      match duel.catalogue.card? entity.card with
      | none => Requirements.empty
      | some card => card.requirements
    printed.union (duel.behaviourOf entity).requirements

/-- Whether a character passes one requirement of a play. -/
def passesFilter (duel : Duel) (player : Player) (source target : EntityId) (entity : Entity)
    (requirement : Requirement) (value : Int) : Bool :=
  match requirement with
  | .minionTarget => entity.kind = .minion
  | .heroTarget => entity.kind = .hero
  | .friendlyTarget => entity.owner = player
  | .enemyTarget => entity.owner ≠ player
  | .damagedTarget => entity.isDamaged
  | .undamagedTarget => !entity.isDamaged
  | .frozenTarget => entity.has .frozen
  | .nonSelfTarget => target ≠ source
  | .targetMaxAttack => duel.attackOf target ≤ value
  | .targetMinAttack => value ≤ duel.attackOf target
  | .targetWithRace =>
    match duel.cardOf? target with
    | none => false
    | some card => card.race.belongsTo (Race.ofValue value)
  | _ => true

def isCast (duel : Duel) (source : EntityId) : Bool :=
  match (duel.entity? source).map Entity.kind with
  | some .spell | some .heroPower => true
  | _ => false

def isAllowedTarget (duel : Duel) (player : Player) (source : EntityId)
    (requirements : Requirements) (target : EntityId) : Bool :=
  match duel.entity? target with
  | none => false
  | some entity =>
    entity.inPlay && entity.isCharacter &&
      !(entity.owner ≠ player && entity.isHidden) &&
      !(duel.isCast source && entity.has .untargetable) &&
      requirements.toList.all fun entry =>
        duel.passesFilter player source target entity entry.1 entry.2

/-- The characters that a play may be aimed at: the player's side first, heroes before minions. -/
def validTargets (duel : Duel) (player : Player) (source : EntityId) : List EntityId :=
  let requirements := duel.requirements source
  if requirements.takesTarget then
    (duel.side player ++ duel.side player.opponent).filter
      fun target => duel.isAllowedTarget player source requirements target
  else []

def hasOnField (duel : Duel) (player : Player) (code : String) : Bool :=
  (duel.field player).any fun id => (duel.cardOf? id).map Card.code = some code

/-- The size of a field as the 32-bit number that requirements are compared with. -/
def fieldCapacity (duel : Duel) : Int :=
  Int.bmod duel.settings.fieldSize 0x100000000

def passesGate (duel : Duel) (player : Player) (source : EntityId) (requirement : Requirement)
    (value : Int) : Bool :=
  let own : Int := (duel.field player).length
  let enemy : Int := (duel.field player.opponent).length
  match requirement with
  | .minimumEnemyMinions => value ≤ enemy
  | .minimumTotalMinions => value ≤ own + enemy
  | .minionSlots => value ≤ duel.fieldCapacity - own
  | .weaponEquipped => (duel.weapon player).isSome
  | .entourageNotComplete =>
    match duel.cardOf? source with
    | none => true
    | some card => card.entourage.any fun code => !duel.hasOnField player code
  | _ => true

/-- The first gate, in the order of requirements, that does not let a play pass. -/
def closedGate? (duel : Duel) (player : Player) (source : EntityId)
    (requirements : Requirements) : Option Requirement :=
  (requirements.toList.find? fun entry =>
    !entry.1.isTargetFilter && !duel.passesGate player source entry.1 entry.2).map Prod.fst

/-- Check the target that a play is aimed at, or that it has none. -/
def checkTarget (duel : Duel) (player : Player) (source : EntityId) (target : Option EntityId) :
    Except Rejection Unit :=
  let requirements := duel.requirements source
  if requirements.takesTarget then
    let targets := duel.validTargets player source
    match target with
    | some target => if targets.contains target then .ok () else .error .invalidTarget
    | none =>
      if requirements.contains .targetToPlay || !targets.isEmpty then .error .targetRequired
      else .ok ()
  else if target.isSome then .error .invalidTarget
  else .ok ()

/-- Check a play or hero power against its requirements. -/
def checkPlay (duel : Duel) (player : Player) (source : EntityId) (target : Option EntityId) :
    Except Rejection Unit := do
  duel.checkTarget player source target
  match duel.closedGate? player source (duel.requirements source) with
  | none => .ok ()
  | some requirement => .error (.requirementFailed requirement)

end Duel

end CardDuel
