import CardDuel.Duel.Judgement

/-!
# Who may attack what

Characters of the current player attack characters of the other side.  Hidden
characters cannot be attacked, a side with visible taunts has to be attacked
through them, and a rushing minion cannot attack a hero in its first turn.
-/

namespace CardDuel

namespace Entity

/-- Whether a character is not held back by freshness, ice or the attacks it already made. -/
def isReady (entity : Entity) : Bool :=
  !entity.has .frozen &&
    (!entity.tags.has .exhausted || entity.has .charge || entity.has .rush) &&
    entity.tags.get .attacksThisTurn < (if entity.has .windfury then 2 else 1)

/-- Whether a minion attacks in its first turn by rush alone. -/
def isRushing (entity : Entity) : Bool :=
  entity.tags.has .exhausted && entity.has .rush && !entity.has .charge

/-- Whether a character can be attacked when no taunt is in the way. -/
def isExposed (entity : Entity) : Bool :=
  entity.inPlay && !entity.isDead && !entity.isHidden

def isTaunting (entity : Entity) : Bool :=
  entity.kind = .minion && entity.has .taunt

end Entity

namespace Duel

def passes (duel : Duel) (test : Entity → Bool) (id : EntityId) : Bool :=
  match duel.entity? id with
  | none => false
  | some entity => test entity

/-- Whether a character of the current player may attack now. -/
def canAttack (duel : Duel) (attacker : EntityId) : Bool :=
  duel.passes
    (fun entity =>
      entity.inPlay && entity.isCharacter && !entity.isDead && entity.owner = duel.current &&
        0 < duel.attackOf attacker && entity.isReady)
    attacker

/-- The enemy characters that a character may attack, the hero first. -/
def attackTargets (duel : Duel) (attacker : EntityId) : List EntityId :=
  match duel.entity? attacker with
  | none => []
  | some entity =>
    let exposed := (duel.side entity.owner.opponent).filter (duel.passes Entity.isExposed)
    let taunting := exposed.filter (duel.passes Entity.isTaunting)
    let targets := if taunting.isEmpty then exposed else taunting
    if entity.isRushing then targets.filter (duel.passes fun target => target.kind ≠ .hero)
    else targets

def checkAttack (duel : Duel) (player : Player) (attacker defender : EntityId) :
    Except Rejection Unit :=
  match duel.entity? attacker with
  | none => .error .unknownEntity
  | some entity =>
    if entity.owner ≠ player || !duel.canAttack attacker then .error .cannotAttack
    else if (duel.entity? defender).isNone then .error .unknownEntity
    else if !(duel.attackTargets attacker).contains defender then .error .invalidTarget
    else .ok ()

end Duel

end CardDuel
