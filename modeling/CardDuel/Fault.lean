import CardDuel.Entity

/-!
# Faults

A request can fail in four ways.  An action that the rules do not allow is
rejected before anything changes.  A violation means that a card asked for
something the table cannot answer; what was applied before it stays applied.
A finished duel takes no actions, and a setup that no duel can be built from is
refused.  Ordinary dead ends, such as an empty pool, are not faults.

Work that a duel schedules for itself need not come to an end, so it is resolved
under an allowance; running out of it is a fault of its own.
-/

namespace CardDuel

inductive Rejection
  | notYourTurn
  | wrongStep
  | notInHand
  | notEnoughMana (cost available : Int)
  | invalidTarget
  | targetRequired
  | boardFull
  | requirementFailed (requirement : Requirement)
  | cannotAttack
  | heroPowerUsed
  | choicePending
  | noChoicePending
  | invalidChoice
  | duplicateSecret
  | unknownEntity
deriving DecidableEq, Inhabited

def Rejection.name : Rejection → String
  | notYourTurn => "NotYourTurn"
  | wrongStep => "WrongStep"
  | notInHand => "NotInHand"
  | notEnoughMana .. => "NotEnoughMana"
  | invalidTarget => "InvalidTarget"
  | targetRequired => "TargetRequired"
  | boardFull => "BoardFull"
  | requirementFailed _ => "RequirementFailed"
  | cannotAttack => "CannotAttack"
  | heroPowerUsed => "HeroPowerUsed"
  | choicePending => "ChoicePending"
  | noChoicePending => "NoChoicePending"
  | invalidChoice => "InvalidChoice"
  | duplicateSecret => "DuplicateSecret"
  | unknownEntity => "UnknownEntity"

def Rejection.message : Rejection → String
  | notYourTurn => "it is not this player's turn"
  | wrongStep => "action not allowed during the current step"
  | notInHand => "card is not in the player's hand"
  | notEnoughMana cost available => s!"not enough mana: cost {cost}, available {available}"
  | invalidTarget => "invalid target"
  | targetRequired => "a target is required"
  | boardFull => "the board is full"
  | requirementFailed requirement => s!"play requirement not met: {requirement.name}"
  | cannotAttack => "this character cannot attack"
  | heroPowerUsed => "hero power already used this turn"
  | choicePending => "a choice is pending"
  | noChoicePending => "no choice is pending"
  | invalidChoice => "option is not part of the pending choice"
  | duplicateSecret => "that secret is already active"
  | unknownEntity => "unknown entity"

/-- What a card or a caller asked for that the table cannot answer. -/
inductive Violation
  | unknownEntity (id : EntityId)
  | unknownCard (id : CardId)
  | unknownCode (code : String)
  | notInstantiable (code : String)
  | spellInPlay (id : EntityId)
  | noFieldSlot (id : EntityId)
  | notPlayable (kind : EntityKind) (id : EntityId)
  | alreadyStarted
  | openingNotOver
  | emptySelector (source : EntityId) (controller : Player)
  | attackWithoutDefender (source : EntityId)
  | noClassFrom (selector : Selector)
  | noClass
  | summonOfNonMinion (id : EntityId)
  | noPlaceFor (selector : Selector)
  | notAnEnchantment (code : String)
  | enchantmentWithoutEffect (code : String)
  | noFormOf (code : String)
  | kindChange (kind : EntityKind) (id : EntityId) (wanted : EntityKind)
  | noPendingChoice (player : Player)
  | misplaced (id : EntityId) (zone : ZoneKind) (index : Nat) (player : Player) (entity : Entity)
  | slotOutsidePlay (id : EntityId) (player : Player)
  | notHeld (id : EntityId) (zone : ZoneKind)
deriving DecidableEq, Inhabited

def Violation.message : Violation → String
  | unknownEntity id => s!"unknown {id.label}"
  | unknownCard id => s!"unknown {id.label}"
  | unknownCode code => s!"unknown card code {code}"
  | notInstantiable code => s!"{code} cannot be instantiated"
  | spellInPlay id => s!"spell {id.label} cannot enter play"
  | noFieldSlot id => s!"no field slot for {id.label}"
  | notPlayable kind id => s!"{kind.name} {id.label} cannot be played from hand"
  | alreadyStarted => "game already started"
  | openingNotOver => "the opening steps run from start()"
  | emptySelector source controller =>
    s!"selector {Selector.nothing.name} resolved for {source.label} of {controller.label}"
  | attackWithoutDefender source => s!"attack by {source.label} without a defender"
  | noClassFrom selector => s!"random card cannot take a class from {selector.name}"
  | noClass => "random card has no class to draw from"
  | summonOfNonMinion id => s!"{id.label} is not a minion and cannot be summoned"
  | noPlaceFor selector => s!"cannot add stack entities to {selector.name}"
  | notAnEnchantment code => s!"{code} is not an enchantment"
  | enchantmentWithoutEffect code => s!"enchantment {code} has no effect"
  | noFormOf code => s!"cannot transform into {code}"
  | kindChange kind id wanted => s!"cannot transform {kind.name} {id.label} into {wanted.name}"
  | noPendingChoice player => s!"{player.label} has no pending choice"
  | misplaced id zone index player entity =>
    s!"{id.label} is at {zone.name}[{index}] of {player.label} but records " ++
      s!"{entity.zone.name}[{entity.position}] of {entity.owner.label}"
  | slotOutsidePlay id player => s!"{id.label} fills a slot of {player.label} outside play"
  | notHeld id zone => s!"{id.label} records {zone.name} but no container holds it"

/-- Why no duel can be built from a catalogue and settings. -/
inductive SetupError
  | idTaken (id : CardId)
  | codeTaken (code : String)
  | unknownHero (code : String)
  | notAHero (code : String)
  | noCapacity
  | noMana
  | unplayableClass (player : Nat) (cardClass : CardClass)
  | deckTooLarge (player size limit : Nat)
  | noSuchPlayer (player : Nat)
  | noDefaultHero (cardClass : CardClass)
  | heroWithoutPower (code : String)
  | unknownHeroPower (code : String)
  | unknownDeckCard (code : String) (player : Player)
  | nothingToFill (player : Player)
  | unknownCoin (code : String)
deriving DecidableEq, Inhabited

def SetupError.message : SetupError → String
  | idTaken id => s!"{id.label} already registered"
  | codeTaken code => s!"card code {code} already registered"
  | unknownHero code => s!"unknown hero {code}"
  | notAHero code => s!"{code} is not a hero card"
  | noCapacity => "zone capacities must be positive"
  | noMana => "max mana must be positive"
  | unplayableClass player cardClass =>
    s!"{Player.numberedLabel player} has no playable class ({cardClass.name})"
  | deckTooLarge player size limit =>
    s!"{Player.numberedLabel player} deck has {size} cards, above deck size {limit}"
  | noSuchPlayer player => s!"the match has no {Player.numberedLabel player}"
  | noDefaultHero cardClass => s!"no default hero for {cardClass.name}"
  | heroWithoutPower code => s!"hero {code} has no hero power"
  | unknownHeroPower code => s!"unknown hero power {code}"
  | unknownDeckCard code player => s!"unknown card {code} in deck of {player.label}"
  | nothingToFill player => s!"no cards to fill the deck of {player.label}"
  | unknownCoin code => s!"unknown coin card {code}"

/-- Why a request fails. -/
inductive Fault
  | rejected (reason : Rejection)
  | violation (cause : Violation)
  | gameOver
  | setup (cause : SetupError)
  /-- The scheduled work did not come to an end within the allowance. -/
  | unsettled
deriving DecidableEq, Inhabited

namespace Fault

def message : Fault → String
  | rejected reason => s!"invalid action: {reason.message}"
  | violation cause => s!"contract violation: {cause.message}"
  | gameOver => "the game is over"
  | setup cause => s!"invalid configuration: {cause.message}"
  | unsettled => "the scheduled work does not come to an end"

/-- Whether an action was refused before anything changed. -/
def isRejection : Fault → Bool
  | rejected _ => true
  | _ => false

end Fault

end CardDuel
