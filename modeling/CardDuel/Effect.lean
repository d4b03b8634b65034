import CardDuel.Condition

/-!
# Effects

Effects are the building blocks of what cards do: a card holds ordered lists of
them.  Some steer the list they stand in, some work on the scratch values of the
running list, and the others change the duel.  A selector names the entities an
effect applies to and is read when the effect runs.
-/

namespace CardDuel

/-- A symbolic set of entities, seen from a running effect list. -/
inductive Selector
  | source
  | target
  | hero
  | enemyHero
  | everyone
  | allMinions
  | allMinionsExceptSource
  | minions
  | minionsExceptSource
  | enemyMinions
  | enemies
  | friends
  | weapon
  | enemyWeapon
  | hand
  | enemyHand
  | deck
  | collected
  | eventSource
  | eventTarget
  | heroPower
  | nothing
deriving DecidableEq, Inhabited

namespace Selector

def name : Selector → String
  | source => "Source"
  | target => "Target"
  | hero => "Hero"
  | enemyHero => "EnemyHero"
  | everyone => "All"
  | allMinions => "AllMinions"
  | allMinionsExceptSource => "AllMinionsNoSource"
  | minions => "Minions"
  | minionsExceptSource => "MinionsNoSource"
  | enemyMinions => "EnemyMinions"
  | enemies => "Enemies"
  | friends => "Friends"
  | weapon => "Weapon"
  | enemyWeapon => "EnemyWeapon"
  | hand => "Hand"
  | enemyHand => "EnemyHand"
  | deck => "Deck"
  | collected => "Stack"
  | eventSource => "EventSource"
  | eventTarget => "EventTarget"
  | heroPower => "HeroPower"
  | nothing => "Invalid"

instance : Enumerated Selector where
  values :=
    [source, target, hero, enemyHero, everyone, allMinions, allMinionsExceptSource, minions,
      minionsExceptSource, enemyMinions, enemies, friends, weapon, enemyWeapon, hand, enemyHand,
      deck, collected, eventSource, eventTarget, heroPower, nothing]
  name := name
  mem_values selector := by cases selector <;> decide

end Selector

/-- Where a summoned minion lands, seen from the source of the effect. -/
inductive SummonSide
  | rightmost
  | right
  | left
  | inPlace
deriving DecidableEq, Inhabited

namespace SummonSide

def name : SummonSide → String
  | rightmost => "Default"
  | right => "Right"
  | left => "Left"
  | inPlace => "InPlace"

instance : Enumerated SummonSide where
  values := [rightmost, right, left, inPlace]
  name := name
  mem_values side := by cases side <;> decide

end SummonSide

inductive Effect
  /-- Set the flag to whether every selected entity satisfies the condition. -/
  | test (selector : Selector) (condition : Condition)
  /-- Stop the list unless every selected entity satisfies the condition. -/
  | guard (selector : Selector) (condition : Condition)
  /-- Run a nested list when the flag has the given value. -/
  | whenFlag (value : Bool) (effects : List Effect)
  | sequence (effects : List Effect)
  | repeated (times : Nat) (effects : List Effect)
  /-- Replace the collected entities with a selection. -/
  | collect (selector : Selector)
  /-- Keep the collected entities that satisfy the condition. -/
  | keep (condition : Condition)
  /-- Keep some collected entities, chosen at random. -/
  | pickRandom (count : Nat)
  /-- Load a tag of the first selected entity into the number. -/
  | readTag (selector : Selector) (tag : Tag)
  | addNumber (operand : Int)
  | multiplyNumber (operand : Int)
  | damage (selector : Selector) (amount : Int) (spellDamage : Bool)
  | damageByNumber (selector : Selector) (spellDamage : Bool)
  | heal (selector : Selector) (amount : Int)
  | healByNumber (selector : Selector)
  | gainArmor (amount : Int)
  | destroy (selector : Selector)
  | freeze (selector : Selector)
  | silence (selector : Selector)
  /-- Combat between the source and the target. -/
  | attack
  | draw (count : Nat)
  /-- Create copies of a card in a zone of the controller or the opponent. -/
  | addCards (code : String) (zone : ZoneKind) (count : Nat) (opposite : Bool)
  | summon (code : String) (side : SummonSide)
  | returnToHand (selector : Selector)
  | moveTo (selector : Selector) (zone : ZoneKind)
  /-- Turn each selected entity into another card where it stands. -/
  | transform (selector : Selector) (code : String)
  /-- Make one random card of a class, which a hero or else the effect itself names. -/
  | makeRandom (selector : Selector) (cardType : CardType) (cardClass : CardClass) (race : Race)
      (opposite : Bool)
  /-- Make random cards of the source's entourage. -/
  | makeEntourage (count : Nat) (absentOnly : Bool)
  /-- Put the made cards into a hand, a deck or onto the field. -/
  | placeMade (selector : Selector)
  /-- Offer three distinct cards; the pick goes to the controller's hand. -/
  | discover (cardType : CardType) (race : Race)
  | equip (code : String)
  | replaceHero (hero : String) (power : String) (weapon : Option String)
  | setTag (selector : Selector) (tag : Tag) (value : Int)
  | setPlayerTag (tag : Tag) (value : Int)
  | enchant (code : String) (selector : Selector)
  | gainCrystals (amount : Int) (filled : Bool)
  | gainTemporaryMana (amount : Int)
deriving Inhabited

namespace Effect

mutual

/-- An upper bound for the steps that an effect takes, all nested lists included: each list
costs one step to leave, each effect one step to run. -/
def weight : Effect → Nat
  | whenFlag _ effects => 2 + listWeight effects
  | sequence effects => 2 + listWeight effects
  | repeated times effects => 2 + times * listWeight effects
  | _ => 1

/-- The weight of a list is the sum of the weights in it. -/
def listWeight : List Effect → Nat
  | [] => 0
  | effect :: effects => weight effect + listWeight effects

end

theorem listWeight_append (first second : List Effect) :
    listWeight (first ++ second) = listWeight first + listWeight second := by
  induction first with
  | nil => simp [listWeight]
  | cons effect effects ih => simp [listWeight, ih, Nat.add_assoc]

/-- Put one copy of a card into the hand of the controller. -/
def oneCopyToHand (code : String) : Effect :=
  .addCards code .hand 1 false

end Effect

end CardDuel
