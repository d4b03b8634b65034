import CardDuel.Condition

/-!
# Modifiers

A modifier changes stats and grants keywords.  It reaches an entity in two ways.
An enchantment stays on one entity until it expires, is silenced or loses its
creator.  An aura is projected by a source in play and is never written to the
entities it reaches: each of them only carries the total of what reaches it.
-/

namespace CardDuel

structure CardId where
  number : Nat
deriving DecidableEq, Inhabited

def CardId.label (id : CardId) : String :=
  s!"Card({id.number})"

structure Modifier where
  attack : Int
  health : Int
  cost : Int
  grants : List Tag
  /-- Expires in the cleanup of the turn. -/
  oneTurn : Bool
  /-- Goes when the entity that created it leaves play. -/
  linked : Bool
deriving DecidableEq, Inhabited

namespace Modifier

def none : Modifier :=
  ⟨0, 0, 0, [], false, false⟩

end Modifier

structure Enchantment where
  /-- The enchantment card it came from. -/
  card : CardId
  creator : EntityId
  effect : Modifier
deriving DecidableEq, Inhabited

/-- Which entities an aura reaches, seen from its source. -/
inductive AuraReach
  | field
  | fieldExceptSource
  | adjacent
  | enemyField
  | allMinions
  | hand
  | hero
  | weapon
deriving DecidableEq, Inhabited

namespace AuraReach

def name : AuraReach → String
  | field => "Field"
  | fieldExceptSource => "FieldExceptSource"
  | adjacent => "Adjacent"
  | enemyField => "EnemyField"
  | allMinions => "AllMinions"
  | hand => "Hand"
  | hero => "Hero"
  | weapon => "Weapon"

instance : Enumerated AuraReach where
  values := [field, fieldExceptSource, adjacent, enemyField, allMinions, hand, hero, weapon]
  name := name
  mem_values reach := by cases reach <;> decide

end AuraReach

/-- A modifier that a source in play projects. -/
structure Aura where
  reach : AuraReach
  effect : Modifier
  /-- Only entities that satisfy it are affected. -/
  condition : Option Condition

structure AuraTotal where
  attack : Int
  health : Int
  cost : Int
  /-- Every granted keyword once, in the order of the first grant. -/
  grants : List Tag
deriving DecidableEq, Inhabited

namespace AuraTotal

def zero : AuraTotal :=
  ⟨0, 0, 0, []⟩

def grant (grants : List Tag) (tag : Tag) : List Tag :=
  if grants.contains tag then grants else grants ++ [tag]

def add (total : AuraTotal) (modifier : Modifier) : AuraTotal where
  attack := total.attack + modifier.attack
  health := total.health + modifier.health
  cost := total.cost + modifier.cost
  grants := modifier.grants.foldl grant total.grants

def sum (modifiers : List Modifier) : AuraTotal :=
  modifiers.foldl add zero

def isZero (total : AuraTotal) : Bool :=
  total = zero

end AuraTotal

end CardDuel
