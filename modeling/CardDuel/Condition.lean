import CardDuel.Card.Attribute
import CardDuel.Tag
import CardDuel.Zone

/-!
# Conditions

A condition is a predicate on one entity, read against the table.  Triggers
filter their events with it, effects branch on it and auras choose by it.
Conditions on a zone speak of the entity's owner.
-/

namespace CardDuel

/-- A condition that needs nothing but the entity and the table. -/
inductive Trait
  | handEmpty
  | handFull
  | fieldFull
  | deckEmpty
  | weaponEquipped
  | myTurn
  | minion
  | hero
  | weapon
  | spell
  | friendly
  | enemy
  | source
  | notSource
  | damaged
  | undamaged
  | frozen
  | always
deriving DecidableEq, Inhabited

namespace Trait

def name : Trait → String
  | handEmpty => "IsHandEmpty"
  | handFull => "IsHandFull"
  | fieldFull => "IsFieldFull"
  | deckEmpty => "IsDeckEmpty"
  | weaponEquipped => "IsWeaponEquipped"
  | myTurn => "IsMyTurn"
  | minion => "IsMinion"
  | hero => "IsHero"
  | weapon => "IsWeapon"
  | spell => "IsSpell"
  | friendly => "IsFriendly"
  | enemy => "IsEnemy"
  | source => "IsSource"
  | notSource => "IsNotSource"
  | damaged => "IsDamaged"
  | undamaged => "IsUndamaged"
  | frozen => "IsFrozen"
  | always => "Always"

instance : Enumerated Trait where
  values :=
    [handEmpty, handFull, fieldFull, deckEmpty, weaponEquipped, myTurn, minion, hero, weapon,
      spell, friendly, enemy, source, notSource, damaged, undamaged, frozen, always]
  name := name
  mem_values trait := by cases trait <;> decide

end Trait

inductive Condition
  | is (trait : Trait)
  | inZone (zone : ZoneKind)
  | hasTag (tag : Tag)
  | ofRace (race : Race)
  | attackAtLeast (bound : Int)
  | attackAtMost (bound : Int)
  | healthAtMost (bound : Int)
  | all (conditions : List Condition)
  | any (conditions : List Condition)
  | not (condition : Condition)
deriving Inhabited

namespace Condition

def negate (condition : Condition) : Condition :=
  .not condition

/-- Both conditions.  A conjunction takes the new condition in as its last member. -/
def and : Condition → Condition → Condition
  | .all conditions, other => .all (conditions ++ [other])
  | condition, other => .all [condition, other]

end Condition

end CardDuel
