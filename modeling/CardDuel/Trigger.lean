import CardDuel.Effect
import CardDuel.Event

/-!
# Triggers

A trigger rule stands on a card: it listens for a kind of event whose subject it
watches and then runs effects.  It is live while its entity is in the rule's
zone; a live trigger is the rule bound to that entity and its controller.
-/

namespace CardDuel

/-- Which event subjects a trigger reacts to, seen from its owner. -/
inductive Watch
  | self
  | friendly
  | enemy
  | everyone
  | hero
  | enemyHero
  | friendlyMinions
  | otherFriendlyMinions
  | enemyMinions
  | allMinions
deriving DecidableEq, Inhabited

namespace Watch

def name : Watch → String
  | self => "SelfEntity"
  | friendly => "Friendly"
  | enemy => "Enemy"
  | everyone => "All"
  | hero => "Hero"
  | enemyHero => "EnemyHero"
  | friendlyMinions => "FriendlyMinions"
  | otherFriendlyMinions => "MinionsExceptSelf"
  | enemyMinions => "EnemyMinions"
  | allMinions => "AllMinions"

instance : Enumerated Watch where
  values :=
    [self, friendly, enemy, everyone, hero, enemyHero, friendlyMinions, otherFriendlyMinions,
      enemyMinions, allMinions]
  name := name
  mem_values watch := by cases watch <;> decide

/-- Which turn events a watch reacts to: they have a player and no subject. -/
def seesTurnOf (watch : Watch) (controller player : Player) : Bool :=
  match watch with
  | everyone => true
  | enemy | enemyHero | enemyMinions => player ≠ controller
  | _ => player = controller

end Watch

structure TriggerRule where
  listensFor : EventKind
  watches : Watch
  effects : List Effect
  condition : Option Condition
  /-- Fires once and is gone. -/
  once : Bool
  /-- The zone in which the trigger is live. -/
  zone : ZoneKind
deriving Inhabited

structure TriggerId where
  number : Nat
deriving DecidableEq, Inhabited

def TriggerId.label (id : TriggerId) : String :=
  s!"Trigger({id.number})"

structure Trigger where
  id : TriggerId
  owner : EntityId
  controller : Player
  rule : TriggerRule
deriving Inhabited

/-- Where a trigger handle stands in its life. -/
inductive TriggerStage
  | unregistered
  | active
  | removed
deriving DecidableEq, Inhabited

namespace TriggerStage

def name : TriggerStage → String
  | unregistered => "Unregistered"
  | active => "Active"
  | removed => "Removed"

instance : Enumerated TriggerStage where
  values := [unregistered, active, removed]
  name := name
  mem_values stage := by cases stage <;> decide

end TriggerStage

end CardDuel
