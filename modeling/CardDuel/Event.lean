import CardDuel.Zone

/-!
# Events

What happens in a duel is announced as events.  Triggers listen for a kind of
event and decide by its subject whether they react.
-/

namespace CardDuel

/-- The kinds of event that triggers listen for. -/
inductive EventKind
  | turnStart
  | turnEnd
  | playCard
  | playMinion
  | afterPlayMinion
  | summon
  | afterSummon
  | castSpell
  | afterCast
  | drawCard
  | equipWeapon
  | inspire
  | attack
  | afterAttack
  | takeDamage
  | dealDamage
  | heal
  | death
deriving DecidableEq, Inhabited

namespace EventKind

def name : EventKind → String
  | turnStart => "TurnStart"
  | turnEnd => "TurnEnd"
  | playCard => "PlayCard"
  | playMinion => "PlayMinion"
  | afterPlayMinion => "AfterPlayMinion"
  | summon => "Summon"
  | afterSummon => "AfterSummon"
  | castSpell => "CastSpell"
  | afterCast => "AfterCast"
  | drawCard => "DrawCard"
  | equipWeapon => "EquipWeapon"
  | inspire => "Inspire"
  | attack => "Attack"
  | afterAttack => "AfterAttack"
  | takeDamage => "TakeDamage"
  | dealDamage => "DealDamage"
  | heal => "Heal"
  | death => "Death"

instance : Enumerated EventKind where
  values :=
    [turnStart, turnEnd, playCard, playMinion, afterPlayMinion, summon, afterSummon, castSpell,
      afterCast, drawCard, equipWeapon, inspire, attack, afterAttack, takeDamage, dealDamage,
      heal, death]
  name := name
  mem_values kind := by cases kind <;> decide

/-- The subject of these events is whom they happen to, not who caused them. -/
def subjectIsTarget : EventKind → Bool
  | takeDamage | heal => true
  | _ => false

/-- These events belong to a player and have no subject. -/
def isTurnEvent : EventKind → Bool
  | turnStart | turnEnd => true
  | _ => false

end EventKind

structure Event where
  kind : EventKind
  /-- The player the event belongs to. -/
  player : Player
  source : Option EntityId
  /-- The entity it happened to. -/
  target : Option EntityId
  /-- Damage dealt or health restored. -/
  amount : Int
deriving DecidableEq, Inhabited

namespace Event

def plain (kind : EventKind) (player : Player) : Event :=
  ⟨kind, player, none, none, 0⟩

def caused (kind : EventKind) (player : Player) (source : EntityId) : Event :=
  ⟨kind, player, some source, none, 0⟩

def aimed (kind : EventKind) (player : Player) (source : EntityId) (target : Option EntityId) :
    Event :=
  ⟨kind, player, some source, target, 0⟩

def subject (event : Event) : Option EntityId :=
  if event.kind.isTurnEvent then none
  else if event.kind.subjectIsTarget then event.target
  else event.source

end Event

end CardDuel
