import CardDuel.Duel.Judgement

/-!
# Announcing events

Announcing an event queues one reaction for each live trigger that matches it.
On each side the hero and its slots react first, then the field from left to
right, then secrets, then the hand, then everything else.
-/

namespace CardDuel.Duel

/-- The rank of a handle that belongs to nothing: behind every entity. -/
def lastRank : Nat := Nat.pow 2 64 - 1

/-- The place of an entity among the trigger sources of its side. -/
def rank (duel : Duel) (id : EntityId) : Nat :=
  match duel.entity? id with
  | none => lastRank
  | some entity =>
    match entity.zone with
    | .play => if entity.kind = .minion then entity.position + 1 else 0
    | .secret => 100 + entity.position
    | .hand => 200 + entity.position
    | _ => 300 + entity.position

def triggerView (duel : Duel) : TriggerView where
  current := duel.current
  ownerOf id := (duel.entity? id).map Entity.owner
  kindOf id := (duel.entity? id).map Entity.kind
  heroOf player := duel.hero player
  rank id := duel.rank id
  holds trigger condition subject :=
    duel.satisfies ⟨trigger.controller, trigger.owner⟩ condition subject

/-- The live triggers that react to an event, in the order in which they react. -/
def reactionsTo (duel : Duel) (event : Event) : List Trigger :=
  duel.triggers.reactions duel.triggerView event

def announce (duel : Duel) (event : Event) : Duel :=
  { duel with
    agenda := duel.agenda.addReactions
      ((duel.reactionsTo event).map fun trigger => .trigger trigger.id event) }

end CardDuel.Duel
