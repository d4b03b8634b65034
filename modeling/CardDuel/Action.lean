import CardDuel.Zone

/-!
# Actions

What a player can ask of a duel, and the record that an accepted request leaves.
-/

namespace CardDuel

inductive Action
  /-- Play a card from the hand; without a position a minion goes to the right end. -/
  | playCard (card : EntityId) (target : Option EntityId) (position : Option Nat)
  | attack (attacker defender : EntityId)
  | heroPower (target : Option EntityId)
  | endTurn
  /-- Answer the opening choice with the cards to replace. -/
  | mulligan (replace : List EntityId)
  /-- Pick one option of a pending choice. -/
  | choose (entity : EntityId)
  | concede
deriving DecidableEq, Inhabited

namespace Action

/-- Play a card with no target at the default position. -/
def play (card : EntityId) : Action :=
  .playCard card none none

def playAt (card target : EntityId) : Action :=
  .playCard card (some target) none

def playInto (card : EntityId) (position : Nat) : Action :=
  .playCard card none (some position)

end Action

structure ActionRecord where
  player : Player
  action : Action
  turn : Nat
  /-- How many requests were accepted before it. -/
  sequence : Nat
deriving DecidableEq, Inhabited

/-- What kind of decision a duel waits for. -/
inductive ChoiceKind
  | mulligan
  | discover
deriving DecidableEq, Inhabited

namespace ChoiceKind

def name : ChoiceKind → String
  | mulligan => "Mulligan"
  | discover => "Discover"

instance : Enumerated ChoiceKind where
  values := [mulligan, discover]
  name := name
  mem_values kind := by cases kind <;> decide

end ChoiceKind

structure Choice where
  kind : ChoiceKind
  options : List EntityId
deriving DecidableEq, Inhabited

end CardDuel
