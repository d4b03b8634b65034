import CardDuel.Entity
import CardDuel.Word

/-!
# What a player has

Class, tags and the three slots of a player: hero, hero power and weapon.  Mana is
kept in the tags.  What can be spent is the crystals plus temporary mana, less
what is used up or locked.  The counters of a player are words, and a sum that no
word holds is remembered.
-/

namespace CardDuel

inductive Standing
  | playing
  | won
  | lost
  | tied
  | conceded
deriving DecidableEq, Inhabited

namespace Standing

def name : Standing → String
  | playing => "Playing"
  | won => "Won"
  | lost => "Lost"
  | tied => "Tied"
  | conceded => "Conceded"

instance : Enumerated Standing where
  values := [playing, won, lost, tied, conceded]
  name := name
  mem_values standing := by cases standing <;> decide

end Standing

/-- What belongs to one player besides the zones. -/
structure PlayerState where
  cardClass : CardClass
  tags : Tags
  hero : EntityId
  heroPower : EntityId
  weapon : Option EntityId
  standing : Standing
  /-- Whether a sum of counters did not fit its word.  A build that checks its sums stops there. -/
  overflowed : Bool
deriving DecidableEq, Inhabited

namespace PlayerState

/-- A player of a class before hero and hero power are there; their slots hold the player. -/
def initial (player : Player) (cardClass : CardClass) : PlayerState where
  cardClass := cardClass
  tags := Tags.empty
  hero := EntityId.ofPlayer player
  heroPower := EntityId.ofPlayer player
  weapon := none
  standing := .playing
  overflowed := false

def setTag (state : PlayerState) (tag : Tag) (value : Int) : PlayerState :=
  { state with tags := state.tags.set tag value }

/-- Remember whether a sum fits its word. -/
def watch (state : PlayerState) (sum : Int) : PlayerState :=
  { state with overflowed := state.overflowed || decide (¬ Word.Fits sum) }

def addTag (state : PlayerState) (tag : Tag) (change : Int) : PlayerState :=
  let sum := state.tags.get tag + change
  (state.watch sum).setTag tag (Word.signed sum)

def totalMana (state : PlayerState) : Int :=
  state.tags.get .crystals

/-- The mana that can still be spent this turn. -/
def remainingMana (state : PlayerState) : Int :=
  max (Word.signed (state.tags.get .crystals + state.tags.get .temporaryMana -
    state.tags.get .manaUsed - state.tags.get .overloadLocked)) 0

def spendMana (state : PlayerState) (amount : Int) : PlayerState :=
  let fromTemporary := min (state.tags.get .temporaryMana) amount
  (state.addTag .temporaryMana (-fromTemporary)).addTag .manaUsed (amount - fromTemporary)

/-- Set the crystals and make all of them available. -/
def refillMana (state : PlayerState) (total : Int) : PlayerState :=
  ((state.setTag .crystals total).setTag .manaUsed 0).setTag .overloadLocked 0

/-- Gain or lose crystals between none and the cap; unless filled, new ones count as used. -/
def gainCrystals (state : PlayerState) (cap amount : Int) (filled : Bool) : PlayerState :=
  let before := state.totalMana
  let after := min (max (Word.signed (before + amount)) 0) cap
  let grown := (state.watch (before + amount)).setTag .crystals after
  if !filled && before < after then grown.addTag .manaUsed (after - before) else grown

def gainTemporaryMana (state : PlayerState) (cap amount : Int) : PlayerState :=
  let sum := state.tags.get .temporaryMana + amount
  (state.watch sum).setTag .temporaryMana (min (Word.signed sum) cap)

/-- The mana of a new turn: one crystal more up to the cap, nothing used, and the overload that is
owed now locks crystals. -/
def renewMana (state : PlayerState) (cap : Int) : PlayerState :=
  let sum := state.totalMana + 1
  let renewed := ((state.watch sum).setTag .crystals (min (Word.signed sum) cap)).setTag .manaUsed 0
  (renewed.setTag .overloadLocked (renewed.tags.get .overloadOwed)).setTag .overloadOwed 0

def isPlaying (state : PlayerState) : Bool :=
  state.standing = .playing

end PlayerState

end CardDuel
