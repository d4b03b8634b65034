import CardDuel.Fault

/-!
# Settings

The settings of a duel and a catalogue together fix its opening state: classes,
decks, who starts, the seed of the dice and the sizes of the zones.
-/

namespace CardDuel

/-- Who takes the first turn. -/
inductive StartPlayer
  /-- Decided by the dice. -/
  | random
  /-- The player with this number. -/
  | fixed (player : Nat)
deriving DecidableEq, Inhabited

structure Settings where
  /-- Which sets random cards come from. -/
  format : Format
  /-- The class of player zero, of player one, and so on. -/
  classes : List CardClass
  /-- The deck of each player as card codes; the last card is the top. -/
  decks : List (List String)
  /-- Whether decks are filled up to `deckSize` with random cards. -/
  fillDecks : Bool
  startPlayer : StartPlayer
  seed : UInt64
  skipMulligan : Bool
  /-- Whether every action runs on to the next decision. -/
  autoRun : Bool
  shuffleDecks : Bool
  deckSize : Nat
  handSize : Nat
  fieldSize : Nat
  secretSize : Nat
  maxMana : Int
  /-- The card that the second player is given after the opening draw. -/
  coin : Option String
deriving DecidableEq

namespace Settings

/-- Two mages with empty decks; player zero starts without a mulligan. -/
def standard : Settings where
  format := .standard
  classes := [.mage, .mage]
  decks := [[], []]
  fillDecks := false
  startPlayer := .fixed 0
  seed := 0
  skipMulligan := true
  autoRun := true
  shuffleDecks := true
  deckSize := 30
  handSize := 10
  fieldSize := 7
  secretSize := 5
  maxMana := 10
  coin := none

instance : Inhabited Settings := ⟨standard⟩

def limits (settings : Settings) : ZoneLimits :=
  ⟨settings.handSize, settings.fieldSize, settings.secretSize⟩

/-- The first player whose class nobody can play.  Players are numbered by one byte. -/
def unplayable? (settings : Settings) : Option (CardClass × Nat) :=
  settings.classes.zipIdx.find? fun entry => !entry.1.isPlayable

/-- The first player whose deck is larger than the deck size. -/
def oversized? (settings : Settings) : Option (List String × Nat) :=
  settings.decks.zipIdx.find? fun entry => settings.deckSize < entry.1.length

/-- Refuse settings that no duel can be built from. -/
def validate (settings : Settings) : Except SetupError Unit :=
  if settings.handSize = 0 ∨ settings.fieldSize = 0 then .error .noCapacity
  else if settings.maxMana ≤ 0 then .error .noMana
  else
    match settings.unplayable? with
    | some (cardClass, place) => .error (.unplayableClass (place % 256) cardClass)
    | none =>
      match settings.oversized? with
      | some (deck, place) =>
        if settings.fillDecks then
          .error (.deckTooLarge (place % 256) deck.length settings.deckSize)
        else .ok ()
      | none => .ok ()

def classOf? (settings : Settings) (player : Player) : Option CardClass :=
  settings.classes[player.number]?

def deckOf? (settings : Settings) (player : Player) : Option (List String) :=
  settings.decks[player.number]?

end Settings

end CardDuel
