import CardDuel.Duel.Movement

/-!
# Setting up a duel

A duel begins with heroes and hero powers in their slots and the decks in place;
nothing is drawn yet.  Setting up fails when the settings are refused, a class has
no hero, or a card is not in the catalogue.
-/

namespace CardDuel

namespace Play

/-- Fail because no duel can be built. -/
def refuse {α : Type} (cause : SetupError) : Play α :=
  throw (.setup cause)

/-- Put the hero of a player's class and its hero power into their slots. -/
def setUpHero (player : Player) : Play Unit := do
  let duel ← get
  let cardClass := (duel.player player).cardClass
  match duel.catalogue.defaultHero? cardClass with
  | none => refuse (.noDefaultHero cardClass)
  | some hero =>
    match hero.heroPower with
    | none => refuse (.heroWithoutPower hero.code)
    | some code =>
      match duel.catalogue.cardByCode? code with
      | none => refuse (.unknownHeroPower code)
      | some power =>
        send (← create player hero.id) .play
        send (← create player power.id) .play

/-- Put the cards of a deck list into a player's deck, the last one on top. -/
def setUpDeck (player : Player) (codes : List String) : Play Unit :=
  codes.forM fun code => do
    match (← get).catalogue.cardByCode? code with
    | none => refuse (.unknownDeckCard code player)
    | some card => send (← create player card.id) .deck

/-- Put a random card of a pool on top of a player's deck. -/
def addRandom (player : Player) (pool : List CardId) : Play Unit := do
  let place ← roll fun dice => dice.belowLong pool.length
  match pool[place]? with
  | none => refuse (.nothingToFill player)
  | some card => send (← create player card) .deck

/-- Fill a player's deck up to the deck size with cards of the player's class. -/
def fillDeck (player : Player) : Play Unit := do
  let duel ← get
  let settings := duel.settings
  if settings.fillDecks then
    let pool := duel.catalogue.classPool settings.format (duel.player player).cardClass .unset
      .unset
    let missing := settings.deckSize - (duel.deck player).length
    if pool.isEmpty && 0 < missing then
      refuse (.nothingToFill player)
    else
      times missing (addRandom player pool)

def setUp (player : Player) : Play Unit := do
  setUpHero player
  match (← get).settings.deckOf? player with
  | none => refuse (.noSuchPlayer player.number)
  | some codes =>
    setUpDeck player codes
    fillDeck player

/-- Check that the card of the second player is in the catalogue. -/
def checkCoin : Play Unit := do
  let duel ← get
  match duel.settings.coin with
  | none => return ()
  | some code =>
    if (duel.catalogue.cardByCode? code).isNone then
      refuse (.unknownCoin code)

end Play

namespace Duel

def firstPlayer (settings : Settings) (dice : Dice) : Except SetupError (Player × Dice) :=
  match settings.startPlayer with
  | .random =>
    let (number, dice) := dice.below 2
    .ok (if number = 0 then .zero else .one, dice)
  | .fixed number =>
    match Player.ofNumber? number with
    | none => .error (.noSuchPlayer number)
    | some player => .ok (player, dice)

/-- The class of a player, which the settings have to name. -/
def classFor (settings : Settings) (player : Player) : Except SetupError CardClass :=
  match settings.classOf? player with
  | none => .error (.noSuchPlayer player.number)
  | some cardClass => .ok cardClass

def bare (settings : Settings) (catalogue : Catalogue) : Except SetupError Duel := do
  settings.validate
  let (first, dice) ← firstPlayer settings (Dice.ofSeed settings.seed)
  let zero ← classFor settings .zero
  let one ← classFor settings .one
  return {
    settings := settings
    catalogue := catalogue
    dice := dice
    players := ⟨PlayerState.initial .zero zero, PlayerState.initial .one one⟩
    arena := Arena.empty
    zones := Zones.empty settings.limits
    triggers := TriggerBook.empty
    agenda := Agenda.empty
    choices := PerPlayer.const none
    suspended := none
    step := .unstarted
    current := first
    first := first
    turn := 0
    history := [] }

def create (settings : Settings) (catalogue : Catalogue) : Except Fault Duel :=
  match bare settings catalogue with
  | .error cause => .error (.setup cause)
  | .ok duel =>
    match (do Player.both.forM Play.setUp; Play.checkCoin : Play Unit) duel with
    | .ok _ duel => .ok duel
    | .error fault _ => .error fault

end Duel

end CardDuel
