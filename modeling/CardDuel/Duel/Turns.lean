import CardDuel.Duel.Settling

/-!
# The course of a duel

Entering a step does the work of the step and then settles.  After the opening
the duel goes around the cycle of a turn and stops by itself at a decision: the
action step, a pending choice or the end of the match.
-/

namespace CardDuel

/-- How many cards the first player draws in the opening; the second draws one more. -/
def openingHand : Nat := 3

namespace Entity

/-- An entity at the start of its owner's turn. -/
def refresh (entity : Entity) : Entity :=
  let rested := (entity.setTag .exhausted 0).setTag .attacksThisTurn 0
  if entity.kind = .minion then rested.addTag .turnsInPlay 1 else rested

/-- A character at the end of its owner's turn: it thaws unless it attacked. -/
def thaw (entity : Entity) : Entity :=
  if entity.tags.has .frozen && entity.tags.get .attacksThisTurn = 0 then
    entity.setTag .frozen 0
  else entity

end Entity

namespace Duel

/-- The cards of a player's opening hand that can be replaced: all but copies of the coin. -/
def replaceable (duel : Duel) (player : Player) (coin : Option CardId) : List EntityId :=
  (duel.hand player).filter fun id => (duel.entity? id).map Entity.card ≠ coin

def expireEnchantments (duel : Duel) : Duel :=
  { duel with arena := duel.arena.updateAll fun _ entity => entity.expire }

end Duel

namespace Play

def shuffleDeck (player : Player) : Play Unit := do
  let deck := (← get).deck player
  let shuffled ← roll fun dice => dice.shuffle deck
  modify fun duel =>
    match duel.zones.get? player .deck with
    | none => duel
    | some zone =>
      { duel with
        zones := duel.zones.set player .deck { zone with members := shuffled } }.renumber player
          .deck

/-- Ready the characters and counters of a player whose turn begins. -/
def readyTurn (player : Player) : Play Unit := do
  modify fun duel => { duel with turn := duel.turn + 1 }
  let duel ← get
  (duel.field player ++ [duel.hero player, (duel.player player).heroPower]).forM fun id =>
    change id Entity.refresh
  modify fun duel => duel.updatePlayer player fun state =>
    (state.setTag .cardsPlayedThisTurn 0).setTag .minionsPlayedThisTurn 0

def cleanUpTurn (player : Player) : Play Unit := do
  modify fun duel =>
    duel.expireEnchantments.updatePlayer player fun state => state.setTag .temporaryMana 0
  let duel ← get
  (duel.field player ++ [duel.hero player]).forM fun id => change id Entity.thaw

/-- Deal the opening hands, and the coin to the second player. -/
def dealHands : Play Unit := do
  let first := (← get).first
  times openingHand (drawCard first)
  times (openingHand + 1) (drawCard first.opponent)
  match (← get).settings.coin with
  | none => return ()
  | some coin => discard (give first.opponent coin)

/-- Offer both players to replace cards of their opening hand. -/
def offerMulligan : Play Unit := do
  let settings := (← get).settings
  unless settings.skipMulligan do
    let coin ←
      match settings.coin with
      | none => pure none
      | some code => some <$> lookupCode code
    Player.both.forM fun player =>
      modify fun duel =>
        duel.setChoice player (some ⟨.mulligan, duel.replaceable player coin⟩)

/-- Do the work of a step for the player whose turn it is. -/
def stepWork (player : Player) : Step → Play Unit
  | .beginFirst => modify fun duel => { duel with current := duel.first }
  | .beginShuffle => do
    if (← get).settings.shuffleDecks then
      Player.both.forM shuffleDeck
  | .beginDraw => dealHands
  | .beginMulligan => offerMulligan
  | .mainReady => readyTurn player
  | .mainStartTriggers => announce (Event.plain .turnStart player)
  | .mainResource => modify fun duel =>
    duel.updatePlayer player fun state => state.renewMana duel.settings.maxMana
  | .mainDraw => drawCard player
  | .mainEndTriggers => announce (Event.plain .turnEnd player)
  | .mainCleanup => cleanUpTurn player
  | .mainNext => modify fun duel => { duel with current := player.opponent }
  | _ => return ()

/-- Enter a step, do its work and settle. -/
def enter (allowance : Nat) (step : Step) : Play Unit := do
  modify fun duel => { duel with step := step }
  stepWork (← get).current step
  settle allowance

/-- Enter the next step.  The answer is false, and nothing happens, at a decision and after the
end of the match. -/
def advance (allowance : Nat) : Play Bool := do
  let duel ← get
  if duel.isOver || duel.hasChoice || duel.step = .mainAction then
    return false
  else if duel.step = .unstarted || duel.step.isOpening then
    violate .openingNotOver
  else
    enter allowance duel.step.next
    return true

/-- Advance until a step satisfies the goal, at most a number of times. -/
def advanceWhile (allowance : Nat) (goal : Step → Bool) : Nat → Play Unit
  | 0 => return ()
  | count + 1 => do
    if goal (← get).step then
      return ()
    else if ← advance allowance then
      advanceWhile allowance goal count
    else
      return ()

/-- Advance until the target is the current step or nothing advances any more.  From any step the
next decision is closer than one step past its distance. -/
def advanceTo (allowance : Nat) (target : Step) : Play Unit := do
  advanceWhile allowance (fun step => step = target) ((← get).step.distance + 1)

def runToDecision (allowance : Nat) : Play Unit := do
  advanceWhile allowance (fun _ => false) ((← get).step.distance + 1)

def beginTurns (allowance : Nat) : Play Unit := do
  enter allowance .mainReady
  if (← get).settings.autoRun then
    runToDecision allowance

/-- Run the opening and go on to the first decision. -/
def start (allowance : Nat) : Play Unit := do
  if (← get).step ≠ .unstarted then
    violate .alreadyStarted
  else
    Step.opening.forM (enter allowance)
    unless (← get).hasChoice do
      beginTurns allowance

end Play

end CardDuel
