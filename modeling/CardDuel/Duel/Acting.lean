import CardDuel.Duel.Legality
import CardDuel.Duel.Turns

/-!
# Taking actions

`Play.take` is the one way in for a player's request.  A request is checked
against the table and refused without a trace, or recorded, split into the phases
it stands for and settled.  Reactions to a phase come before the next phase.
-/

namespace CardDuel.Play

/-- The phases of playing a card of a kind. -/
def phasesOf (kind : EntityKind) (isSecret : Bool) (card : EntityId) (event : EventKind → Event)
    (resolution : Resolution) : List Work :=
  match kind with
  | .minion =>
    [.announce (event .playCard), .announce (event .playMinion), .announce (event .summon),
      .run resolution, .announce (event .afterPlayMinion), .announce (event .afterSummon)]
  | .spell =>
    if isSecret then
      [.announce (event .playCard), .announce (event .castSpell), .announce (event .afterCast)]
    else
      [.announce (event .playCard), .announce (event .castSpell), .run resolution, .bury card,
        .announce (event .afterCast)]
  | .weapon =>
    [.announce (event .playCard), .run resolution, .announce (event .equipWeapon)]
  | .hero | .heroPower => []

/-- Bring a played card to where it belongs. -/
def placePlayed (player : Player) (card : EntityId) (entity : Entity) (position : Option Nat) :
    Play Unit := do
  match entity.kind with
  | .minion =>
    modify fun duel => duel.updatePlayer player fun state => state.addTag .minionsPlayedThisTurn 1
    unless ← placeMinion card position do
      violate (.noFieldSlot card)
  | .spell => send card (if entity.tags.has .secret then .secret else .setAside)
  | .weapon => equip player card
  | kind => violate (.notPlayable kind card)

def payForCard (entity : Entity) (state : PlayerState) : PlayerState :=
  let overload := entity.tags.get .overload
  let paid := state.spendMana entity.cost
  let paid := if 0 < overload then paid.addTag .overloadOwed overload else paid
  paid.addTag .cardsPlayedThisTurn 1

def runPhases (allowance : Nat) (phases : List Work) : Play Unit := do
  modify fun duel => { duel with agenda := duel.agenda.addPhases phases }
  settle allowance

def playCard (allowance : Nat) (player : Player) (card : EntityId) (target : Option EntityId)
    (position : Option Nat) : Play Unit := do
  let entity ← lookup card
  let combo : Bool := 0 < ((← get).player player).tags.get .cardsPlayedThisTurn
  modify fun duel => duel.updatePlayer player (payForCard entity)
  let effects := ((← get).behaviourOf entity).effectsWhen combo
  placePlayed player card entity position
  let resolution := Resolution.ofEffects effects ⟨player, card, target, none⟩
  runPhases allowance
    (phasesOf entity.kind (entity.tags.has .secret) card
      (fun kind => Event.aimed kind player card target) resolution)

def attack (allowance : Nat) (player : Player) (attacker defender : EntityId) : Play Unit :=
  runPhases allowance
    [.announce (Event.aimed .attack player attacker (some defender)),
      .run (Resolution.ofEffects [.attack] ⟨player, attacker, some defender, none⟩)]

def useHeroPower (allowance : Nat) (player : Player) (target : Option EntityId) : Play Unit := do
  let power := ((← get).player player).heroPower
  let entity ← lookup power
  modify fun duel => duel.updatePlayer player fun state => state.spendMana entity.cost
  change power fun entity => entity.setTag .exhausted 1
  let effects := ((← get).behaviourOf entity).effects
  runPhases allowance
    [.run (Resolution.ofEffects effects ⟨player, power, target, none⟩),
      .announce (Event.aimed .inspire player power target)]

/-- Replace cards of the opening hand: set them aside, draw as many, and put them back into the
deck at random places, so that none of them can be drawn again at once. -/
def exchange (player : Player) (replace : List EntityId) : Play Unit := do
  replace.forM fun id => send id .setAside
  times replace.length (drawCard player)
  replace.forM fun id => discard (shuffleIn id player)

def distinct : List EntityId → List EntityId → List EntityId
  | seen, [] => seen
  | seen, id :: ids => distinct (if seen.contains id then seen else seen ++ [id]) ids

/-- Answer the opening choice; after the last answer the first turn begins. -/
def mulligan (allowance : Nat) (player : Player) (replace : List EntityId) : Play Unit := do
  exchange player (distinct [] replace)
  modify fun duel => duel.setChoice player none
  settle allowance
  let duel ← get
  if !duel.hasChoice && duel.step = .beginMulligan then
    beginTurns allowance

/-- Settle the options of a choice: the pick goes to the hand, or to the graveyard when the hand
is full, and the others leave the match. -/
def settleOptions (pick : EntityId) (options : List EntityId) : Play Unit :=
  options.forM fun option =>
    if option = pick then sendOrElse option .hand .graveyard else send option .removed

/-- Take up the effect list that waits for a choice. -/
def resume : Play Unit := do
  match (← get).suspended with
  | none => return ()
  | some resolution =>
    modify fun duel => { duel with suspended := none }
    discard (resolve resolution)

/-- Take one option of a pending choice and go on where the duel waited for it. -/
def choose (allowance : Nat) (player : Player) (pick : EntityId) : Play Unit := do
  match (← get).choice? player with
  | none => violate (.noPendingChoice player)
  | some choice =>
    modify fun duel => duel.setChoice player none
    settleOptions pick choice.options
    resume
    settle allowance
    let duel ← get
    if duel.settings.autoRun && duel.step ≠ .unstarted && !duel.step.isOpening then
      runToDecision allowance

def endTurn (allowance : Nat) : Play Unit := do
  enter allowance .mainEndTriggers
  if (← get).settings.autoRun then
    runToDecision allowance

def carryOut (allowance : Nat) (player : Player) : Action → Play Unit
  | .playCard card target position => playCard allowance player card target position
  | .attack attacker defender => attack allowance player attacker defender
  | .heroPower target => useHeroPower allowance player target
  | .endTurn => endTurn allowance
  | .mulligan replace => mulligan allowance player replace
  | .choose entity => choose allowance player entity
  | .concede => modify fun duel => duel.concede player

def record (player : Player) (action : Action) (duel : Duel) : Duel :=
  { duel with
    history := duel.history ++ [⟨player, action, duel.turn, duel.history.length⟩] }

/-- Check an action and run it to the next decision.  A fault on the way drops the scheduled
work. -/
def take (allowance : Nat) (player : Player) (action : Action) : Play Unit := do
  let duel ← get
  if duel.isOver then
    throw .gameOver
  else
    match duel.check player action with
    | .error reason => throw (.rejected reason)
    | .ok _ =>
      modify (record player action)
      onFault (carryOut allowance player action) Duel.clearAgenda

end CardDuel.Play
