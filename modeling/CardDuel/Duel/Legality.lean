import CardDuel.Duel.Attacks
import CardDuel.Duel.Targets

/-!
# Legal actions

`Duel.check` decides whether an action is accepted, and `Duel.legalActions` lists
what a player can do.  Conceding is always accepted and never listed.
-/

namespace CardDuel.Duel

def checkCost (duel : Duel) (player : Player) (cost : Int) : Except Rejection Unit :=
  let available := (duel.player player).remainingMana
  if available < cost then .error (.notEnoughMana cost available) else .ok ()

/-- Check that there is room for a card: a place on the field for a minion, and for a secret a
place among secrets that are all different. -/
def checkRoom (duel : Duel) (player : Player) (entity : Entity) : Except Rejection Unit :=
  match entity.kind with
  | .minion => if duel.zones.isFull player .play then .error .boardFull else .ok ()
  | .spell =>
    if entity.tags.has .secret then
      let secrets := duel.members player .secret
      if secrets.any fun id => (duel.entity? id).map Entity.card = some entity.card then
        .error .duplicateSecret
      else if duel.settings.secretSize ≤ secrets.length then .error .boardFull
      else .ok ()
    else .ok ()
  | _ => .ok ()

def checkCard (duel : Duel) (player : Player) (card : EntityId) (target : Option EntityId) :
    Except Rejection Unit :=
  match duel.entity? card with
  | none => .error .unknownEntity
  | some entity =>
    if entity.owner ≠ player || entity.zone ≠ .hand then .error .notInHand
    else do
      duel.checkCost player entity.cost
      duel.checkRoom player entity
      duel.checkPlay player card target

def checkHeroPower (duel : Duel) (player : Player) (target : Option EntityId) :
    Except Rejection Unit :=
  let power := (duel.player player).heroPower
  match duel.entity? power with
  | none => .error .unknownEntity
  | some entity =>
    if entity.tags.has .exhausted then .error .heroPowerUsed
    else do
      duel.checkCost player entity.cost
      duel.checkPlay player power target

def checkAnswer (choice : Choice) : Action → Except Rejection Unit
  | .mulligan replace =>
    if choice.kind ≠ .mulligan then .error .choicePending
    else if replace.all choice.options.contains then .ok ()
    else .error .invalidChoice
  | .choose entity =>
    if choice.kind ≠ .discover then .error .choicePending
    else if choice.options.contains entity then .ok ()
    else .error .invalidChoice
  | _ => .error .choicePending

def checkTurn (duel : Duel) (player : Player) : Except Rejection Unit :=
  if duel.hasChoice then .error .choicePending
  else if player ≠ duel.current then .error .notYourTurn
  else if duel.step ≠ .mainAction then .error .wrongStep
  else .ok ()

def check (duel : Duel) (player : Player) (action : Action) : Except Rejection Unit :=
  match action, duel.choice? player with
  | .concede, _ => .ok ()
  | action, some choice => checkAnswer choice action
  | .mulligan _, none | .choose _, none => .error .noChoicePending
  | .playCard card target _, none => do
    duel.checkTurn player
    duel.checkCard player card target
  | .attack attacker defender, none => do
    duel.checkTurn player
    duel.checkAttack player attacker defender
  | .heroPower target, none => do
    duel.checkTurn player
    duel.checkHeroPower player target
  | .endTurn, none => duel.checkTurn player

def accepts (duel : Duel) (player : Player) (action : Action) : Bool :=
  match duel.check player action with
  | .ok _ => true
  | .error _ => false

/-- The answers to a choice: replace nothing or everything, or take one of the options. -/
def answers (choice : Choice) : List Action :=
  match choice.kind with
  | .mulligan => [.mulligan [], .mulligan choice.options]
  | .discover => choice.options.map .choose

/-- The ways to play a card that come into question. -/
def playsOf (duel : Duel) (player : Player) (card : EntityId) : List Action :=
  if (duel.requirements card).takesTarget then
    let targets := duel.validTargets player card
    (if targets.isEmpty then [.play card] else []) ++ targets.map (Action.playAt card)
  else [.play card]

/-- The ways to use the hero power that come into question. -/
def powerUses (duel : Duel) (player : Player) : List Action :=
  let power := (duel.player player).heroPower
  if (duel.requirements power).takesTarget then
    (duel.validTargets player power).map fun target => .heroPower (some target)
  else [.heroPower none]

def attacksOf (duel : Duel) (attacker : EntityId) : List Action :=
  if duel.canAttack attacker then (duel.attackTargets attacker).map (Action.attack attacker)
  else []

/-- The actions of the player whose turn it is: plays, hero power, attacks, end of turn. -/
def turnActions (duel : Duel) (player : Player) : List Action :=
  let candidates := (duel.hand player).flatMap (duel.playsOf player) ++ duel.powerUses player
  candidates.filter (duel.accepts player) ++ (duel.side player).flatMap duel.attacksOf ++
    [.endTurn]

def legalActions (duel : Duel) (player : Player) : List Action :=
  if duel.isOver then []
  else
    match duel.choice? player with
    | some choice => answers choice
    | none =>
      if duel.hasChoice || player ≠ duel.current || duel.step ≠ .mainAction then []
      else duel.turnActions player

/-- Whether an action is listed among the legal ones. -/
def isLegal (duel : Duel) (player : Player) (action : Action) : Bool :=
  (duel.legalActions player).contains action

end CardDuel.Duel
