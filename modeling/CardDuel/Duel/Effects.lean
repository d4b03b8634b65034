import CardDuel.Duel.Auras
import CardDuel.Duel.CardPlay
import CardDuel.Duel.Selection

/-!
# Running effects

`Play.perform` runs one effect of a resolution and `Play.resolve` a whole
resolution.  Nested lists become frames of the resolution instead of recursive
calls, so a list that has to wait for a choice is put aside as it is and goes on
later.  The auras are brought up to date after every effect.  Deaths are not:
whoever dies stays where it is until the piece of scheduled work is over.
-/

namespace CardDuel

def discoverOptions : Nat := 3

/-- The greatest and the least number that effects calculate with. -/
def numberBound : Int := 0x80000000

/-- Keep the result of a calculation between the least and the greatest number. -/
def saturate (number : Int) : Int :=
  max (-numberBound) (min number (numberBound - 1))

namespace Duel

/-- The amount of a damage effect with the boosts of its source: spell damage if the effect takes
it, and the bonus of hero powers. -/
def boosted (duel : Duel) (context : EffectContext) (amount : Int) (spellDamage : Bool) : Int :=
  let boost := if spellDamage then duel.spellDamage context.controller else 0
  let bonus :=
    if (duel.entity? context.source).map Entity.kind = some .heroPower then
      (duel.player context.controller).tags.get .heroPowerDamage
    else 0
  amount + boost + bonus

/-- The value of a tag; attack, health and cost are the current ones. -/
def tagValue (duel : Duel) (id : EntityId) (entity : Entity) : Tag → Int
  | .attack => duel.attackOf id
  | .health => entity.health
  | .cost => entity.cost
  | tag => entity.tags.get tag

/-- The place of the source on its controller's field. -/
def sourcePlace? (duel : Duel) (context : EffectContext) : Option Nat :=
  (duel.field context.controller).findIdx? fun id => id == context.source

/-- The field place that a summon aims at; `none` is the right end. -/
def summonPlace? (duel : Duel) (context : EffectContext) : SummonSide → Option Nat
  | .rightmost => none
  | .right => (duel.sourcePlace? context).map (· + 1)
  | .left => duel.sourcePlace? context
  | .inPlace => (duel.entity? context.source).map Entity.lastBoardPosition

end Duel

/-- The player that an effect serves, or that player's opponent. -/
def EffectContext.beneficiary (context : EffectContext) (opposite : Bool) : Player :=
  if opposite then context.controller.opponent else context.controller

namespace Play

def forSelected (resolution : Resolution) (selector : Selector)
    (action : EntityId → Play Unit) : Play Unit := do
  (← select resolution selector).forM action

/-- Whether there are selected entities and all of them satisfy a condition. -/
def selectedSatisfy (resolution : Resolution) (selector : Selector) (condition : Condition) :
    Play Bool := do
  let ids ← select resolution selector
  let context := resolution.context
  return (← get).allSatisfy ⟨context.controller, context.source⟩ condition ids

/-- Create one copy of a card in a zone of a player.  A copy that finds no room is removed. -/
def addCopy (owner : Player) (card : CardId) (zone : ZoneKind) : Play Unit := do
  let id ← create owner card
  let placed ←
    match zone with
    | .play => summon id none
    | .deck => shuffleIn id owner
    | zone => move id zone .top
  unless placed do
    send id .removed

def setAside (owner : Player) (card : CardId) : Play EntityId := do
  let id ← create owner card
  send id .setAside
  return id

def setAsideAll (owner : Player) : List CardId → Play (List EntityId)
  | [] => return []
  | card :: cards => do
    let id ← setAside owner card
    return id :: (← setAsideAll owner cards)

/-- Put a made card where a selector says.  A card that finds no room is removed. -/
def placeMadeCard (controller : Player) (selector : Selector) (id : EntityId) : Play Unit := do
  let placed ←
    match selector with
    | .hand => do
      giveTo id controller
      move id .hand .top
    | .enemyHand => do
      giveTo id controller.opponent
      move id .hand .top
    | .deck => do
      giveTo id controller
      shuffleIn id controller
    | .minions => do
      giveTo id controller
      if (← lookup id).kind = .minion then summon id none
      else violate (.summonOfNonMinion id)
    | other => violate (.noPlaceFor other)
  unless placed do
    send id .removed

def randomClass (context : EffectContext) (selector : Selector) (cardClass : CardClass) :
    Play CardClass := do
  let duel ← get
  let chosen ←
    match selector with
    | .hero => pure (duel.player context.controller).cardClass
    | .enemyHero => pure (duel.player context.controller.opponent).cardClass
    | .nothing => pure cardClass
    | other => violate (.noClassFrom other)
  if chosen = .unset then violate .noClass else return chosen

/-- The cards of a list of codes, without those of which the controller has a copy on the field if
only absent ones are wanted. -/
def entouragePool (controller : Player) (absentOnly : Bool) : List String → Play (List CardId)
  | [] => return []
  | code :: codes => do
    let card ← lookupCode code
    let duel ← get
    let present := (duel.field controller).any fun id =>
      (duel.entity? id).map Entity.card = some card
    let others ← entouragePool controller absentOnly codes
    return if absentOnly && present then others else card :: others

/-- Run an effect that leaves its resolution as it is. -/
def act (resolution : Resolution) (action : Play Unit) : Play (Outcome × Resolution) := do
  action
  return (.complete, resolution)

def goOn (resolution : Resolution) (scratch : Scratch) : Outcome × Resolution :=
  (.complete, { resolution with scratch := scratch })

def perform (resolution : Resolution) : Effect → Play (Outcome × Resolution)
  | .test selector condition => do
    let holds ← selectedSatisfy resolution selector condition
    return goOn resolution { resolution.scratch with flag := holds }
  | .guard selector condition => do
    let holds ← selectedSatisfy resolution selector condition
    return (if holds then .complete else .stop, resolution)
  | .whenFlag value effects =>
    return (.complete,
      if resolution.scratch.flag = value then resolution.enter effects else resolution)
  | .sequence effects => return (.complete, resolution.enter effects)
  | .repeated times effects =>
    return (.complete, resolution.enter (List.replicate times effects).flatten)
  | .collect selector => do
    let ids ← select resolution selector
    return goOn resolution { resolution.scratch with collected := ids }
  | .keep condition => do
    let duel ← get
    let kept := resolution.scratch.collected.filter fun id =>
      duel.satisfies ⟨resolution.context.controller, resolution.context.source⟩ condition id
    return goOn resolution { resolution.scratch with collected := kept }
  | .pickRandom count => do
    if resolution.scratch.collected.isEmpty then
      return (.stop, resolution)
    else
      let picked ← roll fun dice => dice.sampleOf resolution.scratch.collected count
      return goOn resolution { resolution.scratch with collected := picked }
  | .readTag selector tag => do
    match ← select resolution selector with
    | [] => return (.stop, resolution)
    | id :: _ =>
      let entity ← lookup id
      let value := (← get).tagValue id entity tag
      return goOn resolution { resolution.scratch with number := value }
  | .addNumber operand =>
    return goOn resolution
      { resolution.scratch with number := saturate (resolution.scratch.number + operand) }
  | .multiplyNumber operand =>
    return goOn resolution
      { resolution.scratch with number := saturate (resolution.scratch.number * operand) }
  | .damage selector amount spellDamage => hurt selector amount spellDamage
  | .damageByNumber selector spellDamage => hurt selector resolution.scratch.number spellDamage
  | .heal selector amount =>
    act resolution (forSelected resolution selector fun id => heal context.source id amount)
  | .healByNumber selector =>
    act resolution (forSelected resolution selector fun id =>
      heal context.source id resolution.scratch.number)
  | .gainArmor amount => act resolution do
    change ((← get).hero context.controller) fun hero => hero.addTag .armor amount
  | .destroy selector =>
    act resolution (forSelected resolution selector fun id =>
      change id fun entity => { entity with destroyed := true })
  | .freeze selector =>
    act resolution (forSelected resolution selector fun id =>
      change id fun entity => entity.setTag .frozen 1)
  | .silence selector => act resolution (forSelected resolution selector silence)
  | .attack => do
    match context.target with
    | none => violate (.attackWithoutDefender context.source)
    | some defender => return (← fight context.source defender, resolution)
  | .draw count => act resolution (times count (drawCard context.controller))
  | .addCards code zone count opposite => act resolution do
    let card ← lookupCode code
    times count (addCopy (context.beneficiary opposite) card zone)
  | .summon code side => act resolution do
    let card ← lookupCode code
    let duel ← get
    unless duel.zones.isFull context.controller .play do
      let id ← create context.controller card
      discard (summon id (duel.summonPlace? context side))
  | .returnToHand selector => act resolution (forSelected resolution selector fun id => do
    let entity ← lookup id
    unless entity.isDead || entity.kind ≠ .minion do
      sendOrElse id .hand .graveyard)
  | .moveTo selector zone =>
    act resolution (forSelected resolution selector fun id => send id zone)
  | .transform selector code => act resolution do
    let card ← lookupCode code
    forSelected resolution selector fun id => transform id card
  | .makeRandom selector cardType cardClass race opposite => do
    let chosen ← randomClass context selector cardClass
    let duel ← get
    let pool := duel.catalogue.exactPool duel.settings.format chosen cardType race
    match ← roll fun dice => dice.choose? pool with
    | none => return (.stop, resolution)
    | some card =>
      let id ← setAside (context.beneficiary opposite) card
      return goOn resolution { resolution.scratch with made := resolution.scratch.made ++ [id] }
  | .makeEntourage count absentOnly => do
    let card := (← lookup context.source).card
    let codes :=
      match (← get).catalogue.card? card with
      | none => []
      | some card => card.entourage
    let pool ← entouragePool context.controller absentOnly codes
    if pool.isEmpty then
      return (.stop, resolution)
    else
      let cards ← roll fun dice => dice.sampleOf pool count
      let ids ← setAsideAll context.controller cards
      return goOn resolution { resolution.scratch with made := resolution.scratch.made ++ ids }
  | .placeMade selector => do
    resolution.scratch.made.forM (placeMadeCard context.controller selector)
    return goOn resolution { resolution.scratch with made := [] }
  | .discover cardType race => do
    let duel ← get
    let pool := duel.catalogue.classPool duel.settings.format
      (duel.player context.controller).cardClass cardType race
    if pool.isEmpty then
      return (.stop, resolution)
    else
      let cards ← roll fun dice => dice.sampleOf pool discoverOptions
      let options ← setAsideAll context.controller cards
      modify fun duel => duel.setChoice context.controller (some ⟨.discover, options⟩)
      return (.suspended, resolution)
  | .equip code => act resolution do
    let id ← create context.controller (← lookupCode code)
    equip context.controller id
    announce (Event.caused .equipWeapon context.controller id)
  | .replaceHero hero power weapon => act resolution do
    let hero ← lookupCode hero
    let power ← lookupCode power
    let weapon ←
      match weapon with
      | none => pure none
      | some code => some <$> lookupCode code
    replaceHero context.controller hero power weapon
    let entity ← lookup context.source
    if entity.kind = .minion && entity.inPlay then
      send context.source .removed
  | .setTag selector tag value =>
    act resolution (forSelected resolution selector fun id =>
      change id fun entity => entity.setTag tag value)
  | .setPlayerTag tag value => act resolution do
    modify fun duel => duel.updatePlayer context.controller fun state => state.setTag tag value
  | .enchant code selector => act resolution do
    let card ← lookupCode code
    forSelected resolution selector fun id => enchant id card context.source
  | .gainCrystals amount filled => act resolution do
    modify fun duel => duel.updatePlayer context.controller fun state =>
      state.gainCrystals duel.settings.maxMana amount filled
  | .gainTemporaryMana amount => act resolution do
    modify fun duel => duel.updatePlayer context.controller fun state =>
      state.gainTemporaryMana duel.settings.maxMana amount
where
  context : EffectContext := resolution.context
  hurt (selector : Selector) (amount : Int) (spellDamage : Bool) :
      Play (Outcome × Resolution) :=
    act resolution do
      let ids ← select resolution selector
      let boosted := (← get).boosted resolution.context amount spellDamage
      ids.forM fun id => damage resolution.context.source id boosted

/-- Run a resolution for at most a number of steps. -/
def resolveWithin : Nat → Resolution → Play Outcome
  | 0, _ => return .complete
  | steps + 1, resolution => do
    if (← get).isOver then
      return .complete
    else
      match resolution.frames with
      | [] => return .complete
      | [] :: _ => resolveWithin steps resolution.leave
      | (effect :: rest) :: outer =>
        let (outcome, resolution) ← perform { resolution with frames := rest :: outer } effect
        modify Duel.updateAuras
        match outcome with
        | .complete => resolveWithin steps resolution
        | .stop => resolveWithin steps resolution.leave
        | .suspended =>
          modify fun duel => { duel with suspended := some resolution }
          return .suspended

/-- Run a resolution until it is over, the match ends or it has to wait for a choice.  Its weight
bounds the steps that this takes. -/
def resolve (resolution : Resolution) : Play Outcome :=
  resolveWithin (resolution.weight + 1) resolution

end Play

end CardDuel
