import CardDuel.Duel.Acting
import CardDuel.Proofs.Reasoning

/-!
# What can break off a request

Once a request is accepted, what it sets off can be broken off in two ways: a card asks for
something that the table cannot answer, or the scheduled work does not come to an end.  No
effect, trigger, death or step refuses anything: only `Play.take` itself does, before it
changes the duel.
-/

namespace CardDuel

/-- A fault that breaks off what is under way. -/
def Fault.Interrupts : Fault → Prop
  | .violation _ | .unsettled => True
  | .rejected _ | .gameOver | .setup _ => False

namespace Play

variable {α β : Type} {action : Play α} {next : α → Play β}

/-- From every duel the play refuses nothing: if it fails, it was broken off. -/
def Willing (action : Play α) : Prop :=
  ∀ duel fault left, action duel = .error fault left → fault.Interrupts

/-! ## Composing plays -/

theorem willing_pure {value : α} : Willing (pure value : Play α) :=
  fun _ _ _ => nofun

theorem willing_violate {cause : Violation} : Willing (violate cause : Play α) := by
  intro duel fault left failed
  cases failed
  trivial

theorem willing_get : Willing (get : Play Duel) :=
  fun _ _ _ => nofun

theorem willing_set {duel : Duel} : Willing (set duel : Play PUnit) :=
  fun _ _ _ => nofun

theorem willing_modify {change : Duel → Duel} : Willing (modify change : Play PUnit) :=
  fun _ _ _ => nofun

theorem willing_roll {draw : Dice → α × Dice} : Willing (roll draw) :=
  fun _ _ _ => nofun

theorem Willing.bind (first : Willing action) (second : ∀ value, Willing (next value)) :
    Willing (action >>= next) := by
  intro duel fault left failed
  simp only [Bind.bind, EStateM.bind] at failed
  cases ran : action duel with
  | ok value middle =>
      rw [ran] at failed
      exact second value middle fault left failed
  | error other middle =>
      rw [ran] at failed
      cases failed
      exact first duel fault left ran

theorem Willing.map {change : α → β} (willing : Willing action) : Willing (change <$> action) := by
  rw [map_eq_pure_bind]
  exact willing.bind fun _ => willing_pure

theorem Willing.discard (willing : Willing action) : Willing (discard action) :=
  willing.map

theorem Willing.times {action : Play Unit} (willing : Willing action) (count : Nat) :
    Willing (times count action) := by
  induction count with
  | zero => exact willing_pure
  | succ count ih => exact willing.bind fun _ => ih

theorem willing_forM {action : α → Play PUnit} (willing : ∀ value, Willing (action value))
    (values : List α) : Willing (values.forM action) := by
  induction values with
  | nil => exact willing_pure
  | cons value values ih => exact (willing value).bind fun _ => ih

theorem Willing.onFault {repair : Duel → Duel} (willing : Willing action) :
    Willing (onFault action repair) := by
  intro duel fault left failed
  simp only [Play.onFault] at failed
  cases ran : action duel with
  | ok value middle =>
      rw [ran] at failed
      cases failed
  | error other middle =>
      rw [ran] at failed
      cases failed
      exact willing duel fault middle ran

/-! ## Changes of the table -/

variable {resolution : Resolution} {player owner controller : Player} {id source target : EntityId}
variable {allowance : Nat} {amount : Int} {event : Event}

theorem willing_lookup : Willing (lookup id) := by
  refine willing_get.bind fun duel => ?_
  split
  · exact willing_pure
  · exact willing_violate

theorem willing_lookupCode {code : String} : Willing (lookupCode code) := by
  refine willing_get.bind fun duel => ?_
  split
  · exact willing_pure
  · exact willing_violate

theorem willing_change {change : Entity → Entity} : Willing (Play.change id change) :=
  willing_lookup.bind fun _ => willing_modify

theorem willing_announce : Willing (announce event) :=
  willing_modify

theorem willing_move {goal : ZoneKind} {placement : Placement} :
    Willing (move id goal placement) := by
  refine willing_lookup.bind fun entity => ?_
  split
  · exact willing_violate
  refine willing_get.bind fun duel => ?_
  split
  · exact willing_pure
  · exact willing_set.bind fun _ => willing_pure

theorem willing_send {goal : ZoneKind} : Willing (send id goal) :=
  willing_move.discard

theorem willing_sendOrElse {goal otherwise : ZoneKind} :
    Willing (sendOrElse id goal otherwise) := by
  refine willing_move.bind fun placed => ?_
  split
  · exact willing_pure
  · exact willing_send

theorem willing_shuffleIn : Willing (shuffleIn id owner) :=
  willing_get.bind fun _ => willing_roll.bind fun _ => willing_move

theorem willing_giveTo : Willing (giveTo id owner) := by
  refine willing_lookup.bind fun entity => ?_
  split
  · exact willing_pure
  · exact willing_modify

theorem willing_create {card : CardId} : Willing (create owner card) := by
  refine willing_get.bind fun duel => ?_
  split
  · exact willing_violate
  split
  · exact willing_violate
  · exact willing_set.bind fun _ => willing_pure

theorem willing_give {code : String} : Willing (give player code) :=
  willing_lookupCode.bind fun _ => willing_create.bind fun _ =>
    willing_sendOrElse.bind fun _ => willing_pure

theorem willing_heal : Willing (heal source target amount) := by
  refine willing_lookup.bind fun entity => ?_
  dsimp only
  split
  · exact willing_pure
  · exact willing_change.bind fun _ => willing_announce

theorem willing_stealLife {origin : Option Entity} : Willing (stealLife source origin amount) := by
  unfold stealLife
  split
  · exact willing_pure
  split
  · exact willing_get.bind fun _ => willing_heal
  · exact willing_pure

theorem willing_damage : Willing (damage source target amount) := by
  unfold damage
  split
  · exact willing_pure
  refine willing_get.bind fun duel => willing_lookup.bind fun entity => ?_
  split
  · exact willing_pure
  split
  · exact willing_change
  refine willing_change.bind fun _ => willing_stealLife.bind fun _ => ?_
  dsimp only
  split
  · exact willing_announce.bind fun _ => willing_announce
  · exact willing_pure

theorem willing_fight {attacker defender : EntityId} : Willing (fight attacker defender) := by
  refine willing_get.bind fun duel => ?_
  split
  · exact willing_pure
  have blows (entity : Entity) (attack counter : Int) : Willing (do
      damage attacker defender attack
      damage defender attacker counter
      announce (Event.aimed .afterAttack entity.owner attacker (some defender))
      return Outcome.complete) :=
    willing_damage.bind fun _ => willing_damage.bind fun _ =>
      willing_announce.bind fun _ => willing_pure
  refine willing_lookup.bind fun _ => willing_lookup.bind fun entity =>
    willing_change.bind fun _ => ?_
  dsimp only
  split
  · split
    · exact blows entity _ _
    · exact willing_change.bind fun _ => blows entity _ _
  · exact blows entity _ _

theorem willing_drawCard : Willing (drawCard player) := by
  refine willing_get.bind fun duel => ?_
  split
  · refine willing_move.bind fun placed => ?_
    split
    · exact willing_announce
    · exact willing_send
  · exact willing_modify.bind fun _ => willing_get.bind fun _ => willing_damage

theorem willing_placeMinion {place : Option Nat} : Willing (placeMinion id place) := by
  refine willing_move.bind fun placed => ?_
  split
  · exact willing_change.bind fun _ => willing_pure
  · exact willing_pure

theorem willing_summon {place : Option Nat} : Willing (summon id place) := by
  refine willing_placeMinion.bind fun placed => ?_
  split
  · exact willing_lookup.bind fun _ => willing_announce.bind fun _ =>
      willing_modify.bind fun _ => willing_pure
  · exact willing_pure

theorem willing_silence : Willing (silence id) :=
  willing_change.bind fun _ => willing_modify

theorem willing_equip : Willing (equip player id) := by
  refine willing_get.bind fun duel => ?_
  dsimp only
  split
  · exact willing_giveTo.bind fun _ => willing_send
  · exact willing_send.bind fun _ => willing_announce.bind fun _ =>
      willing_giveTo.bind fun _ => willing_send

theorem willing_enchant {card : CardId} : Willing (enchant target card source) := by
  refine willing_get.bind fun duel => ?_
  split
  · exact willing_violate
  split
  · exact willing_violate
  split
  · exact willing_violate
  · exact willing_change

theorem willing_transform {form : CardId} : Willing (transform id form) := by
  refine willing_get.bind fun duel => ?_
  split
  · exact willing_violate
  split
  · exact willing_violate
  refine willing_lookup.bind fun entity => ?_
  split
  · exact willing_violate
  · exact willing_modify.bind fun _ => willing_modify

theorem willing_replaceSlot {card : CardId} : Willing (replaceSlot player id card) :=
  willing_create.bind fun _ => willing_send.bind fun _ => willing_send

theorem willing_replaceHero {hero power : CardId} {weapon : Option CardId} :
    Willing (replaceHero player hero power weapon) := by
  refine willing_get.bind fun duel => willing_replaceSlot.bind fun _ =>
    willing_replaceSlot.bind fun _ => willing_modify.bind fun _ => ?_
  split
  · exact willing_pure
  · exact willing_create.bind fun _ => willing_equip

/-! ## Effects -/

theorem willing_select {selector : Selector} : Willing (select resolution selector) := by
  unfold select
  dsimp only
  split
  · exact willing_violate
  · exact willing_get.bind fun _ => willing_pure

theorem willing_forSelected {selector : Selector} {action : EntityId → Play Unit}
    (willing : ∀ id, Willing (action id)) : Willing (forSelected resolution selector action) :=
  willing_select.bind fun ids => willing_forM willing ids

theorem willing_selectedSatisfy {selector : Selector} {condition : Condition} :
    Willing (selectedSatisfy resolution selector condition) :=
  willing_select.bind fun _ => willing_get.bind fun _ => willing_pure

theorem willing_orRemoved {placing : Play Bool} (willing : Willing placing) :
    Willing (do
      let placed ← placing
      unless placed do
        send id .removed) := by
  refine willing.bind fun placed => ?_
  split
  · exact willing_pure
  · exact willing_send

theorem willing_addCopy {card : CardId} {zone : ZoneKind} : Willing (addCopy owner card zone) := by
  refine willing_create.bind fun id => ?_
  split
  · exact willing_orRemoved willing_summon
  · exact willing_orRemoved willing_shuffleIn
  · exact willing_orRemoved willing_move

theorem willing_setAside {card : CardId} : Willing (setAside owner card) :=
  willing_create.bind fun _ => willing_send.bind fun _ => willing_pure

theorem willing_setAsideAll {cards : List CardId} : Willing (setAsideAll owner cards) := by
  induction cards with
  | nil => exact willing_pure
  | cons card cards ih => exact willing_setAside.bind fun _ => ih.bind fun _ => willing_pure

theorem willing_placeMadeCard {selector : Selector} :
    Willing (placeMadeCard controller selector id) := by
  unfold placeMadeCard
  dsimp only
  split
  · exact willing_giveTo.bind fun _ => willing_orRemoved willing_move
  · exact willing_giveTo.bind fun _ => willing_orRemoved willing_move
  · exact willing_giveTo.bind fun _ => willing_orRemoved willing_shuffleIn
  · refine willing_giveTo.bind fun _ => willing_lookup.bind fun entity => ?_
    split
    · exact willing_orRemoved willing_summon
    · exact willing_violate
  · exact willing_violate

theorem willing_randomClass {context : EffectContext} {selector : Selector}
    {cardClass : CardClass} : Willing (randomClass context selector cardClass) := by
  have known (chosen : CardClass) : Willing
      (if chosen = .unset then violate .noClass else return chosen : Play CardClass) := by
    split
    · exact willing_violate
    · exact willing_pure
  refine willing_get.bind fun duel => ?_
  dsimp only
  split
  · exact willing_pure.bind known
  · exact willing_pure.bind known
  · exact willing_pure.bind known
  · exact willing_violate

theorem willing_entouragePool {absentOnly : Bool} {codes : List String} :
    Willing (entouragePool controller absentOnly codes) := by
  induction codes with
  | nil => exact willing_pure
  | cons code codes ih =>
      exact willing_lookupCode.bind fun _ => willing_get.bind fun _ => ih.bind fun _ => willing_pure

theorem willing_act {action : Play Unit} (willing : Willing action) :
    Willing (act resolution action) :=
  willing.bind fun _ => willing_pure

theorem willing_hurt {selector : Selector} {spellDamage : Bool} :
    Willing (perform.hurt resolution selector amount spellDamage) :=
  willing_act (willing_select.bind fun ids => willing_get.bind fun _ =>
    willing_forM (fun _ => willing_damage) ids)

/-- No effect refuses anything. -/
theorem willing_perform {effect : Effect} : Willing (perform resolution effect) := by
  cases effect with
  | test selector condition => exact willing_selectedSatisfy.bind fun _ => willing_pure
  | guard selector condition => exact willing_selectedSatisfy.bind fun _ => willing_pure
  | whenFlag value effects => exact willing_pure
  | sequence effects => exact willing_pure
  | repeated times effects => exact willing_pure
  | collect selector => exact willing_select.bind fun _ => willing_pure
  | keep condition => exact willing_get.bind fun _ => willing_pure
  | pickRandom count =>
      rw [perform]
      split
      · exact willing_pure
      · exact willing_roll.bind fun _ => willing_pure
  | readTag selector tag =>
      refine willing_select.bind fun ids => ?_
      split
      · exact willing_pure
      · exact willing_lookup.bind fun _ => willing_get.bind fun _ => willing_pure
  | addNumber operand => exact willing_pure
  | multiplyNumber operand => exact willing_pure
  | damage selector amount spellDamage => exact willing_hurt
  | damageByNumber selector spellDamage => exact willing_hurt
  | heal selector amount => exact willing_act (willing_forSelected fun _ => willing_heal)
  | healByNumber selector => exact willing_act (willing_forSelected fun _ => willing_heal)
  | gainArmor amount => exact willing_act (willing_get.bind fun _ => willing_change)
  | destroy selector => exact willing_act (willing_forSelected fun _ => willing_change)
  | freeze selector => exact willing_act (willing_forSelected fun _ => willing_change)
  | silence selector => exact willing_act (willing_forSelected fun _ => willing_silence)
  | attack =>
      rw [perform]
      split
      · exact willing_violate
      · exact willing_fight.bind fun _ => willing_pure
  | draw count => exact willing_act (willing_drawCard.times count)
  | addCards code zone count opposite =>
      exact willing_act (willing_lookupCode.bind fun _ => willing_addCopy.times count)
  | summon code side =>
      refine willing_act (willing_lookupCode.bind fun card => willing_get.bind fun duel => ?_)
      split
      · exact willing_pure
      · exact willing_create.bind fun _ => willing_summon.discard
  | returnToHand selector =>
      refine willing_act (willing_forSelected fun id => willing_lookup.bind fun entity => ?_)
      split
      · exact willing_pure
      · exact willing_sendOrElse
  | moveTo selector zone => exact willing_act (willing_forSelected fun _ => willing_send)
  | transform selector code =>
      exact willing_act (willing_lookupCode.bind fun _ =>
        willing_forSelected fun _ => willing_transform)
  | makeRandom selector cardType cardClass race opposite =>
      refine willing_randomClass.bind fun chosen => willing_get.bind fun duel =>
        willing_roll.bind fun picked => ?_
      split
      · exact willing_pure
      · exact willing_setAside.bind fun _ => willing_pure
  | makeEntourage count absentOnly =>
      refine willing_lookup.bind fun entity => willing_get.bind fun duel =>
        willing_entouragePool.bind fun pool => ?_
      split
      · exact willing_pure
      · exact willing_roll.bind fun _ => willing_setAsideAll.bind fun _ => willing_pure
  | placeMade selector =>
      exact (willing_forM (fun _ => willing_placeMadeCard) _).bind fun _ => willing_pure
  | discover cardType race =>
      refine willing_get.bind fun duel => ?_
      dsimp only
      split
      · exact willing_pure
      · exact willing_roll.bind fun _ => willing_setAsideAll.bind fun _ =>
          Willing.bind willing_modify fun _ => willing_pure
  | equip code =>
      exact willing_act (willing_lookupCode.bind fun _ => willing_create.bind fun _ =>
        willing_equip.bind fun _ => willing_announce)
  | replaceHero hero power weapon =>
      have replaced (hero power : CardId) (weapon : Option CardId) : Willing (do
          replaceHero resolution.context.controller hero power weapon
          let entity ← lookup resolution.context.source
          if entity.kind = .minion && entity.inPlay then
            send resolution.context.source .removed) := by
        refine willing_replaceHero.bind fun _ => willing_lookup.bind fun entity => ?_
        split
        · exact willing_send
        · exact willing_pure
      refine willing_act
        (willing_lookupCode.bind fun hero => willing_lookupCode.bind fun power => ?_)
      split
      · exact willing_pure.bind fun _ => replaced hero power _
      · exact willing_lookupCode.map.bind fun _ => replaced hero power _
  | setTag selector tag value => exact willing_act (willing_forSelected fun _ => willing_change)
  | setPlayerTag tag value => exact willing_act willing_modify
  | enchant code selector =>
      exact willing_act (willing_lookupCode.bind fun _ =>
        willing_forSelected fun _ => willing_enchant)
  | gainCrystals amount filled => exact willing_act willing_modify
  | gainTemporaryMana amount => exact willing_act willing_modify

theorem willing_resolveWithin {steps : Nat} : Willing (resolveWithin steps resolution) := by
  induction steps generalizing resolution with
  | zero => exact willing_pure
  | succ steps ih =>
      refine willing_get.bind fun duel => ?_
      split
      · exact willing_pure
      split
      · exact willing_pure
      · exact ih
      refine willing_perform.bind fun answer => Willing.bind willing_modify fun _ => ?_
      split
      · exact ih
      · exact ih
      · exact Willing.bind willing_modify fun _ => willing_pure

/-! ## Settling -/

theorem willing_bury : Willing (bury id) := by
  refine willing_lookup.bind fun entity => willing_get.bind fun duel => ?_
  have farewell : Willing (announce (Event.caused .death entity.owner id)) := willing_announce
  dsimp only
  generalize (if entity.tags.has .silenced then []
    else (duel.behaviourOf entity).deathrattle) = deathrattle
  refine willing_send.bind fun _ => ?_
  split
  · exact farewell
  · exact Willing.bind willing_modify fun _ => farewell

theorem willing_processDeaths : Willing processDeaths := by
  refine willing_get.bind fun duel => ?_
  split
  · exact willing_pure
  · exact willing_set.bind fun _ => (willing_forM (fun _ => willing_bury) _).bind fun _ =>
      willing_modify

theorem willing_resolve : Willing (resolve resolution) :=
  willing_resolveWithin

theorem willing_fireTrigger {trigger : TriggerId} : Willing (fireTrigger trigger event) := by
  refine willing_get.bind fun duel => ?_
  split
  · exact willing_pure
  next live _ =>
    have shows : Willing (do
        if live.rule.zone = .secret then send live.owner .graveyard
        discard (resolve (Resolution.ofEffects live.rule.effects
          ⟨live.controller, live.owner, event.target, some event⟩))) := by
      dsimp only
      split
      · exact willing_send.bind fun _ => willing_resolve.discard
      · exact willing_resolve.discard
    dsimp only at shows ⊢
    split
    · exact Willing.bind willing_modify fun _ => shows
    · exact shows

theorem willing_doWork {work : Work} : Willing (doWork work) := by
  cases work with
  | run resolution => exact willing_resolve.discard
  | trigger trigger event => exact willing_fireTrigger
  | announce event => exact willing_announce
  | bury spell =>
      refine willing_lookup.bind fun entity => ?_
      split
      · exact willing_send
      · exact willing_pure

theorem willing_settle : Willing (settle allowance) := by
  induction allowance with
  | zero =>
      intro duel fault left failed
      cases failed
      trivial
  | succ allowance ih =>
      refine willing_processDeaths.bind fun _ => Willing.bind willing_modify fun _ =>
        willing_get.bind fun duel => ?_
      split
      · exact willing_pure
      split
      · exact willing_pure
      · exact willing_set.bind fun _ => willing_doWork.onFault.bind fun _ => ih

/-! ## Steps -/

theorem willing_shuffleDeck : Willing (shuffleDeck player) :=
  willing_get.bind fun _ => willing_roll.bind fun _ => willing_modify

theorem willing_readyTurn : Willing (readyTurn player) :=
  Willing.bind willing_modify fun _ => willing_get.bind fun _ =>
    (willing_forM (fun _ => willing_change) _).bind fun _ => willing_modify

theorem willing_cleanUpTurn : Willing (cleanUpTurn player) :=
  Willing.bind willing_modify fun _ => willing_get.bind fun _ =>
    willing_forM (fun _ => willing_change) _

theorem willing_dealHands : Willing dealHands := by
  refine willing_get.bind fun duel => (willing_drawCard.times _).bind fun _ =>
    (willing_drawCard.times _).bind fun _ => willing_get.bind fun _ => ?_
  split
  · exact willing_pure
  · exact willing_give.discard

theorem willing_offerMulligan : Willing offerMulligan := by
  refine willing_get.bind fun duel => ?_
  dsimp only
  split
  · exact willing_pure
  have offers (coin : Option CardId) : Willing (Player.both.forM fun player =>
      modify fun duel =>
        duel.setChoice player (some ⟨.mulligan, duel.replaceable player coin⟩)) :=
    willing_forM (fun _ => willing_modify) _
  split
  · exact willing_pure.bind fun _ => offers _
  · exact willing_lookupCode.map.bind fun _ => offers _

theorem willing_stepWork {target : Step} : Willing (stepWork player target) := by
  cases target with
  | beginFirst => exact willing_modify
  | beginShuffle =>
      refine willing_get.bind fun duel => ?_
      split
      · exact willing_forM (fun _ => willing_shuffleDeck) _
      · exact willing_pure
  | beginDraw => exact willing_dealHands
  | beginMulligan => exact willing_offerMulligan
  | mainReady => exact willing_readyTurn
  | mainStartTriggers => exact willing_announce
  | mainResource => exact willing_modify
  | mainDraw => exact willing_drawCard
  | mainEndTriggers => exact willing_announce
  | mainCleanup => exact willing_cleanUpTurn
  | mainNext => exact willing_modify
  | _ => exact willing_pure

theorem willing_enter {target : Step} : Willing (enter allowance target) :=
  Willing.bind willing_modify fun _ => willing_get.bind fun _ =>
    willing_stepWork.bind fun _ => willing_settle

theorem willing_advance : Willing (advance allowance) := by
  refine willing_get.bind fun duel => ?_
  split
  · exact willing_pure
  split
  · exact willing_violate
  · exact willing_enter.bind fun _ => willing_pure

theorem willing_advanceWhile {goal : Step → Bool} {count : Nat} :
    Willing (advanceWhile allowance goal count) := by
  induction count with
  | zero => exact willing_pure
  | succ count ih =>
      refine willing_get.bind fun duel => ?_
      split
      · exact willing_pure
      refine willing_advance.bind fun advanced => ?_
      split
      · exact ih
      · exact willing_pure

theorem willing_runToDecision : Willing (runToDecision allowance) :=
  willing_get.bind fun _ => willing_advanceWhile

/-- Running on afterwards, if the duel says so, refuses nothing either. -/
theorem Willing.thenRunOn {action : Play Unit} {condition : Duel → Bool}
    (willing : Willing action) : Willing (do
      action
      let left ← get
      if condition left then
        runToDecision allowance) := by
  refine willing.bind fun _ => willing_get.bind fun left => ?_
  split
  · exact willing_runToDecision
  · exact willing_pure

theorem willing_beginTurns : Willing (beginTurns allowance) :=
  willing_enter.thenRunOn

/-! ## Actions -/

theorem willing_placePlayed {card : EntityId} {entity : Entity} {position : Option Nat} :
    Willing (placePlayed player card entity position) := by
  unfold placePlayed
  split
  · refine Willing.bind willing_modify fun _ => willing_placeMinion.bind fun placed => ?_
    split
    · exact willing_pure
    · exact willing_violate
  · exact willing_send
  · exact willing_equip
  · exact willing_violate

theorem willing_runPhases {phases : List Work} : Willing (runPhases allowance phases) :=
  Willing.bind willing_modify fun _ => willing_settle

theorem willing_playCard {card : EntityId} {target : Option EntityId} {position : Option Nat} :
    Willing (playCard allowance player card target position) :=
  willing_lookup.bind fun _ => willing_get.bind fun _ => Willing.bind willing_modify fun _ =>
    willing_get.bind fun _ => willing_placePlayed.bind fun _ => willing_runPhases

theorem willing_useHeroPower {target : Option EntityId} :
    Willing (useHeroPower allowance player target) :=
  willing_get.bind fun _ => willing_lookup.bind fun _ => Willing.bind willing_modify fun _ =>
    willing_change.bind fun _ => willing_get.bind fun _ => willing_runPhases

theorem willing_exchange {replace : List EntityId} : Willing (exchange player replace) :=
  (willing_forM (fun _ => willing_send) _).bind fun _ => (willing_drawCard.times _).bind fun _ =>
    willing_forM (fun _ => willing_shuffleIn.discard) _

theorem willing_mulligan {replace : List EntityId} :
    Willing (mulligan allowance player replace) := by
  refine willing_exchange.bind fun _ => Willing.bind willing_modify fun _ =>
    willing_settle.bind fun _ => willing_get.bind fun duel => ?_
  split
  · exact willing_beginTurns
  · exact willing_pure

theorem willing_settleOptions {pick : EntityId} {options : List EntityId} :
    Willing (settleOptions pick options) := by
  refine willing_forM (fun option => ?_) options
  split
  · exact willing_sendOrElse
  · exact willing_send

theorem willing_resume : Willing resume := by
  refine willing_get.bind fun duel => ?_
  split
  · exact willing_pure
  · exact Willing.bind willing_modify fun _ => willing_resolve.discard

theorem willing_choose {pick : EntityId} : Willing (choose allowance player pick) := by
  refine willing_get.bind fun duel => ?_
  split
  · exact willing_violate
  · exact Willing.bind willing_modify fun _ => willing_settleOptions.bind fun _ =>
      willing_resume.bind fun _ => willing_settle.thenRunOn

theorem willing_endTurn : Willing (endTurn allowance) :=
  willing_enter.thenRunOn

/-- Nothing that an accepted request sets off refuses anything. -/
theorem willing_carryOut {action : Action} : Willing (carryOut allowance player action) := by
  cases action with
  | playCard card target position => exact willing_playCard
  | attack attacker defender => exact willing_runPhases
  | heroPower target => exact willing_useHeroPower
  | endTurn => exact willing_endTurn
  | mulligan replace => exact willing_mulligan
  | choose entity => exact willing_choose
  | concede => exact willing_modify

end Play

end CardDuel
