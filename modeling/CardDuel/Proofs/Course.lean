import CardDuel.Proofs.Performance

/-!
# What taking steps and actions comes to

Settling, entering steps, answering requests and setting a duel up are made of the
changes of a duel, whether or not they end in a fault.
-/

namespace CardDuel

open Relation

namespace Duel

theorem Shift.changes {before after : Duel} (shifts : ReflTransGen Shift before after) :
    ReflTransGen Change before after :=
  ReflTransGen.mono (fun _ _ => .shift) _ _ shifts

end Duel

namespace Play

open Duel

variable {step : Duel → Duel → Prop} {fits : Effect → Prop}
variable {duel : Duel} {id : EntityId} {player : Player} {allowance : Nat}

/-! ## Settling -/

theorem fits_of_next {work : Work} {rest : Agenda} (allowed : duel.Fits fits)
    (next : duel.agenda.next? = some (work, rest)) : work.Fits fits := by
  apply allowed.scheduled
  rw [Agenda.toList_of_next next]
  exact List.mem_cons_self

section Settling

variable [working : Working step fits]

include working

theorem follows_processDeaths : Follows step processDeaths := fun duel => by
  unfold processDeaths
  apply leads_get_bind
  split
  · exact leads_pure
  have fallen : ReflTransGen step duel (duel.markFallen duel.deadMinions) :=
    .single (Revising.fall duel duel.deadMinions)
  refine Leads.bind fallen fun _ marked _ => ?_
  refine (follows_forM (fun _ => follows_bury) _ |>.bind fun _ => ?_) marked
  refine fun left => leads_modify ?_
  split
  · exact .refl
  · exact .single (Working.finish left left.defeated)

theorem follows_resolve {resolution : Resolution} (allowed : resolution.Fits fits) :
    Follows step (resolve resolution) :=
  follows_resolveWithin allowed

theorem follows_fireTrigger {trigger : TriggerId} {event : Event} :
    Follows step (fireTrigger trigger event) := fun duel => leads_assuming fun allowed => by
  unfold fireTrigger
  apply leads_get_bind
  split
  · exact leads_pure
  next live found =>
    have listed : live ∈ duel.triggers.active := List.mem_of_find?_eq_some found
    have acts : Follows step (discard (resolve (Resolution.ofEffects live.rule.effects
        ⟨live.controller, live.owner, event.target, some event⟩))) :=
      (follows_resolve (Resolution.fits_ofEffects (allowed.booked live listed))).discard
    have shows : Follows step (do
        if live.rule.zone = .secret then send live.owner .graveyard
        discard (resolve (Resolution.ofEffects live.rule.effects
          ⟨live.controller, live.owner, event.target, some event⟩))) := by
      dsimp only
      split
      · exact follows_send.bind fun _ => acts
      · exact acts
    dsimp only at shows ⊢
    split
    next once => exact leads_modify_bind (.single (Working.fire duel found once)) (shows _)
    next => exact shows duel

/-- Work that is taken from the agenda and done. -/
theorem yields_doWork {work : Work} {rest : Agenda} (allowed : work.Fits fits)
    (next : duel.agenda.next? = some (work, rest)) :
    (doWork work).Yields { duel with agenda := rest } (fun _ => ReflTransGen step duel)
      (ReflTransGen step duel) := by
  have begins : step duel { duel with agenda := rest } := Working.begin duel next
  have works {action : Play Unit} (follows : Follows step action) :
      action.Yields { duel with agenda := rest } (fun _ => ReflTransGen step duel)
        (ReflTransGen step duel) :=
    Yields.mono (follows _) (fun _ _ => .head begins) fun _ => .head begins
  cases work with
  | run resolution => exact works (follows_resolve allowed).discard
  | trigger trigger event => exact works follows_fireTrigger
  | announce event => exact Working.herald duel next
  | bury spell =>
      apply works
      apply follows_lookup.bind
      intro entity
      split
      · exact follows_send
      · exact follows_pure

theorem follows_settle : Follows step (settle allowance) := by
  induction allowance with
  | zero => exact follows_throw
  | succ allowance ih =>
      refine follows_processDeaths.bind fun _ =>
        Follows.bind (follows_modify fun duel => Revising.auras duel) fun _ duel =>
          leads_assuming fun allowed => ?_
      apply leads_get_bind
      split
      · exact leads_pure
      split
      · exact leads_pure
      next work rest next =>
        rw [Leads, yields_bind, yields_set, yields_bind, yields_onFault]
        refine (yields_doWork (fits_of_next allowed next) next).mono (fun _ left reaches => ?_)
          fun left reaches => reaches.tail (Working.clear left)
        exact (ih left).mono (fun _ _ => reaches.trans) fun _ => reaches.trans

end Settling

/-- Settling is a round and, unless the duel stops there, a piece of work and more of the same. -/
theorem settle_succ (allowance : Nat) (duel : Duel) :
    settle (allowance + 1) duel =
      match processDeaths duel with
      | .error fault left => .error fault left
      | .ok _ buried =>
        if buried.updateAuras.isOver || buried.updateAuras.suspended.isSome then
          .ok () buried.updateAuras
        else
          match buried.updateAuras.agenda.next? with
          | none => .ok () buried.updateAuras
          | some (work, rest) =>
            match doWork work { buried.updateAuras with agenda := rest } with
            | .error fault left => .error fault left.clearAgenda
            | .ok _ left => settle allowance left := by
  change (processDeaths >>= _) duel = _
  cases ran : processDeaths duel with
  | error fault left => exact bind_of_error ran
  | ok value buried =>
      rw [bind_of_ok ran]
      change (if buried.updateAuras.isOver || buried.updateAuras.suspended.isSome then _ else _ :
        Play Unit) buried.updateAuras = _
      dsimp only
      split
      · rfl
      rcases buried.updateAuras.agenda.next? with _ | ⟨work, rest⟩
      · rfl
      · change EStateM.bind (onFault (doWork work) Duel.clearAgenda) _
          { buried.updateAuras with agenda := rest } = _
        unfold EStateM.bind onFault
        dsimp only
        cases doWork work { buried.updateAuras with agenda := rest } <;> rfl

/-! ## Steps -/

section Work

variable [working : Working step fits]

/-- What is readied when a turn begins, once the turn is counted. -/
theorem leads_readying {relation : Duel → Duel → Prop} [Revising relation]
    (refreshes : ∀ (left : Duel) (id : EntityId), left.step = duel.step →
      relation left (left.updateEntity id Entity.refresh)) :
    Leads relation duel (do
      let duel ← get
      (duel.field player ++ [duel.hero player, (duel.player player).heroPower]).forM fun id =>
        change id Entity.refresh
      modify fun duel => duel.updatePlayer player fun state =>
        (state.setTag .cardsPlayedThisTurn 0).setTag .minionsPlayedThisTurn 0) := by
  have readies (ids : List EntityId) : ∀ left : Duel, left.step = duel.step →
      Leads relation left (ids.forM fun id => change id Entity.refresh) := by
    induction ids with
    | nil => exact fun _ _ => .refl
    | cons id ids ih =>
        intro left same
        refine Leads.bind (leads_change fun _ _ => refreshes left id same) fun _ next ran => ?_
        have still : (change id Entity.refresh).Ensures left fun _ next => next.step = left.step :=
          yields_bind.mpr (yields_lookup.mpr ⟨fun _ _ => rfl, fun _ => trivial⟩)
        exact ih next ((still.of_ok ran).trans same)
  apply leads_get_bind
  exact (readies _ duel rfl).bind fun _ left _ => follows_adjust (fun _ => .restart) left

/-- The work of a step, where the clock may be moved and characters may be readied at any time. -/
theorem follows_stepWork_of {relation : Duel → Duel → Prop} [Revising relation] {target : Step}
    (passes : ∀ (duel : Duel) next, relation duel { duel with current := next })
    (counts : ∀ duel : Duel, relation duel { duel with turn := duel.turn + 1 })
    (refreshes : ∀ (duel : Duel) id, relation duel (duel.updateEntity id Entity.refresh))
    (announces : ∀ kind ≠ .death, Follows relation (announce (Event.plain kind player)))
    (shuffles : ∀ side, Follows relation (shuffleDeck side))
    (draws : Follows relation (drawCard player)) (deals : Follows relation dealHands)
    (offers : Follows relation offerMulligan) : Follows relation (stepWork player target) := by
  cases target with
  | beginFirst => exact follows_modify fun duel => passes duel duel.first
  | beginShuffle =>
      apply follows_get.bind
      intro duel
      split
      · exact follows_forM shuffles _
      · exact follows_pure
  | beginDraw => exact deals
  | beginMulligan => exact offers
  | mainReady =>
      change Follows relation (readyTurn player)
      unfold readyTurn
      exact Follows.bind (follows_modify counts) fun _ _ =>
        leads_readying fun left id _ => refreshes left id
  | mainStartTriggers => exact announces .turnStart (by decide)
  | mainResource => exact follows_adjust fun _ => .renew
  | mainDraw => exact draws
  | mainEndTriggers => exact announces .turnEnd (by decide)
  | mainCleanup => exact follows_cleanUpTurn
  | mainNext => exact follows_modify fun duel => passes duel player.opponent
  | _ => exact follows_pure

/-- As shifts go, characters may be readied at any time. -/
theorem follows_readying : Follows Shift (do
    let duel ← get
    (duel.field player ++ [duel.hero player, (duel.player player).heroPower]).forM fun id =>
      change id Entity.refresh
    modify fun duel => duel.updatePlayer player fun state =>
      (state.setTag .cardsPlayedThisTurn 0).setTag .minionsPlayedThisTurn 0) :=
  fun _ => leads_readying fun left id _ => .stir (.revise left id .refresh)

include working

theorem follows_offerMulligan : Follows step offerMulligan := by
  unfold offerMulligan
  apply follows_get.bind
  intro duel
  dsimp only
  split
  · exact follows_pure
  have offers (coin : Option CardId) : Follows step (Player.both.forM fun player =>
      modify fun duel =>
        duel.setChoice player (some ⟨.mulligan, duel.replaceable player coin⟩)) :=
    follows_forM (fun player => follows_modify fun duel => Working.choose duel player _) _
  split
  · exact follows_pure.bind fun _ => offers _
  · exact follows_lookupCode.map.bind fun _ => offers _

/-- The work of a step first moves the clock, if the step does that at all. -/
theorem yields_stepWork {target : Step} (reached : duel.step = target) :
    (stepWork player target).Yields duel (fun _ => ReflTransGen step (duel.ticked player target))
      (ReflTransGen step (duel.ticked player target)) := by
  have table {action : Play Unit} (follows : Follows step action) :
      action.Yields duel (fun _ => ReflTransGen step duel) (ReflTransGen step duel) := follows duel
  cases target with
  | beginFirst => exact .refl
  | beginShuffle =>
      apply table
      apply follows_get.bind
      intro duel
      split
      · exact follows_forM (fun _ => follows_shuffleDeck) _
      · exact follows_pure
  | beginDraw => exact table follows_dealHands
  | beginMulligan => exact table follows_offerMulligan
  | mainReady =>
      change (readyTurn player).Yields _ _ _
      unfold readyTurn
      rw [yields_bind, yields_modify]
      exact leads_readying fun left id same => Working.refresh left id (same.trans reached)
  | mainStartTriggers => exact table (follows_announce (by nofun))
  | mainResource => exact table (follows_adjust fun _ => .renew)
  | mainDraw => exact table follows_drawCard
  | mainEndTriggers => exact table (follows_announce (by nofun))
  | mainCleanup => exact table follows_cleanUpTurn
  | mainNext => exact .refl
  | _ => exact table follows_pure

theorem yields_stepWork_entering {target : Step} :
    (stepWork duel.current target).Yields { duel with step := target }
      (fun _ => ReflTransGen step (duel.entering target))
      (ReflTransGen step (duel.entering target)) :=
  yields_stepWork rfl

/-- Entering a step is setting the clock and whatever happens within the step. -/
theorem yields_enter_clock {target : Step} :
    (enter allowance target).Yields duel (fun _ => ReflTransGen step (duel.entering target))
      (ReflTransGen step (duel.entering target)) := by
  unfold enter
  rw [yields_bind, yields_modify, yields_bind, yields_get, yields_bind]
  refine yields_stepWork_entering.mono (fun _ left reaches => ?_) fun left reaches => reaches
  exact (follows_settle left).mono (fun _ _ => reaches.trans) fun _ => reaches.trans

end Work

/-! What goes from step to step follows whatever entering a step follows. -/

section Advances

variable (enters : ∀ target, Follows step (enter allowance target))

include enters

theorem follows_advance_of : Follows step (advance allowance) := by
  unfold advance
  apply follows_get.bind
  intro duel
  split
  · exact follows_pure
  split
  · exact follows_violate
  · exact (enters _).bind fun _ => follows_pure

theorem follows_advanceWhile_of {goal : Step → Bool} {count : Nat} :
    Follows step (advanceWhile allowance goal count) := by
  induction count with
  | zero => exact follows_pure
  | succ count ih =>
      apply follows_get.bind
      intro duel
      split
      · exact follows_pure
      apply (follows_advance_of enters).bind
      intro advanced
      split
      · exact ih
      · exact follows_pure

theorem follows_advanceTo_of {target : Step} : Follows step (advanceTo allowance target) := by
  unfold advanceTo
  exact follows_get.bind fun _ => follows_advanceWhile_of enters

theorem follows_runToDecision_of : Follows step (runToDecision allowance) := by
  unfold runToDecision
  exact follows_get.bind fun _ => follows_advanceWhile_of enters

theorem follows_beginTurns_of : Follows step (beginTurns allowance) := by
  unfold beginTurns
  refine (enters _).bind fun _ => follows_get.bind fun duel => ?_
  split
  · exact follows_runToDecision_of enters
  · exact follows_pure

theorem follows_start_of : Follows step (start allowance) := by
  unfold start
  apply follows_get.bind
  intro duel
  split
  · exact follows_violate
  refine (follows_forM enters _).bind fun _ => follows_get.bind fun left => ?_
  split
  · exact follows_pure
  · exact follows_beginTurns_of enters

theorem follows_endTurn_of : Follows step (endTurn allowance) := by
  unfold endTurn
  refine (enters _).bind fun _ => follows_get.bind fun duel => ?_
  split
  · exact follows_runToDecision_of enters
  · exact follows_pure

end Advances

section Steps

variable [directing : Directing step fits]

include directing

theorem follows_enter {target : Step} : Follows step (enter allowance target) := fun duel =>
  yields_enter_clock.mono (fun _ _ => (Directing.enter duel target).trans)
    fun _ => (Directing.enter duel target).trans

theorem follows_advance : Follows step (advance allowance) :=
  follows_advance_of fun _ => follows_enter

theorem follows_advanceTo {target : Step} : Follows step (advanceTo allowance target) :=
  follows_advanceTo_of fun _ => follows_enter

theorem follows_runToDecision : Follows step (runToDecision allowance) :=
  follows_runToDecision_of fun _ => follows_enter

theorem follows_beginTurns : Follows step (beginTurns allowance) :=
  follows_beginTurns_of fun _ => follows_enter

theorem follows_start : Follows step (start allowance) :=
  follows_start_of fun _ => follows_enter

theorem follows_endTurn : Follows step (endTurn allowance) :=
  follows_endTurn_of fun _ => follows_enter

end Steps

/-! ## Actions -/

/-- What a play, an attack or a hero power does before its phases are gone through. -/
def prepare (player : Player) : Action → Play Unit
  | .playCard card target position => do
    let entity ← lookup card
    let combo : Bool := 0 < ((← get).player player).tags.get .cardsPlayedThisTurn
    modify fun duel => duel.updatePlayer player (payForCard entity)
    let effects := ((← get).behaviourOf entity).effectsWhen combo
    placePlayed player card entity position
    modify fun duel => { duel with
      agenda := duel.agenda.addPhases (phasesOf entity.kind (entity.tags.has .secret) card
        (fun kind => Event.aimed kind player card target)
        (.ofEffects effects ⟨player, card, target, none⟩)) }
  | .attack attacker defender =>
    modify fun duel => { duel with
      agenda := duel.agenda.addPhases
        [.announce (Event.aimed .attack player attacker (some defender)),
          .run (.ofEffects [.attack] ⟨player, attacker, some defender, none⟩)] }
  | .heroPower target => do
    let power := ((← get).player player).heroPower
    let entity ← lookup power
    modify fun duel => duel.updatePlayer player fun state => state.spendMana entity.cost
    change power fun entity => entity.setTag .exhausted 1
    let effects := ((← get).behaviourOf entity).effects
    modify fun duel => { duel with
      agenda := duel.agenda.addPhases
        [.run (.ofEffects effects ⟨player, power, target, none⟩),
          .announce (Event.aimed .inspire player power target)] }
  | .endTurn | .mulligan _ | .choose _ | .concede => pure ()

theorem playCard_eq (allowance : Nat) (player : Player) (card : EntityId)
    (target : Option EntityId) (position : Option Nat) :
    playCard allowance player card target position = (do
      prepare player (.playCard card target position)
      settle allowance) := by
  simp only [playCard, prepare, runPhases, bind_assoc]

theorem useHeroPower_eq (allowance : Nat) (player : Player) (target : Option EntityId) :
    useHeroPower allowance player target = (do
      prepare player (.heroPower target)
      settle allowance) := by
  simp only [useHeroPower, prepare, runPhases, bind_assoc]

section Actions

theorem follows_placePlayed [Shifting step] {card : EntityId} {entity : Entity}
    {position : Option Nat} :
    Follows step (placePlayed player card entity position) := by
  unfold placePlayed
  split
  · refine (follows_adjust fun _ => .add 1 (by decide)).bind fun _ =>
      follows_placeMinion.bind fun placed => ?_
    split
    · exact follows_pure
    · exact follows_violate
  · exact follows_send
  · exact follows_equip
  · exact follows_violate

theorem follows_exchange [Shifting step] {replace : List EntityId} :
    Follows step (exchange player replace) := by
  unfold exchange
  exact (follows_forM (fun _ => follows_send) _).bind fun _ =>
    (follows_drawCard.times _).bind fun _ =>
      follows_forM (fun _ => follows_shuffleIn.discard) _

theorem follows_settleOptions [Placing step] {pick : EntityId} {options : List EntityId} :
    Follows step (settleOptions pick options) := by
  unfold settleOptions
  refine follows_forM (fun option => ?_) options
  split
  · exact follows_sendOrElse
  · exact follows_send

theorem isPhase_phasesOf {kind : EntityKind} {isSecret : Bool} {card : EntityId}
    {event : EventKind → Event} {resolution : Resolution} (kinds : ∀ kind, (event kind).kind = kind)
    (allowed : resolution.Fits fits) :
    ∀ work ∈ phasesOf kind isSecret card event resolution, work.IsPhase fits := by
  cases kind <;> cases isSecret <;>
    simp [phasesOf, Work.IsPhase, Work.Fits, Work.alert?, Work.tolls, kinds, allowed]

section Within

variable [working : Working step fits]

include working

theorem follows_prepare {action : Action} : Follows step (prepare player action) := by
  cases action with
  | playCard card target position =>
      refine follows_lookup.bind fun entity => follows_get.bind fun _ =>
        (follows_adjust fun _ => .pay entity).bind fun _ paid => leads_assuming fun allowed => ?_
      apply leads_get_bind
      have effects := (allowed.behaviourOf entity).effectsWhen
      exact (follows_placePlayed.bind fun _ => follows_modify fun duel => Working.schedule duel
        (isPhase_phasesOf (fun _ => rfl) (Resolution.fits_ofEffects (effects _)))) paid
  | attack attacker defender =>
      have attacks : ∀ effect ∈ [Effect.attack], fits effect := by
        rintro effect member
        rw [List.mem_singleton.mp member]
        exact (Performing.hereditary step).attack
      refine follows_modify fun duel => Working.schedule duel ?_
      simpa [Work.IsPhase, Work.Fits, Work.alert?, Work.tolls, Event.aimed] using
        Resolution.fits_ofEffects attacks
  | heroPower target =>
      refine follows_get.bind fun _ => follows_lookup.bind fun entity =>
        (follows_adjust fun _ => .spend entity).bind fun _ =>
          (follows_change (.write 1 (by decide))).bind fun _ used => leads_assuming fun allowed => ?_
      apply leads_get_bind
      refine follows_modify (fun duel => Working.schedule duel ?_) used
      simpa [Work.IsPhase, Work.Fits, Work.alert?, Work.tolls, Event.aimed] using
        Resolution.fits_ofEffects (allowed.behaviourOf entity).effects
  | endTurn | mulligan _ | choose _ | concede => exact follows_pure

theorem follows_runPhases {phases : List Work} (plain : ∀ work ∈ phases, work.IsPhase fits) :
    Follows step (runPhases allowance phases) := by
  unfold runPhases
  exact Follows.bind (follows_modify fun duel => Working.schedule duel plain)
    fun _ => follows_settle

theorem follows_playCard {card : EntityId} {target : Option EntityId} {position : Option Nat} :
    Follows step (playCard allowance player card target position) := by
  rw [playCard_eq]
  exact follows_prepare.bind fun _ => follows_settle

theorem follows_attack {attacker defender : EntityId} :
    Follows step (attack allowance player attacker defender) := by
  have prepares : Follows step (prepare player (.attack attacker defender)) := follows_prepare
  exact prepares.bind fun _ => follows_settle

theorem follows_useHeroPower {target : Option EntityId} :
    Follows step (useHeroPower allowance player target) := by
  rw [useHeroPower_eq]
  exact follows_prepare.bind fun _ => follows_settle

theorem follows_resume : Follows step resume := fun duel => leads_assuming fun allowed => by
  unfold resume
  apply leads_get_bind
  split
  · exact leads_pure
  next resolution waiting =>
    have resolves : Follows step (discard (resolve resolution)) :=
      (follows_resolve (allowed.waiting resolution waiting)).discard
    have dropped : step duel { duel with suspended := none } := by
      apply Working.suspend
      exact fun _ => nofun
    exact leads_modify_bind (.single dropped) (resolves _)

end Within

variable [directing : Directing step fits]

include directing

theorem follows_mulligan {replace : List EntityId} :
    Follows step (mulligan allowance player replace) := by
  unfold mulligan
  refine follows_exchange.bind fun _ =>
    Follows.bind (follows_modify fun duel => Working.choose duel player none) fun _ =>
      follows_settle.bind fun _ => follows_get.bind fun duel => ?_
  split
  · exact follows_beginTurns
  · exact follows_pure

theorem follows_choose {pick : EntityId} : Follows step (choose allowance player pick) := by
  unfold choose
  apply follows_get.bind
  intro duel
  split
  · exact follows_violate
  refine Follows.bind (follows_modify fun duel => Working.choose duel player none) fun _ =>
    follows_settleOptions.bind fun _ => follows_resume.bind fun _ =>
      follows_settle.bind fun _ => follows_get.bind fun left => ?_
  split
  · exact follows_runToDecision
  · exact follows_pure

theorem follows_carryOut {action : Action} :
    Follows step (carryOut allowance player action) := by
  cases action with
  | playCard card target position => exact follows_playCard
  | attack attacker defender => exact follows_attack
  | heroPower target => exact follows_useHeroPower
  | endTurn => exact follows_endTurn
  | mulligan replace => exact follows_mulligan
  | choose entity => exact follows_choose
  | concede => exact follows_modify fun duel => Working.concede duel player

end Actions

/-- A request is refused as the match stands, or it is recorded and carried out. -/
theorem take_eq (duel : Duel) (allowance : Nat) (player : Player) (action : Action) :
    take allowance player action duel =
      if duel.isOver = true then .error .gameOver duel
      else
        match duel.check player action with
        | .error reason => .error (.rejected reason) duel
        | .ok _ =>
          onFault (carryOut allowance player action) clearAgenda (record player action duel) := by
  change (if duel.isOver = true then _ else match duel.check player action with
    | .error reason => _
    | .ok _ => _ : Play Unit) duel = _
  split
  · rfl
  · cases duel.check player action <;> rfl

theorem onFault_congr {α : Type} {action other : Play α} {repair : Duel → Duel} {duel after : Duel}
    (same : action duel = other after) :
    onFault action repair duel = onFault other repair after := by
  unfold onFault
  rw [same]

/-- An accepted request of a match that goes on is recorded and carried out. -/
theorem take_of_accepted {duel : Duel} {action : Action} (allowance : Nat)
    (running : duel.isOver = false) (accepted : duel.check player action = .ok ()) :
    take allowance player action duel =
      onFault (carryOut allowance player action) clearAgenda (record player action duel) := by
  rw [take_eq, if_neg (by simp [running]), accepted]

theorem follows_take [Requesting step fits] {action : Action} :
    Follows step (take allowance player action) := by
  intro duel
  unfold Leads Yields
  rw [take_eq]
  by_cases ended : duel.isOver = true
  · rw [if_pos ended]
  rw [if_neg ended]
  cases accepted : duel.check player action with
  | error reason => exact .refl
  | ok _ =>
      have records : step duel (record player action duel) := Requesting.record duel accepted
      have carries : Follows step (onFault (carryOut allowance player action) clearAgenda) :=
        follows_carryOut.onFault fun duel => Working.clear duel
      exact (carries _).mono (fun _ _ => .head records) fun _ => .head records

/-! ## Setting up -/

section Setup

theorem follows_checkCoin : Follows step checkCoin := by
  unfold checkCoin
  apply follows_get.bind
  intro duel
  split
  · exact follows_pure
  split
  · exact follows_throw
  · exact follows_pure

variable [Placing step]

theorem follows_setUpHero : Follows step (setUpHero player) := by
  unfold setUpHero
  apply follows_get.bind
  intro duel
  dsimp only
  split
  · exact follows_throw
  split
  · exact follows_throw
  split
  · exact follows_throw
  · exact follows_create.bind fun _ => follows_send.bind fun _ =>
      follows_create.bind fun _ => follows_send

theorem follows_setUpDeck {codes : List String} : Follows step (setUpDeck player codes) := by
  refine follows_forM (fun code => follows_get.bind fun duel => ?_) codes
  split
  · exact follows_throw
  · exact follows_create.bind fun _ => follows_send

theorem follows_addRandom {pool : List CardId} : Follows step (addRandom player pool) := by
  unfold addRandom
  apply follows_roll.bind
  intro place
  split
  · exact follows_throw
  · exact follows_create.bind fun _ => follows_send

theorem follows_fillDeck : Follows step (fillDeck player) := by
  unfold fillDeck
  apply follows_get.bind
  intro duel
  dsimp only
  split
  · split
    · exact follows_throw
    · exact follows_addRandom.times _
  · exact follows_pure

theorem follows_setUp : Follows step (setUp player) := by
  unfold setUp
  refine follows_setUpHero.bind fun _ => follows_get.bind fun duel => ?_
  split
  · exact follows_throw
  · exact follows_setUpDeck.bind fun _ => follows_fillDeck

end Setup

end Play

namespace Duel

theorem ok_of_bind {ε α β : Type} {first : Except ε α} {next : α → Except ε β} {value : β}
    (succeeds : (first >>= next) = .ok value) :
    ∃ middle, first = .ok middle ∧ next middle = .ok value := by
  cases first with
  | error cause => cases succeeds
  | ok middle => exact ⟨middle, rfl, succeeds⟩

theorem Quiet.shifts {before after : Duel} (quiets : ReflTransGen Quiet before after) :
    ReflTransGen Shift before after :=
  ReflTransGen.mono (fun _ _ => And.left) _ _ quiets

theorem Quiet.agenda {before after : Duel} (quiets : ReflTransGen Quiet before after) :
    after.agenda = before.agenda := by
  induction quiets with
  | refl => rfl
  | tail _ last ih => exact last.2.trans ih

/-- A bare duel has nothing on the table and nothing under way. -/
theorem bare_eq {settings : Settings} {catalogue : Catalogue} {duel : Duel}
    (begun : Duel.bare settings catalogue = .ok duel) :
    ∃ first dice zero one, duel = {
      settings := settings
      catalogue := catalogue
      dice := dice
      players := ⟨PlayerState.initial .zero zero, PlayerState.initial .one one⟩
      arena := Arena.empty
      zones := Zones.empty settings.limits
      triggers := TriggerBook.empty
      agenda := Agenda.empty
      choices := PerPlayer.const none
      suspended := none
      step := .unstarted
      current := first
      first := first
      turn := 0
      history := [] } := by
  obtain ⟨_, _, begun⟩ := ok_of_bind begun
  obtain ⟨⟨first, dice⟩, _, begun⟩ := ok_of_bind begun
  obtain ⟨zero, _, begun⟩ := ok_of_bind begun
  obtain ⟨one, _, begun⟩ := ok_of_bind begun
  cases begun
  exact ⟨first, dice, zero, one, rfl⟩

/-- A duel that is set up comes from a bare one by putting entities somewhere. -/
theorem exists_bare {step : Duel → Duel → Prop} [Placing step] {settings : Settings}
    {catalogue : Catalogue} {duel : Duel} (created : create settings catalogue = .ok duel) :
    ∃ bare, Duel.bare settings catalogue = .ok bare ∧ ReflTransGen step bare duel := by
  unfold create at created
  cases begun : Duel.bare settings catalogue with
  | error cause => simp [begun] at created
  | ok bare =>
      refine ⟨bare, rfl, ?_⟩
      have sets : Play.Follows step (do Player.both.forM Play.setUp; Play.checkCoin) :=
        (Play.follows_forM (fun _ => Play.follows_setUp) _).bind fun _ => Play.follows_checkCoin
      have reaches := (sets bare).reaches
      simp only [begun] at created
      unfold Play.left at reaches
      split at created
      next left set =>
        rw [set] at reaches
        cases created
        exact reaches
      next => cases created

/-- A duel that is set up is a bare one whose table has shifted quietly. -/
theorem create_quiet {settings : Settings} {catalogue : Catalogue} {duel : Duel}
    (created : create settings catalogue = .ok duel) :
    ∃ bare, Duel.bare settings catalogue = .ok bare ∧ ReflTransGen Quiet bare duel :=
  exists_bare created

theorem fixed_of_created {settings : Settings} {catalogue : Catalogue} {duel : Duel}
    (created : create settings catalogue = .ok duel) :
    duel.settings = settings ∧ duel.catalogue = catalogue := by
  obtain ⟨bare, begun, quiets⟩ := create_quiet created
  have same := Change.fixed_of_reaches (Shift.changes (Quiet.shifts quiets))
  obtain ⟨first, dice, zero, one, rfl⟩ := bare_eq begun
  exact same

end Duel

end CardDuel
