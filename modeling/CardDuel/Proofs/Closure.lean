import CardDuel.Duel.Inspection
import CardDuel.Proofs.Endings

/-!
# Matches that are over

Whatever a host does to a match, it goes on or it is over.  Once it is over nothing is left to
do, the match is decided, and nothing can be done any more.
-/

namespace CardDuel

open Relation

namespace Play

open Duel

variable {α : Type} {enters : Step → Prop} {duel : Duel} {allowance : Nat} {player : Player}

/-! ## Actions -/

/-- What an action does itself, until the duel has settled: all of it, or what comes before the
turns begin or go on. -/
def acting (allowance : Nat) (player : Player) : Action → Play Unit
  | .mulligan replace => do
    exchange player (distinct [] replace)
    modify fun duel => duel.setChoice player none
    settle allowance
  | .choose pick => do
    match (← get).choice? player with
    | none => violate (.noPendingChoice player)
    | some choice =>
      modify fun duel => duel.setChoice player none
      settleOptions pick choice.options
      resume
      settle allowance
  | .endTurn => return ()
  | action => carryOut allowance player action

/-- The play breaks off, or it ends with settling; until then the match goes on where it was. -/
def Settles (allowance : Nat) (duel : Duel) (action : Play Unit) : Prop :=
  (∃ fault left, action duel = .error fault left ∧ duel.Continues (fun _ => False) left) ∨
    ∃ begun, duel.Continues (fun _ => False) begun ∧ action duel = settle allowance begun

theorem settles_settle (ongoing : duel.Ongoing) : Settles allowance duel (settle allowance) :=
  .inr ⟨duel, ongoing.continues, rfl⟩

theorem Settles.concludes {action : Play Unit} (settles : Settles allowance duel action) :
    Concludes enters duel action := by
  unfold Concludes Yields
  rcases settles with ⟨fault, left, broken, goesOn⟩ | ⟨begun, goesOn, settled⟩
  · rw [broken]
    exact goesOn.mono fun _ => False.elim
  · rw [settled]
    exact Concludes.after (goesOn.mono fun _ => False.elim) (concludes_settle goesOn.1)

theorem Continues.thenSettles {action : Play α} {next : α → Play Unit}
    (first : Continues (fun _ => False) duel action)
    (second : ∀ value left, left.Ongoing → Settles allowance left (next value)) :
    Settles allowance duel (action >>= next) := by
  unfold Continues Yields at first
  change (∃ fault left, EStateM.bind action next duel = _ ∧ _) ∨
    ∃ begun, _ ∧ EStateM.bind action next duel = _
  unfold EStateM.bind
  cases ran : action duel with
  | error fault left =>
      rw [ran] at first
      exact .inl ⟨fault, left, rfl, first⟩
  | ok value left =>
      rw [ran] at first
      rcases second value left first.1 with ⟨fault, last, broken, goesOn⟩ | ⟨begun, goesOn, settled⟩
      · exact .inl ⟨fault, last, broken, first.trans goesOn⟩
      · exact .inr ⟨begun, first.trans goesOn, settled⟩

theorem settles_runPhases {phases : List Work} (ongoing : duel.Ongoing) :
    Settles allowance duel (runPhases allowance phases) :=
  .inr ⟨{ duel with agenda := duel.agenda.addPhases phases },
    ⟨ongoing.of_control rfl, .inl rfl⟩, rfl⟩

theorem settles_playCard {card : EntityId} {target : Option EntityId} {position : Option Nat}
    (ongoing : duel.Ongoing) :
    Settles allowance duel (playCard allowance player card target position) := by
  unfold playCard
  refine (follows_lookup.continues ongoing).thenSettles fun entity known going => ?_
  refine (follows_get.continues going).thenSettles fun _ _ going => ?_
  have pays : Follows Shift (modify fun duel => duel.updatePlayer player (payForCard entity)) :=
    follows_adjust fun _ => .pay entity
  refine (pays.continues going).thenSettles fun _ paid going => ?_
  exact (follows_placePlayed.continues going).thenSettles fun _ placed => settles_runPhases

theorem settles_useHeroPower {target : Option EntityId} (ongoing : duel.Ongoing) :
    Settles allowance duel (useHeroPower allowance player target) := by
  unfold useHeroPower
  refine (follows_get.continues ongoing).thenSettles fun power _ going => ?_
  refine (follows_lookup.continues going).thenSettles fun entity known going => ?_
  have pays : Follows Shift (modify fun duel => duel.updatePlayer player fun state =>
      state.spendMana entity.cost) := follows_adjust fun _ => .spend entity
  refine (pays.continues going).thenSettles fun _ paid going => ?_
  have exhausts : Follows Shift (change (power.player player).heroPower fun entity =>
      entity.setTag .exhausted 1) := follows_change (.write 1 (by decide))
  exact (exhausts.continues going).thenSettles fun _ used => settles_runPhases

theorem continues_answer (ongoing : duel.Ongoing) (player : Player) :
    Continues enters duel (modify fun duel => duel.setChoice player none) :=
  ⟨⟨ongoing.1.setChoice fun _ => nofun, ongoing.2⟩, .inl rfl⟩

theorem continues_resume (ongoing : duel.Ongoing) : Continues enters duel resume := by
  unfold resume
  apply continues_get_bind
  split
  · exact ongoing.continues
  · have dropped : Duel.Ongoing { duel with suspended := none } :=
      ⟨⟨ongoing.1.unconceded, ongoing.1.offered⟩, ongoing.2⟩
    exact continues_modify_bind ⟨dropped, .inl rfl⟩ (continues_resolve dropped)

/-- What an action does itself ends with settling, if it settles anything. -/
theorem settles_acting {action : Action} (turns : action ≠ .endTurn) (plays : action ≠ .concede)
    (ongoing : duel.Ongoing) : Settles allowance duel (acting allowance player action) := by
  cases action with
  | playCard card target position => exact settles_playCard ongoing
  | attack attacker defender => exact settles_runPhases ongoing
  | heroPower target => exact settles_useHeroPower ongoing
  | endTurn => exact absurd rfl turns
  | mulligan replace =>
      exact (follows_exchange.continues ongoing).thenSettles fun _ drawn going =>
        (continues_answer going player).thenSettles fun _ _ => settles_settle
  | choose pick =>
      change Settles allowance duel (match duel.choice? player with
        | none => _
        | some choice => _)
      split
      · exact .inl ⟨_, duel, rfl, ongoing.continues⟩
      · exact (continues_answer ongoing player).thenSettles fun _ _ going =>
          (follows_settleOptions.continues going).thenSettles fun _ _ going =>
            (continues_resume going).thenSettles fun _ _ => settles_settle
  | concede => exact absurd rfl plays

theorem mulligan_eq {replace : List EntityId} :
    mulligan allowance player replace = (do
      acting allowance player (.mulligan replace)
      let duel ← get
      if !duel.hasChoice && duel.step = .beginMulligan then
        beginTurns allowance) := by
  simp only [acting, bind_assoc]
  rfl

theorem choose_eq_acting {pick : EntityId} :
    choose allowance player pick = (do
      acting allowance player (.choose pick)
      let duel ← get
      if duel.settings.autoRun && duel.step ≠ .unstarted && !duel.step.isOpening then
        runToDecision allowance) := by
  simp only [acting, bind_assoc]
  unfold choose
  congr 1
  funext duel
  cases duel.choice? player with
  | none => rfl
  | some choice => simp only [bind_assoc]

section Turns

variable (turns : ∀ step : Step, step.isTurn = true → enters step)

include turns

theorem concludes_mulligan {replace : List EntityId} (ongoing : duel.Ongoing) :
    Concludes enters duel (mulligan allowance player replace) := by
  have settles : Settles allowance duel (acting allowance player (.mulligan replace)) :=
    settles_acting nofun nofun ongoing
  rw [mulligan_eq]
  refine settles.concludes.bind (fun _ left goesOn => ?_) fun _ left finished => ?_
  · change Concludes enters left (if _ then _ else _)
    split
    · exact concludes_beginTurns turns goesOn.1
    · exact .continues goesOn.1.continues
  · rw [yields_bind, yields_get, if_neg]
    · rfl
    · simp [show left.step = .finalGameOver from of_decide_eq_true finished]

theorem concludes_choose {pick : EntityId} (ongoing : duel.Ongoing) :
    Concludes enters duel (choose allowance player pick) := by
  have settles : Settles allowance duel (acting allowance player (.choose pick)) :=
    settles_acting nofun nofun ongoing
  rw [choose_eq_acting]
  exact settles.concludes.runsOn turns

theorem concludes_endTurn (ongoing : duel.Ongoing) :
    Concludes enters duel (endTurn allowance) :=
  (concludes_enter ongoing rfl (turns .mainEndTriggers rfl)).runsOn turns

theorem concludes_carryOut {action : Action} (plays : action ≠ .concede)
    (ongoing : duel.Ongoing) : Concludes enters duel (carryOut allowance player action) := by
  cases action with
  | playCard card target position => exact (settles_playCard ongoing).concludes
  | attack attacker defender => exact (settles_runPhases ongoing).concludes
  | heroPower target => exact (settles_useHeroPower ongoing).concludes
  | endTurn => exact concludes_endTurn turns ongoing
  | mulligan replace => exact concludes_mulligan turns ongoing
  | choose pick => exact concludes_choose turns ongoing
  | concede => exact absurd rfl plays

/-- An action other than giving up that is taken, or refused, leaves the match going or ends it
with the fallen heroes. -/
theorem concludes_take {action : Action} (plays : action ≠ .concede) (ongoing : duel.Ongoing) :
    Concludes enters duel (take allowance player action) := by
  unfold take
  change Concludes enters duel (if duel.isOver then _ else _)
  split
  · exact ongoing.continues
  split
  · exact ongoing.continues
  · have recorded : duel.Continues enters (record player action duel) :=
      ⟨⟨⟨ongoing.1.unconceded, ongoing.1.offered⟩, ongoing.2⟩, .inl rfl⟩
    refine concludes_modify_bind recorded ?_
    unfold Concludes
    rw [yields_onFault]
    exact Yields.mono (concludes_carryOut turns plays recorded.1) (fun _ _ concludes => concludes)
      fun left goesOn => goesOn.trans (.of_control goesOn.1 rfl)

end Turns

/-- Giving up ends the match at once. -/
theorem take_concede (ongoing : duel.Ongoing) :
    take allowance player .concede duel =
      .ok () ((record player .concede duel).concede player) := by
  rw [take_eq, if_neg (by simp [ongoing.isOver])]
  rfl

/-! ## Calls -/

/-- A match that has ended may be in an opening step again when the opening goes on. -/
theorem yields_opening {steps : List Step} (opening : ∀ step ∈ steps, step.isFinal = false)
    (tenable : duel.Tenable) (proper : duel.Proper) :
    (steps.forM (enter allowance)).Yields duel (fun _ left => left.Tenable ∧ left.Proper)
      Duel.Ongoing := by
  induction steps generalizing duel with
  | nil => exact ⟨tenable, proper⟩
  | cons step steps ih =>
      have running := opening step List.mem_cons_self
      have enters : (enter allowance step).Yields duel
          (fun _ => Duel.Concludes (fun _ => True) { duel with step := step })
          (Duel.Continues (fun _ => True) { duel with step := step }) :=
        yields_enter tenable running
      refine yields_bind.mpr (Yields.mono enters (fun _ left concludes => ?_)
        fun _ goesOn => goesOn.1)
      exact ih (fun other member => opening other (List.mem_cons_of_mem step member))
        concludes.tenable concludes.proper

theorem proper_start (ongoing : duel.Ongoing) :
    (start allowance).Yields duel (fun _ => Duel.Proper) Duel.Ongoing := by
  unfold start
  rw [yields_bind, yields_get]
  split
  · exact ongoing
  rw [yields_bind]
  refine Yields.mono (yields_opening (by decide) ongoing.1 (.inl ongoing))
    (fun _ left opened => ?_) fun _ going => going
  rw [yields_bind, yields_get]
  split
  · exact opened.2
  · have begins : (beginTurns allowance).Yields left
        (fun _ => Duel.Concludes (fun _ => True) { left with step := .mainReady })
        (Duel.Continues (fun _ => True) { left with step := .mainReady }) :=
      yields_beginTurns (fun _ _ => trivial) opened.1
    exact Yields.mono begins (fun _ _ => Duel.Concludes.proper) fun _ goesOn => goesOn.1

theorem proper_of_follows {action : Play α} (follows : Follows Shift action)
    (ongoing : duel.Ongoing) : (discard action).Yields duel (fun _ => Duel.Proper) Duel.Ongoing := by
  rw [yields_discard]
  exact Yields.mono (follows duel)
    (fun _ _ shifts => .inl (ongoing.of_control (Shift.controls shifts)))
    fun _ shifts => ongoing.of_control (Shift.controls shifts)

theorem proper_play {call : Call} (ongoing : duel.Ongoing) :
    (call.play allowance).Yields duel (fun _ => Duel.Proper) Duel.Ongoing := by
  have turns : ∀ step : Step, step.isTurn = true → True := fun _ _ => trivial
  cases call with
  | start => exact proper_start ongoing
  | take player action =>
      by_cases plays : action = .concede
      · change (take allowance player action).Yields duel _ _
        unfold Yields
        rw [plays, take_concede ongoing]
        have recorded : (record player .concede duel).Tenable :=
          ⟨ongoing.1.unconceded, ongoing.1.offered⟩
        exact .inr recorded.closed_concede
      · exact Yields.mono (concludes_take turns plays ongoing) (fun _ _ => Duel.Concludes.proper)
          fun _ => And.left
  | advance =>
      exact yields_discard.mpr (Yields.mono (concludes_advance turns ongoing)
        (fun _ _ => Duel.Concludes.proper) fun _ => And.left)
  | advanceTo target =>
      exact Yields.mono (concludes_advanceWhile turns ongoing) (fun _ _ => Duel.Concludes.proper)
        fun _ => And.left
  | give player code => exact proper_of_follows follows_give ongoing
  | setMana player total => exact .inl (ongoing.of_control (control_updatePlayer _ _ fun _ => rfl))

/-! ## Nothing can be done in a match that is over -/

theorem start_of_isOver (finished : duel.isOver = true) :
    start allowance duel = .error (.violation .alreadyStarted) duel := by
  have begun : duel.step ≠ .unstarted := by
    rw [show duel.step = .finalGameOver from of_decide_eq_true finished]
    decide
  change (if duel.step ≠ .unstarted then _ else _ : Play Unit) duel = _
  rw [if_pos begun]
  rfl

theorem take_of_isOver {action : Action} (finished : duel.isOver = true) :
    take allowance player action duel = .error .gameOver duel := by
  rw [take_eq, if_pos finished]

theorem advance_of_isOver (finished : duel.isOver = true) :
    advance allowance duel = .ok false duel := by
  change (if duel.isOver || _ || _ then _ else _ : Play Bool) duel = _
  rw [if_pos (by simp [finished])]
  rfl

theorem advanceTo_of_isOver {target : Step} (finished : duel.isOver = true) :
    advanceTo allowance target duel = .ok () duel := by
  have rests : (advanceTo allowance target).Yields duel (fun _ left => left = duel)
      fun _ => False := by
    unfold advanceTo
    rw [yields_bind, yields_get]
    exact rests_advanceWhile duel finished
  obtain ⟨_, left, ran, rfl⟩ := rests.exists_ok
  exact ran

theorem resolve_of_isOver {resolution : Resolution} (finished : duel.isOver = true) :
    resolve resolution duel = .ok .complete duel := by
  unfold resolve resolveWithin
  change (if duel.isOver then _ else _ : Play Outcome) duel = _
  rw [if_pos finished]
  rfl

end Play

namespace Duel

variable {duel after : Duel} {allowance : Nat}

theorem Closed.isOver (closed : duel.Closed) : duel.isOver = true :=
  closed.finished.isOver

theorem Closed.of_control (closed : duel.Closed) (same : after.control = duel.control)
    (agenda : after.agenda = duel.agenda) : after.Closed where
  finished := ⟨(docket_eq same).trans closed.finished.1, agenda.trans closed.finished.2⟩
  decided := by
    have standing (player : Player) : (after.player player).standing =
        (duel.player player).standing := congrFun (congrArg Control.standing same) player
    unfold standings
    rw [standing, standing]
    exact closed.decided

/-- A match that has ended stays so, whatever is done to it. -/
theorem Closed.play (closed : duel.Closed) (deed : Deed) :
    ((deed.play allowance).left duel).Closed := by
  have finished := closed.isOver
  have unchanged {action : Play Unit} {ended : EStateM.Result Fault Duel Unit}
      (ran : action duel = ended) (same : ended = .ok () duel ∨ ∃ fault, ended = .error fault duel) :
      (action.left duel).Closed := by
    unfold Play.left
    rw [ran]
    rcases same with rfl | ⟨fault, rfl⟩ <;> exact closed
  cases deed with
  | call asked =>
      cases asked with
      | start => exact unchanged (Play.start_of_isOver finished) (.inr ⟨_, rfl⟩)
      | take player action => exact unchanged (Play.take_of_isOver finished) (.inr ⟨_, rfl⟩)
      | advance =>
          have rests : discard (Play.advance allowance) duel = .ok () duel := by
            change EStateM.map _ (Play.advance allowance) duel = _
            unfold EStateM.map
            rw [Play.advance_of_isOver finished]
          exact unchanged rests (.inl rfl)
      | advanceTo target => exact unchanged (Play.advanceTo_of_isOver finished) (.inl rfl)
      | give player code =>
          have gives : Play.Follows Quiet (discard (Play.give player code)) :=
            Play.follows_give.discard
          have quiets := (gives duel).reaches
          exact closed.of_control (Shift.controls (Quiet.shifts quiets)) (Quiet.agenda quiets)
      | setMana player total =>
          exact closed.of_control (control_updatePlayer duel player fun _ => rfl) rfl
  | run resolution =>
      have rests : discard (Play.resolve resolution) duel = .ok () duel := by
        change EStateM.map _ (Play.resolve resolution) duel = _
        unfold EStateM.map
        rw [Play.resolve_of_isOver finished]
      exact unchanged rests (.inl rfl)
  | auras => exact closed.of_control rfl rfl

theorem Proper.play (proper : duel.Proper) (deed : Deed) :
    ((deed.play allowance).left duel).Proper := by
  rcases proper with ongoing | closed
  · have ran : (deed.play allowance).Yields duel (fun _ => Proper) Ongoing := by
      cases deed with
      | call asked => exact Play.proper_play ongoing
      | run resolution =>
          have runs : Play.Continues (fun _ => True) duel (discard (Play.resolve resolution)) :=
            Play.continues_resolve ongoing
          exact Play.Yields.mono runs (fun _ _ goesOn => .inl goesOn.1) fun _ goesOn => goesOn.1
      | auras => exact .inl (ongoing.of_control rfl)
    exact Play.Yields.left (Play.Yields.mono ran (fun _ _ proper => proper) fun _ => .inl)
  · exact .inr (closed.play deed)

theorem ongoing_of_created {settings : Settings} {catalogue : Catalogue}
    (created : Duel.create settings catalogue = .ok duel) : duel.Ongoing := by
  obtain ⟨bare, begun, quiets⟩ := create_quiet created
  obtain ⟨first, dice, zero, one, rfl⟩ := bare_eq begun
  refine Ongoing.of_control ⟨⟨fun player => ?_, fun player options pending => ?_⟩, rfl⟩
    (Shift.controls (Quiet.shifts quiets))
  · cases player <;> exact nofun
  · change (PerPlayer.const none).get player = _ at pending
    rw [PerPlayer.get_const] at pending
    cases pending

/-- Whatever is done to a match, it goes on or it is over and decided. -/
theorem proper_afterDeeds {settings : Settings} {catalogue : Catalogue}
    (created : Duel.create settings catalogue = .ok duel) (allowance : Nat) (deeds : List Deed) :
    (duel.afterDeeds allowance deeds).Proper := by
  have proper : duel.Proper := .inl (ongoing_of_created created)
  clear created
  induction deeds generalizing duel with
  | nil => exact proper
  | cons deed deeds ih => exact ih (proper.play deed)

theorem Closed.verdict (closed : duel.Closed) :
    (∀ player, duel.verdict? = some (.winner player) ↔ (duel.player player).standing = .won) ∧
      (duel.verdict? = some .draw ↔ ∀ player, (duel.player player).standing ≠ .won) := by
  have players (holds : Player → Prop) : (∀ player, holds player) ↔ holds .zero ∧ holds .one :=
    ⟨fun all => ⟨all .zero, all .one⟩, fun both player => by cases player <;> simp [both]⟩
  have decided := closed.decided
  unfold verdict?
  rw [if_pos closed.isOver, players, players]
  simp only [finalStandings, standings, List.mem_cons, List.not_mem_nil, or_false,
    Prod.mk.injEq] at decided
  rcases decided with ⟨zero, one⟩ | ⟨zero, one⟩ | ⟨zero, one⟩ | ⟨zero, one⟩ | ⟨zero, one⟩ <;>
    simp [Player.both, zero, one]

/-- A match that is over, however it came to that: nothing is awaited, put aside or scheduled, no
action is legal, the match is decided and judged accordingly.  Starting it, acting in it, advancing
it and running effects in it leaves it as it is. -/
theorem closed_of_isOver {settings : Settings} {catalogue : Catalogue} {deeds : List Deed}
    (created : Duel.create settings catalogue = .ok duel)
    (did : duel.afterDeeds allowance deeds = after) (finished : after.isOver = true) :
    ((∀ player, after.choice? player = none) ∧ after.suspended = none ∧
      after.agenda = Agenda.empty ∧ ∀ player, after.legalActions player = []) ∧
    (after.standings ∈ finalStandings ∧
      (∀ player, after.verdict? = some (.winner player) ↔
        (after.player player).standing = .won) ∧
      (after.verdict? = some .draw ↔ ∀ player, (after.player player).standing ≠ .won)) ∧
    ∀ later, Play.start later after = .error (.violation .alreadyStarted) after ∧
      (∀ player action, Play.take later player action after = .error .gameOver after) ∧
      Play.advance later after = .ok false after ∧
      (∀ target, Play.advanceTo later target after = .ok () after) ∧
      ∀ resolution, Play.resolve resolution after = .ok .complete after := by
  have closed : after.Closed := by
    refine Or.resolve_left ?_ fun ongoing : after.Ongoing => ?_
    · exact did ▸ proper_afterDeeds created allowance deeds
    · exact Bool.noConfusion (ongoing.isOver.symm.trans finished)
  refine ⟨⟨fun player => ?_, ?_, closed.finished.2, fun player => ?_⟩,
    ⟨closed.decided, closed.verdict⟩, fun later => ⟨Play.start_of_isOver finished,
      fun player action => Play.take_of_isOver finished, Play.advance_of_isOver finished,
      fun target => Play.advanceTo_of_isOver finished,
      fun resolution => Play.resolve_of_isOver finished⟩⟩
  · have choices : after.choices = PerPlayer.const none := congrArg Docket.choices closed.finished.1
    unfold choice?
    rw [choices, PerPlayer.get_const]
  · exact congrArg Docket.suspended closed.finished.1
  · unfold legalActions
    rw [if_pos finished]

/-- Two mages, one of whom gives up in the first turn. -/
theorem closed_of_isOver_mages :
    ∃ duel after, Duel.create Settings.mages Catalogue.mages = .ok duel ∧
      duel.afterDeeds 100 [.call .start, .call (.take .zero .concede)] = after ∧
        after.isOver = true ∧
          ((∀ player, after.choice? player = none) ∧ after.suspended = none ∧
            after.agenda = Agenda.empty ∧ ∀ player, after.legalActions player = []) ∧
          (after.standings ∈ finalStandings ∧
            (∀ player, after.verdict? = some (.winner player) ↔
              (after.player player).standing = .won) ∧
            (after.verdict? = some .draw ↔ ∀ player, (after.player player).standing ≠ .won)) ∧
          ∀ later, Play.start later after = .error (.violation .alreadyStarted) after ∧
            (∀ player action, Play.take later player action after = .error .gameOver after) ∧
            Play.advance later after = .ok false after ∧
            (∀ target, Play.advanceTo later target after = .ok () after) ∧
            ∀ resolution, Play.resolve resolution after = .ok .complete after := by
  obtain ⟨duel, after, created, runs, finished⟩ := exists_of_outcome Settings.mages Catalogue.mages 100
    [.start, .take .zero .concede] Duel.isOver (by decide +kernel)
  have did : duel.afterDeeds 100 [.call .start, .call (.take .zero .concede)] = after :=
    afterDeeds_of_runs runs
  exact ⟨duel, after, created, did, finished, closed_of_isOver created did finished⟩

end Duel

end CardDuel
