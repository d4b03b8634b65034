import CardDuel.Proofs.Liveness

/-!
# How matches end

A match ends when a hero is found dead or when a player gives up, in the middle of whatever is
going on.  Until then nobody has given up and every discovery has something to offer.
Afterwards nothing is left to do, and nothing can be done any more.
-/

namespace CardDuel

open Relation

namespace Step

/-- Whether a match in the step has ended or is about to. -/
def isFinal : Step → Bool
  | finalWrapup | finalGameOver => true
  | _ => false

theorem isFinal_of_isTurn {step : Step} (turn : step.isTurn = true) : step.isFinal = false := by
  revert turn
  cases step <;> decide

theorem isFinal_next {step : Step} (running : step.isFinal = false) :
    step.next.isFinal = false := by
  revert running
  cases step <;> decide

theorem isTurn_of_past {step : Step} (begun : step ≠ .unstarted) (past : step.isOpening = false)
    (running : step.isFinal = false) : step.isTurn = true := by
  revert begun past running
  cases step <;> decide

end Step

namespace Duel

/-! ## Matches that go on -/

/-- Nobody has given up, and every discovery has something to offer. -/
structure Tenable (duel : Duel) : Prop where
  unconceded : ∀ player, (duel.player player).standing ≠ .conceded
  offered : ∀ player options, duel.choice? player = some ⟨.discover, options⟩ → options ≠ []

/-- A match that has not ended. -/
def Ongoing (duel : Duel) : Prop :=
  duel.Tenable ∧ duel.step.isFinal = false

/-- The match has not ended after all, and if it is in another step then in one that is entered. -/
def Continues (enters : Step → Prop) (before after : Duel) : Prop :=
  after.Ongoing ∧ (after.step = before.step ∨ enters after.step)

/-- The match goes on, or it went on until heroes were dead and then was ended. -/
inductive Concludes (enters : Step → Prop) (before : Duel) : Duel → Prop
  | continues {after : Duel} (continues : before.Continues enters after) :
      Concludes enters before after
  | ends {last : Duel} (continues : before.Continues enters last) (dead : last.defeated ≠ []) :
      Concludes enters before (last.finish last.defeated).updateAuras

variable {enters : Step → Prop} {before middle after duel : Duel} {player : Player}

theorem Ongoing.isOver (ongoing : duel.Ongoing) : duel.isOver = false := by
  have running := ongoing.2
  unfold Duel.isOver
  cases at' : duel.step <;> simp_all [Step.isFinal]

theorem Tenable.of_control (tenable : before.Tenable) (same : after.control = before.control) :
    after.Tenable where
  unconceded player := by
    rw [show (after.player player).standing = (before.player player).standing from
      congrFun (congrArg Control.standing same) player]
    exact tenable.unconceded player
  offered player options pending := by
    have choices : after.choices = before.choices := congrArg Control.choices same
    unfold choice? at pending
    rw [choices] at pending
    exact tenable.offered player options pending

theorem Ongoing.of_control (ongoing : before.Ongoing) (same : after.control = before.control) :
    after.Ongoing := by
  refine ⟨ongoing.1.of_control same, ?_⟩
  rw [show after.step = before.step from congrArg Control.step same]
  exact ongoing.2

theorem Tenable.setChoice (tenable : duel.Tenable) {choice : Option Choice}
    (offers : ∀ options, choice = some ⟨.discover, options⟩ → options ≠ []) :
    (duel.setChoice player choice).Tenable where
  unconceded := tenable.unconceded
  offered other options pending := by
    change (duel.choices.set player choice).get other = _ at pending
    rw [PerPlayer.get_set] at pending
    split at pending
    · exact offers options pending
    · exact tenable.offered other options pending

theorem Ongoing.continues (ongoing : duel.Ongoing) : duel.Continues enters duel :=
  ⟨ongoing, .inl rfl⟩

theorem Continues.of_control (ongoing : before.Ongoing) (same : after.control = before.control) :
    before.Continues enters after :=
  ⟨ongoing.of_control same, .inl (congrArg Control.step same)⟩

theorem Continues.of_shifts (ongoing : before.Ongoing)
    (shifts : ReflTransGen Shift before after) : before.Continues enters after :=
  .of_control ongoing (Shift.controls shifts)

theorem Continues.of_ran (ongoing : before.Ongoing) (ran : Ran player before after) :
    before.Continues enters after := by
  cases ran with
  | ended shifts => exact .of_shifts ongoing shifts
  | waits options shifts offered own =>
      rename_i table rest
      have there : before.Continues enters table := .of_shifts ongoing shifts
      have chosen : (table.setChoice player (some ⟨.discover, options⟩)).Tenable :=
        there.1.1.setChoice fun others same => by
          cases same
          exact offered
      exact ⟨⟨⟨chosen.unconceded, chosen.offered⟩, there.1.2⟩, there.2⟩

theorem Continues.trans (first : before.Continues enters middle)
    (second : middle.Continues enters after) : before.Continues enters after := by
  refine ⟨second.1, second.2.elim (fun same => ?_) .inr⟩
  rw [same]
  exact first.2

theorem Continues.mono {others : Step → Prop} (continues : before.Continues enters after)
    (widen : ∀ step, enters step → others step) : before.Continues others after :=
  ⟨continues.1, continues.2.imp_right (widen _)⟩

theorem Concludes.trans (first : before.Continues enters middle)
    (concludes : middle.Concludes enters after) : before.Concludes enters after := by
  cases concludes with
  | continues second => exact .continues (first.trans second)
  | ends second dead => exact .ends (first.trans second) dead

/-! ## Matches that have ended -/

/-- How the two players of a match that has ended stand. -/
def finalStandings : List (Standing × Standing) :=
  [(.won, .lost), (.lost, .won), (.tied, .tied), (.conceded, .won), (.won, .conceded)]

def standings (duel : Duel) : Standing × Standing :=
  ((duel.player .zero).standing, (duel.player .one).standing)

/-- A match that has ended: nothing is left to do, and it is decided. -/
structure Closed (duel : Duel) : Prop where
  finished : duel.Finished
  decided : duel.standings ∈ finalStandings

theorem standing_finish (losers : List Player) :
    ((duel.finish losers).player player).standing =
      finalStanding losers player (duel.player player).standing := by
  cases player <;> rfl

/-- The fallen heroes decide the match. -/
theorem Tenable.closed (tenable : duel.Tenable) (dead : duel.defeated ≠ []) :
    (duel.finish duel.defeated).updateAuras.Closed where
  finished := finished_finish duel duel.defeated
  decided := by
    change (finalStanding duel.defeated .zero (duel.player .zero).standing,
      finalStanding duel.defeated .one (duel.player .one).standing) ∈ finalStandings
    have zero := tenable.unconceded .zero
    have one := tenable.unconceded .one
    have cases' : duel.defeated = [] ∨ duel.defeated = [.zero] ∨ duel.defeated = [.one] ∨
        duel.defeated = [.zero, .one] := by
      unfold defeated
      rw [Player.both, List.filter_cons, List.filter_cons, List.filter_nil]
      cases duel.isDead (duel.hero .zero) <;> cases duel.isDead (duel.hero .one) <;> simp
    rcases cases' with none' | lost | lost | lost
    · exact absurd none' dead
    all_goals
      rw [lost]
      simp [finalStanding, zero, one, finalStandings]

/-- Giving up decides the match. -/
theorem Tenable.closed_concede (tenable : duel.Tenable) : (duel.concede player).Closed where
  finished := finished_finish _ [player]
  decided := by
    have other := tenable.unconceded player.opponent
    unfold standings
    cases player with
    | zero =>
        change (Standing.conceded, finalStanding [.zero] .one (duel.player .one).standing) ∈ _
        have other : (duel.player .one).standing ≠ .conceded := other
        simp [finalStanding, other, finalStandings]
    | one =>
        change (finalStanding [.one] .zero (duel.player .zero).standing, Standing.conceded) ∈ _
        have other : (duel.player .zero).standing ≠ .conceded := other
        simp [finalStanding, other, finalStandings]

/-- Heroes that fall leave nobody having given up. -/
theorem Tenable.finish (tenable : duel.Tenable) (losers : List Player) :
    (duel.finish losers).updateAuras.Tenable where
  unconceded player := by
    change ((duel.finish losers).player player).standing ≠ .conceded
    rw [standing_finish]
    unfold finalStanding
    rw [if_neg (tenable.unconceded player)]
    split
    · split <;> decide
    · decide
  offered player options pending := by
    change (PerPlayer.const none).get player = _ at pending
    rw [PerPlayer.get_const] at pending
    cases pending

/-- A match that goes on or is over. -/
def Proper (duel : Duel) : Prop :=
  duel.Ongoing ∨ duel.Closed

theorem Concludes.tenable (concludes : before.Concludes enters after) : after.Tenable := by
  cases concludes with
  | continues goesOn => exact goesOn.1.1
  | ends goesOn dead => exact goesOn.1.1.finish _

theorem Concludes.proper (concludes : before.Concludes enters after) : after.Proper := by
  cases concludes with
  | continues goesOn => exact .inl goesOn.1
  | ends goesOn dead => exact .inr (goesOn.1.1.closed dead)

end Duel

namespace Play

open Duel

variable {α β : Type} {action : Play α} {next : α → Play β}
variable {enters : Step → Prop} {duel middle : Duel} {allowance : Nat} {player : Player}

/-! ## Plays of a match that goes on -/

/-- The match goes on through the play, whether or not it fails. -/
def Continues (enters : Step → Prop) (duel : Duel) (action : Play α) : Prop :=
  action.Yields duel (fun _ => duel.Continues enters) (duel.Continues enters)

/-- The match goes on through the play, unless the play succeeds and fallen heroes end it. -/
def Concludes (enters : Step → Prop) (duel : Duel) (action : Play α) : Prop :=
  action.Yields duel (fun _ => duel.Concludes enters) (duel.Continues enters)

/-- The play does nothing in a match that is over. -/
def Rests (action : Play α) : Prop :=
  ∀ duel, duel.isOver = true → action.Yields duel (fun _ left => left = duel) fun _ => False

theorem Follows.continues (follows : Follows Shift action) (ongoing : duel.Ongoing) :
    Continues enters duel action :=
  Yields.mono (follows duel) (fun _ _ shifts => .of_shifts ongoing shifts)
    fun _ shifts => .of_shifts ongoing shifts

theorem Continues.after (first : duel.Continues enters middle)
    (continues : Continues enters middle action) :
    action.Yields middle (fun _ => duel.Continues enters) (duel.Continues enters) :=
  Yields.mono continues (fun _ _ second => first.trans second) fun _ second => first.trans second

theorem Concludes.after (first : duel.Continues enters middle)
    (concludes : Concludes enters middle action) :
    action.Yields middle (fun _ => duel.Concludes enters) (duel.Continues enters) :=
  Yields.mono concludes (fun _ _ second => second.trans first) fun _ second => first.trans second

theorem Continues.bind (first : Continues enters duel action)
    (second : ∀ value left, left.Ongoing → Continues enters left (next value)) :
    Continues enters duel (action >>= next) := by
  unfold Continues
  rw [yields_bind]
  exact Yields.mono first (fun value left goesOn => Continues.after goesOn (second value left goesOn.1))
    fun _ goesOn => goesOn

/-- What comes after a play that ends nothing may end the match. -/
theorem Continues.thenConcludes (first : Continues enters duel action)
    (second : ∀ value left, duel.Continues enters left → Concludes enters left (next value)) :
    Concludes enters duel (action >>= next) := by
  unfold Concludes
  rw [yields_bind]
  exact Yields.mono first (fun value left goesOn => Concludes.after goesOn (second value left goesOn))
    fun _ goesOn => goesOn

/-- What comes after a play that may end the match has to rest then. -/
theorem Concludes.bind (first : Concludes enters duel action)
    (second : ∀ value left, duel.Continues enters left → Concludes enters left (next value))
    (rests : ∀ value, Rests (next value)) : Concludes enters duel (action >>= next) := by
  unfold Concludes
  rw [yields_bind]
  refine Yields.mono first (fun value left concludes => ?_) fun _ goesOn => goesOn
  cases concludes with
  | continues goesOn => exact Concludes.after goesOn (second value left goesOn)
  | ends goesOn dead =>
      refine Yields.mono (rests value _ rfl) (fun _ last same => ?_) fun _ => False.elim
      rw [same]
      exact .ends goesOn dead

theorem continues_get_bind {next : Duel → Play β} (rest : Continues enters duel (next duel)) :
    Continues enters duel (get >>= next) :=
  rest

theorem continues_modify_bind {change : Duel → Duel} {next : PUnit → Play β}
    (changed : duel.Continues enters (change duel))
    (rest : Continues enters (change duel) (next ())) :
    Continues enters duel (modify change >>= next) :=
  yields_bind.mpr (Continues.after changed rest)

theorem concludes_modify_bind {change : Duel → Duel} {next : PUnit → Play β}
    (changed : duel.Continues enters (change duel))
    (rest : Concludes enters (change duel) (next ())) :
    Concludes enters duel (modify change >>= next) :=
  yields_bind.mpr (Concludes.after changed rest)

theorem rests_pure {value : α} : Rests (pure value : Play α) :=
  fun _ _ => rfl

theorem Rests.bind (first : Rests action) (second : ∀ value, Rests (next value)) :
    Rests (action >>= next) := by
  intro duel finished
  rw [yields_bind]
  refine Yields.mono (first duel finished) (fun value left same => ?_) fun _ => id
  rw [same]
  exact second value duel finished

/-! ## Settling -/

theorem continues_resolve {resolution : Resolution} (ongoing : duel.Ongoing) :
    Continues enters duel (discard (resolve resolution)) := by
  unfold Continues
  rw [yields_discard]
  exact Yields.mono (yields_resolve resolution duel) (fun _ _ ran => .of_ran ongoing ran)
    fun _ shifts => .of_shifts ongoing shifts

theorem continues_fireTrigger {trigger : TriggerId} {event : Event} (ongoing : duel.Ongoing) :
    Continues enters duel (fireTrigger trigger event) := by
  unfold fireTrigger
  apply continues_get_bind
  split
  · exact ongoing.continues
  next live found =>
    have shows (duel : Duel) (ongoing : duel.Ongoing) : Continues enters duel (do
        if live.rule.zone = .secret then send live.owner .graveyard
        discard (resolve (Resolution.ofEffects live.rule.effects
          ⟨live.controller, live.owner, event.target, some event⟩))) := by
      dsimp only
      split
      · exact (follows_send.continues ongoing).bind fun _ left => continues_resolve
      · exact continues_resolve ongoing
    dsimp only at shows ⊢
    split
    · have struck : ({ duel with triggers := duel.triggers.unregister trigger } : Duel).Ongoing :=
        ongoing.of_control rfl
      exact continues_modify_bind ⟨struck, .inl rfl⟩ (shows _ struck)
    · exact shows duel ongoing

theorem continues_doWork {work : Work} (ongoing : duel.Ongoing) :
    Continues enters duel (doWork work) := by
  cases work with
  | run resolution => exact continues_resolve ongoing
  | trigger trigger event => exact continues_fireTrigger ongoing
  | announce event => exact follows_announcing.continues ongoing
  | bury spell =>
      refine (follows_lookup.continues ongoing).bind fun entity left going => ?_
      split
      · exact follows_send.continues going
      · exact going.continues

theorem yields_processDeaths (ongoing : duel.Ongoing) :
    processDeaths.Yields duel
      (fun _ left => duel.Continues enters left ∨
        ∃ last, duel.Continues enters last ∧ last.defeated ≠ [] ∧ left = last.finish last.defeated)
      (duel.Continues enters) := by
  unfold processDeaths
  rw [yields_bind, yields_get]
  split
  · exact .inl ongoing.continues
  let marked := duel.markFallen duel.deadMinions
  change Yields (do
    (duel.deadMinions.map Prod.fst ++ duel.deadWeapons).forM bury
    modify fun duel => if duel.defeated.isEmpty then duel else duel.finish duel.defeated)
    marked _ _
  have going : marked.Ongoing := ongoing.of_control rfl
  have buries : Continues enters marked
      ((duel.deadMinions.map Prod.fst ++ duel.deadWeapons).forM bury) :=
    (follows_forM (fun _ => follows_bury) _).continues going
  rw [yields_bind]
  refine Yields.mono buries (fun _ last goesOn => ?_) fun _ goesOn => goesOn
  rw [yields_modify]
  split
  · exact .inl goesOn
  next dead => exact .inr ⟨last, goesOn, by simpa using dead, rfl⟩

/-- Settling ends the match, if heroes have fallen, and does nothing more then. -/
theorem concludes_settle (ongoing : duel.Ongoing) :
    Concludes enters duel (settle allowance) := by
  induction allowance generalizing duel with
  | zero => exact ongoing.continues
  | succ allowance ih =>
      unfold settle Concludes
      rw [yields_bind]
      refine Yields.mono (yields_processDeaths ongoing) (fun _ buried ending => ?_)
        fun _ goesOn => goesOn
      rcases ending with goesOn | ⟨last, goesOn, dead, rfl⟩
      · have tidied : duel.Continues enters buried.updateAuras :=
          goesOn.trans (.of_control goesOn.1 rfl)
        rw [yields_bind, yields_modify]
        refine Concludes.after tidied ?_
        unfold Concludes
        rw [yields_bind, yields_get]
        split
        · exact .continues tidied.1.continues
        split
        · exact .continues tidied.1.continues
        next work rest next =>
          have begun : Duel.Ongoing { buried.updateAuras with agenda := rest } :=
            tidied.1.of_control rfl
          have works : Continues enters { buried.updateAuras with agenda := rest }
              (onFault (doWork work) Duel.clearAgenda) := by
            unfold Continues
            rw [yields_onFault]
            exact Yields.mono (continues_doWork begun) (fun _ _ goesOn => goesOn)
              fun left goesOn => goesOn.trans (.of_control goesOn.1 rfl)
          rw [yields_bind, yields_set]
          exact Concludes.after ⟨begun, .inl rfl⟩
            (works.thenConcludes fun _ left goesOn => ih goesOn.1)
      · rw [yields_bind, yields_modify, yields_bind, yields_get]
        exact .ends goesOn dead

/-! ## Steps -/

theorem continues_forM {γ : Type} {action : γ → Play PUnit}
    (each : ∀ value duel, duel.Ongoing → Continues enters duel (action value)) (values : List γ)
    (ongoing : duel.Ongoing) : Continues enters duel (values.forM action) := by
  induction values generalizing duel with
  | nil => exact ongoing.continues
  | cons value values ih => exact (each value duel ongoing).bind fun _ left => ih

theorem continues_offerMulligan (ongoing : duel.Ongoing) :
    Continues enters duel offerMulligan := by
  have offers (coin : Option CardId) (duel : Duel) (ongoing : duel.Ongoing) :
      Continues enters duel (Player.both.forM fun player => modify fun duel : Duel =>
        duel.setChoice player (some ⟨.mulligan, duel.replaceable player coin⟩)) := by
    refine continues_forM (fun player duel ongoing => ?_) _ ongoing
    exact ⟨⟨ongoing.1.setChoice fun _ => nofun, ongoing.2⟩, .inl rfl⟩
  unfold offerMulligan
  change Continues enters duel (if duel.settings.skipMulligan then _ else _)
  split
  · exact ongoing.continues
  split
  · exact offers none duel ongoing
  · have looks (code : String) : Follows Shift (some <$> lookupCode code) := follows_lookupCode.map
    exact ((looks _).continues ongoing).bind fun coin left => offers coin left

theorem continues_stepWork {step : Step} (ongoing : duel.Ongoing) :
    Continues enters duel (stepWork player step) := by
  have redirected {other : Duel} (choices : other.choices = duel.choices)
      (players : other.players = duel.players) (step : other.step = duel.step) :
      duel.Continues enters other := by
    have tenable : other.Tenable := by
      constructor
      · unfold Duel.player
        rw [players]
        exact ongoing.1.unconceded
      · unfold Duel.choice?
        rw [choices]
        exact ongoing.1.offered
    refine ⟨⟨tenable, ?_⟩, .inl step⟩
    rw [step]
    exact ongoing.2
  by_cases table : step.isOfTable = true
  · exact (follows_stepWork_of_table table).continues ongoing
  cases step with
  | beginFirst => exact redirected rfl rfl rfl
  | beginMulligan => exact continues_offerMulligan ongoing
  | mainReady =>
      have counted : duel.Continues enters { duel with turn := duel.turn + 1 } :=
        redirected rfl rfl rfl
      exact continues_modify_bind counted (follows_readying.continues counted.1)
  | mainNext => exact redirected rfl rfl rfl
  | _ => exact absurd rfl table

/-- Entering a step begins with the step itself, whatever the match has come to. -/
theorem yields_enter {target : Step} (tenable : duel.Tenable) (running : target.isFinal = false) :
    (enter allowance target).Yields duel
      (fun _ => Duel.Concludes enters { duel with step := target })
      (Duel.Continues enters { duel with step := target }) := by
  have entered : Duel.Ongoing { duel with step := target } :=
    ⟨⟨tenable.unconceded, tenable.offered⟩, running⟩
  exact (continues_stepWork entered).thenConcludes fun _ left goesOn => concludes_settle goesOn.1

theorem concludes_enter {target : Step} (ongoing : duel.Ongoing)
    (running : target.isFinal = false) (allowed : enters target) :
    Concludes enters duel (enter allowance target) := by
  have entered : duel.Continues enters { duel with step := target } :=
    ⟨⟨⟨ongoing.1.unconceded, ongoing.1.offered⟩, running⟩, .inr allowed⟩
  exact Yields.mono (yields_enter ongoing.1 running)
    (fun _ _ concludes => concludes.trans entered) fun _ goesOn => entered.trans goesOn

theorem rests_advance : Rests (advance allowance) := by
  intro duel finished
  unfold advance
  rw [yields_bind, yields_get, if_pos (by simp [finished])]
  rfl

theorem rests_advanceWhile {goal : Step → Bool} {count : Nat} :
    Rests (advanceWhile allowance goal count) := by
  induction count with
  | zero => exact rests_pure
  | succ count ih =>
      intro duel finished
      unfold advanceWhile
      rw [yields_bind, yields_get]
      split
      · rfl
      refine (rests_advance.bind fun advanced => ?_) duel finished
      split
      · exact ih
      · exact rests_pure

theorem rests_runToDecision : Rests (runToDecision allowance) := by
  intro duel finished
  unfold runToDecision
  rw [yields_bind, yields_get]
  exact rests_advanceWhile duel finished

section Turns

variable (turns : ∀ step : Step, step.isTurn = true → enters step)

include turns

theorem concludes_advance (ongoing : duel.Ongoing) :
    Concludes enters duel (advance allowance) := by
  unfold advance
  unfold Concludes
  rw [yields_bind, yields_get]
  split
  · exact .continues ongoing.continues
  split
  · exact ongoing.continues
  next past =>
    have further : duel.step ≠ .unstarted ∧ duel.step.isOpening = false := by simpa using past
    have turn : duel.step.next.isTurn = true :=
      Step.isTurn_next (Step.isTurn_of_past further.1 further.2 ongoing.2)
    exact (concludes_enter ongoing (Step.isFinal_of_isTurn turn) (turns _ turn)).bind
      (fun _ left goesOn => .continues goesOn.1.continues) fun _ => rests_pure

theorem concludes_advanceWhile {goal : Step → Bool} {count : Nat} (ongoing : duel.Ongoing) :
    Concludes enters duel (advanceWhile allowance goal count) := by
  induction count generalizing duel with
  | zero => exact .continues ongoing.continues
  | succ count ih =>
      unfold advanceWhile
      change Concludes enters duel (if goal duel.step then _ else _)
      split
      · exact .continues ongoing.continues
      refine (concludes_advance turns ongoing).bind (fun advanced left goesOn => ?_)
        fun advanced => ?_
      · split
        · exact ih goesOn.1
        · exact .continues goesOn.1.continues
      · split
        · exact rests_advanceWhile
        · exact rests_pure

theorem concludes_runToDecision (ongoing : duel.Ongoing) :
    Concludes enters duel (runToDecision allowance) :=
  concludes_advanceWhile turns ongoing

/-- Running on, if the settings say so, after what may have ended the match. -/
theorem Concludes.runsOn {action : Play Unit} {condition : Duel → Bool}
    (first : Concludes enters duel action) :
    Concludes enters duel (do
      action
      let left ← get
      if condition left then
        runToDecision allowance) := by
  refine first.bind (fun _ left goesOn => ?_) fun _ left finished => ?_
  · change Concludes enters left (if condition left then _ else _)
    split
    · exact concludes_runToDecision turns goesOn.1
    · exact .continues goesOn.1.continues
  · rw [yields_bind, yields_get]
    split
    · exact rests_runToDecision left finished
    · rfl

/-- The first turn begins with its first step, whatever the match has come to. -/
theorem yields_beginTurns (tenable : duel.Tenable) :
    (beginTurns allowance).Yields duel
      (fun _ => Duel.Concludes enters { duel with step := .mainReady })
      (Duel.Continues enters { duel with step := .mainReady }) := by
  unfold beginTurns
  rw [yields_bind]
  refine Yields.mono (yields_enter tenable rfl) (fun _ left concludes => ?_) fun _ goesOn => goesOn
  rw [yields_bind, yields_get]
  cases concludes with
  | continues goesOn =>
      split
      · exact Concludes.after goesOn (concludes_runToDecision turns goesOn.1)
      · exact .continues goesOn
  | ends goesOn dead =>
      split
      · refine Yields.mono (rests_runToDecision _ rfl) (fun _ last same => ?_) fun _ => False.elim
        rw [same]
        exact .ends goesOn dead
      · exact .ends goesOn dead

theorem concludes_beginTurns (ongoing : duel.Ongoing) :
    Concludes enters duel (beginTurns allowance) := by
  have entered : duel.Continues enters { duel with step := .mainReady } :=
    ⟨⟨⟨ongoing.1.unconceded, ongoing.1.offered⟩, rfl⟩, .inr (turns .mainReady rfl)⟩
  exact Yields.mono (yields_beginTurns turns ongoing.1)
    (fun _ _ concludes => concludes.trans entered) fun _ goesOn => entered.trans goesOn

end Turns

end Play

end CardDuel
