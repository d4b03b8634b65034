import CardDuel.Proofs.Docket

/-!
# How matches go on

Every call that succeeds keeps a match going or ends it.  A match that goes has a sound
docket, and nothing is left to do unless a list is put aside.  With every action running
on by itself, what goes on stops at a decision or at the end.
-/

namespace CardDuel

open Relation

namespace Step

/-- Whether the step belongs to the cycle of a turn. -/
def isTurn : Step → Bool
  | mainReady | mainStartTriggers | mainResource | mainDraw | mainStart | mainAction
  | mainEndTriggers | mainCleanup | mainNext => true
  | _ => false

theorem isTurn_next {step : Step} (turn : step.isTurn = true) : step.next.isTurn = true := by
  revert turn
  cases step <;> decide

theorem away_of_isTurn {step : Step} (turn : step.isTurn = true) :
    step ≠ .unstarted ∧ step ≠ .beginMulligan ∧ step ≠ .finalGameOver ∧
      step.isOpening = false := by
  revert turn
  cases step <;> decide

/-- Whether the work of the step is done on the table alone. -/
def isOfTable : Step → Bool
  | beginFirst | beginMulligan | mainReady | mainNext => false
  | _ => true

/-- In the cycle of a turn only the action step has nothing ahead of it. -/
theorem distance_ne_zero {step : Step} (turn : step.isTurn = true) (away : step ≠ .mainAction) :
    step.distance ≠ 0 := by
  revert turn away
  cases step <;> decide

end Step

namespace Duel

/-- A match that goes on after the opening draw. -/
structure Running (duel : Duel) (lost : Prop) : Prop where
  sound : duel.docket.Sound lost
  idle : duel.Idle
  underway : duel.step = .beginMulligan ∨ duel.step.isTurn = true

/-- A match that goes on or has ended. -/
def Goes (duel : Duel) (lost : Prop) : Prop :=
  duel.Finished ∨ duel.Running lost

/-- A match that goes on in the cycle of a turn, or has ended. -/
def GoesInTurn (duel : Duel) (lost : Prop) : Prop :=
  duel.Finished ∨ duel.Running lost ∧ duel.step.isTurn = true

/-- A match that waits for a decision or has ended. -/
def Halted (duel : Duel) : Prop :=
  duel.isOver = true ∨ duel.hasChoice = true ∨ duel.step = .mainAction

variable {duel : Duel} {lost : Prop}

theorem hasChoice_iff : duel.hasChoice = true ↔ duel.docket.HasChoice := by
  unfold hasChoice Docket.HasChoice choice? docket
  simp only [List.any_eq_true, Option.isSome_iff_exists]
  exact ⟨fun ⟨player, _, pending⟩ => ⟨player, pending⟩,
    fun ⟨player, pending⟩ => ⟨player, player.mem_both, pending⟩⟩

theorem hasChoice_of_clear {step : Step} (clear : duel.docket = .clear step) :
    duel.hasChoice = false := by
  rw [Bool.eq_false_iff]
  intro some'
  obtain ⟨player, choice, pending⟩ := hasChoice_iff.mp some'
  rw [clear, Docket.clear, PerPlayer.get_const] at pending
  cases pending

theorem Running.isOver (running : duel.Running lost) : duel.isOver = false := by
  unfold Duel.isOver
  rw [decide_eq_false_iff_not]
  rcases running.underway with mulligan | turn
  · rw [mulligan]
    decide
  · exact (Step.away_of_isTurn turn).2.2.1

theorem GoesInTurn.goes (goes : duel.GoesInTurn lost) : duel.Goes lost :=
  goes.imp_right And.left

theorem Finished.halted (finished : duel.Finished) : duel.Halted :=
  .inl finished.isOver

end Duel

namespace Play

open Duel

variable {duel : Duel} {lost : Prop} {allowance : Nat} {player : Player} {step : Step}

/-! ## Steps -/

theorem follows_stepWork_of_table (table : step.isOfTable = true) :
    Follows Shift (stepWork player step) := by
  cases step with
  | beginShuffle =>
      apply follows_get.bind
      intro duel
      split
      · exact follows_forM (fun _ => follows_shuffleDeck) _
      · exact follows_pure
  | beginDraw => exact follows_dealHands
  | mainStartTriggers => exact follows_announce (by nofun)
  | mainResource => exact follows_adjust fun _ => .renew
  | mainDraw => exact follows_drawCard
  | mainEndTriggers => exact follows_announce (by nofun)
  | mainCleanup => exact follows_cleanUpTurn
  | unstarted | mainStart | mainAction | finalWrapup | finalGameOver => exact follows_pure
  | beginFirst | beginMulligan | mainReady | mainNext => cases table

theorem ensures_stepWork (away : step ≠ .beginMulligan) :
    (stepWork player step).Ensures duel fun _ left => left.docket = duel.docket := by
  by_cases table : step.isOfTable = true
  · exact (follows_stepWork_of_table table).docket
  cases step with
  | beginMulligan => exact absurd rfl away
  | mainReady =>
      exact ensures_modify_bind.mpr (Follows.docket follows_readying)
  | beginFirst | mainNext => rfl
  | _ => exact absurd rfl table

/-- Entering a step, other than the mulligan and the end, ends the match or leaves a sound docket
in that step. -/
theorem ensures_enter (away : step ≠ .beginMulligan) (runs : step ≠ .finalGameOver)
    (sound : (duel.docket.entering step).Sound lost) :
    (enter allowance step).Ensures duel fun _ left =>
      left.Finished ∨ left.docket.Sound lost ∧ left.step = step ∧ left.Idle := by
  unfold enter
  rw [ensures_modify_bind, ensures_get_bind]
  apply (ensures_stepWork away).bind
  intro _ left same
  have step' : left.step = step := congrArg Docket.step same
  have soundLeft : left.docket.Sound lost := by
    rw [same]
    exact sound
  have running : left.isOver = false := by
    unfold isOver
    rw [step']
    exact decide_eq_false runs
  apply (ensures_settle soundLeft running).mono
  intro _ last ending
  exact ending.imp_right fun ⟨soundLast, kept, idle⟩ => ⟨soundLast, kept.trans step', idle⟩

/-- Offering the mulligan gives both players that choice, whatever choice they had. -/
theorem ensures_offers (coin : Option CardId) :
    Ensures (Player.both.forM fun player => modify fun duel : Duel =>
        duel.setChoice player (some ⟨.mulligan, duel.replaceable player coin⟩)) duel
      fun _ left => left.suspended = duel.suspended ∧ left.step = duel.step ∧
        ∀ player, ∃ options, left.choice? player = some ⟨.mulligan, options⟩ := by
  refine ⟨rfl, rfl, fun player => ?_⟩
  cases player <;> exact ⟨_, rfl⟩

theorem ensures_offerMulligan :
    offerMulligan.Ensures duel fun _ left =>
      duel.settings.skipMulligan = true ∧ left.docket = duel.docket ∨
        duel.settings.skipMulligan = false ∧ left.suspended = duel.suspended ∧
          left.step = duel.step ∧
            ∀ player, ∃ options, left.choice? player = some ⟨.mulligan, options⟩ := by
  unfold offerMulligan
  rw [ensures_get_bind]
  dsimp only
  split
  next skips => exact .inl ⟨skips, rfl⟩
  next offers =>
    have shown : duel.settings.skipMulligan = false := Bool.eq_false_iff.mpr offers
    split
    · exact (ensures_offers none).mono fun _ left all => .inr ⟨shown, all⟩
    next code _ =>
      have looks : Follows Shift (some <$> lookupCode code) := follows_lookupCode.map
      apply looks.docket.bind
      intro coin known same
      refine (ensures_offers coin).mono fun _ left all => .inr ⟨shown, ?_, ?_, all.2.2⟩
      · exact all.1.trans (congrArg Docket.suspended same)
      · exact all.2.1.trans (congrArg Docket.step same)

/-- Entering the mulligan ends the match or leaves a sound docket in that step; a list that was
put aside is lost when the mulligan is offered. -/
theorem ensures_enterMulligan (sound : (duel.docket.entering .beginMulligan).Sound False) :
    (enter allowance .beginMulligan).Ensures duel fun _ left =>
      left.Finished ∨
        left.docket.Sound (duel.settings.skipMulligan = false ∧ duel.suspended.isSome = true) ∧
          left.step = .beginMulligan ∧ left.Idle := by
  unfold enter
  rw [ensures_modify_bind, ensures_get_bind]
  apply ensures_offerMulligan.bind
  intro _ left offered
  have settled (soundLeft : left.docket.Sound
        (duel.settings.skipMulligan = false ∧ duel.suspended.isSome = true))
      (step : left.step = .beginMulligan) :
      (settle allowance).Ensures left fun _ last => last.Finished ∨
        last.docket.Sound (duel.settings.skipMulligan = false ∧ duel.suspended.isSome = true) ∧
          last.step = .beginMulligan ∧ last.Idle := by
    have running : left.isOver = false := by
      unfold isOver
      rw [step]
      decide
    apply (ensures_settle soundLeft running).mono
    intro _ last ending
    exact ending.imp_right fun ⟨soundLast, kept, idle⟩ => ⟨soundLast, kept.trans step, idle⟩
  rcases offered with ⟨skips, same⟩ | ⟨offers, waiting, step, mulligans⟩
  · refine settled ?_ (congrArg Docket.step same)
    have kept : (duel.settings.skipMulligan = false ∧ duel.suspended.isSome = true) = False :=
      eq_false fun both => Bool.noConfusion (skips.symm.trans both.1)
    rw [kept, same]
    exact sound
  · refine settled ?_ step
    have noDiscovery (player : Player) : ¬ left.docket.Discovers player := by
      rintro ⟨options, pending⟩
      obtain ⟨others, mulligan⟩ := mulligans player
      cases mulligan.symm.trans pending
    constructor
    case linked =>
      intro player
      apply iff_of_false (noDiscovery player)
      rintro ⟨kept, rest, parked, -⟩
      refine kept ⟨offers, ?_⟩
      have before : duel.suspended = some rest := waiting.symm.trans parked
      rw [before]
      rfl
    case parked =>
      rintro ⟨-, parked⟩
      change left.suspended.isSome = true
      rw [waiting]
      exact parked
    case offered =>
      exact fun player options pending => absurd ⟨options, pending⟩ (noDiscovery player)
    case early => exact fun _ _ _ => step

theorem ensures_enterTurn (turn : step.isTurn = true)
    (sound : (duel.docket.entering step).Sound lost) :
    (enter allowance step).Ensures duel fun _ left =>
      left.GoesInTurn lost ∧ (left.isOver = true ∨ left.step = step) := by
  obtain ⟨-, away, runs, -⟩ := Step.away_of_isTurn turn
  apply (ensures_enter away runs sound).mono
  intro _ left ending
  rcases ending with finished | ⟨soundLeft, same, idle⟩
  · exact ⟨.inl finished, .inl finished.isOver⟩
  · have turnLeft : left.step.isTurn = true := by
      rw [same]
      exact turn
    exact ⟨.inr ⟨⟨soundLeft, idle, .inr turnLeft⟩, turnLeft⟩, .inr same⟩

/-- What advancing comes to: nothing where a decision waits, else the next step of the turn. -/
theorem ensures_advance (goes : duel.Goes lost) :
    (advance allowance).Ensures duel fun advanced left =>
      advanced = false ∧ left = duel ∧ duel.Halted ∨
        advanced = true ∧ duel.step.isTurn = true ∧ duel.step ≠ .mainAction ∧
          left.GoesInTurn lost ∧ (left.isOver = true ∨ left.step = duel.step.next) := by
  unfold advance
  rw [ensures_get_bind]
  split
  next waits =>
    refine .inl ⟨rfl, rfl, ?_⟩
    simpa [Halted, or_assoc] using waits
  next free =>
    split
    · exact ensures_violate
    next past =>
      have moving : duel.isOver = false ∧ duel.hasChoice = false ∧ duel.step ≠ .mainAction := by
        simpa [and_assoc] using free
      have running : duel.Running lost := goes.resolve_left fun finished => by
        rw [finished.isOver] at moving
        cases moving.1
      have turn : duel.step.isTurn = true := running.underway.resolve_left fun mulligan => by
        rw [mulligan] at past
        exact past rfl
      have noChoice : ¬ duel.docket.HasChoice := fun some' => by
        rw [hasChoice_iff.mpr some'] at moving
        cases moving.2.1
      refine (ensures_enterTurn (Step.isTurn_next turn) (running.sound.entering
        (Docket.noMulligan_of_noChoice noChoice))).bind fun _ left entered => ?_
      exact .inr ⟨rfl, turn, moving.2.2, entered⟩

/-- Advancing keeps whatever the match is in as long as it goes on, and is in again in the cycle of
a turn. -/
theorem ensures_advanceWhile {goal : Step → Bool} {count : Nat} {holds : Duel → Prop}
    (goes : ∀ duel, holds duel → duel.Goes lost)
    (entered : ∀ duel, duel.GoesInTurn lost → holds duel) (now : holds duel) :
    (advanceWhile allowance goal count).Ensures duel fun _ left => holds left := by
  induction count generalizing duel with
  | zero => exact now
  | succ count ih =>
      unfold advanceWhile
      rw [ensures_get_bind]
      split
      · exact now
      apply (ensures_advance (goes duel now)).bind
      intro advanced left ending
      rcases ending with ⟨rfl, rfl, -⟩ | ⟨rfl, -, -, goesLeft, -⟩
      · exact now
      · exact ih (entered left goesLeft)

/-- Advancing often enough comes to a decision or to the end. -/
theorem ensures_halted {count : Nat} (goes : duel.GoesInTurn lost)
    (enough : duel.step.distance < count) :
    (advanceWhile allowance (fun _ => false) count).Ensures duel fun _ left => left.Halted := by
  induction count generalizing duel with
  | zero => exact absurd enough (Nat.not_lt_zero _)
  | succ count ih =>
      unfold advanceWhile
      rw [ensures_get_bind, if_neg Bool.false_ne_true]
      apply (ensures_advance goes.goes).bind
      intro advanced left ending
      rcases ending with ⟨rfl, rfl, halted⟩ | ⟨rfl, turn, away, goesLeft, next⟩
      · exact halted
      · apply ih goesLeft
        have further := Step.distance_next (Step.distance_ne_zero turn away)
        rcases next with ended | next
        · have last : left.step = .finalGameOver := of_decide_eq_true ended
          rw [last]
          change 0 < count
          omega
        · rw [next]
          omega

theorem ensures_runToDecision (goes : duel.GoesInTurn lost) :
    (runToDecision allowance).Ensures duel fun _ left =>
      left.GoesInTurn lost ∧ left.Halted := by
  unfold runToDecision
  rw [ensures_get_bind]
  exact (ensures_advanceWhile (fun _ => GoesInTurn.goes) (fun _ => id) goes).and
    (ensures_halted goes (Nat.lt_succ_self _))

theorem ensures_runToDecision_of_halted (halted : duel.Halted) :
    (runToDecision allowance).Ensures duel fun _ left => left = duel := by
  have waits : (duel.isOver || duel.hasChoice || decide (duel.step = .mainAction)) = true := by
    simpa [Halted, or_assoc] using halted
  have stays : (advance allowance).Ensures duel fun advanced left =>
      advanced = false ∧ left = duel := by
    unfold advance
    rw [ensures_get_bind, if_pos waits]
    exact ⟨rfl, rfl⟩
  unfold runToDecision advanceWhile
  rw [ensures_get_bind, ensures_get_bind, if_neg Bool.false_ne_true]
  apply stays.bind
  intro _ left ending
  obtain ⟨rfl, rfl⟩ := ending
  rfl

theorem Follows.settings {α : Type} {action : Play α} (follows : Follows Change action) :
    action.Ensures duel fun _ left => left.settings = duel.settings :=
  Yields.mono (follows duel) (fun _ _ reaches => (Change.fixed_of_reaches reaches).1)
    fun _ _ => trivial

theorem ensures_enterAndRun (turn : step.isTurn = true)
    (sound : (duel.docket.entering step).Sound lost) :
    Ensures (do
        enter allowance step
        if (← get).settings.autoRun then
          runToDecision allowance) duel
      fun _ left => left.GoesInTurn lost ∧ (duel.settings.autoRun = true → left.Halted) := by
  apply ((ensures_enterTurn turn sound).and follows_enter.settings).bind
  intro _ left entered
  obtain ⟨⟨goes, -⟩, settings⟩ := entered
  rw [ensures_get_bind]
  split
  · exact (ensures_runToDecision goes).mono fun _ last ran => ⟨ran.1, fun _ => ran.2⟩
  next stops =>
    refine ⟨goes, fun runs => absurd ?_ stops⟩
    rw [settings]
    exact runs

theorem ensures_beginTurns (sound : (duel.docket.entering .mainReady).Sound lost) :
    (beginTurns allowance).Ensures duel fun _ left =>
      left.GoesInTurn lost ∧ (duel.settings.autoRun = true → left.Halted) :=
  ensures_enterAndRun rfl sound

/-! ## The opening -/

/-- The steps of the opening up to the draw. -/
def draws (allowance : Nat) : Play Unit :=
  [Step.beginFirst, .beginShuffle, .beginDraw].forM (enter allowance)

theorem opening_eq (allowance : Nat) :
    Step.opening.forM (enter allowance) =
      (do draws allowance; enter allowance .beginMulligan) := by
  simp [draws, Step.opening]

/-- After a step of the opening, whether or not it ended the match, the next one may be entered. -/
theorem sound_entering {next : Step} (away : step ≠ .beginMulligan)
    (ending : duel.Finished ∨ duel.docket.Sound False ∧ duel.step = step ∧ duel.Idle) :
    (duel.docket.entering next).Sound False := by
  rcases ending with finished | ⟨sound, same, -⟩
  · rw [finished.1]
    exact Docket.sound_clear
  · refine sound.entering (sound.noMulligan ?_)
    rw [show duel.docket.step = step from same]
    exact away

theorem ensures_draws (fresh : duel.docket = .clear .unstarted) :
    (draws allowance).Ensures duel fun _ left =>
      (left.docket.entering .beginMulligan).Sound False := by
  have first : (duel.docket.entering .beginFirst).Sound False := by
    rw [fresh]
    exact Docket.sound_clear
  unfold draws
  apply (ensures_enter (by decide) (by decide) first).bind
  intro _ chosen ending
  have second : (chosen.docket.entering .beginShuffle).Sound False :=
    sound_entering (by decide) ending
  apply (ensures_enter (by decide) (by decide) second).bind
  intro _ shuffled ending
  have third : (shuffled.docket.entering .beginDraw).Sound False :=
    sound_entering (by decide) ending
  apply (ensures_enter (by decide) (by decide) third).bind
  intro _ dealt ending
  exact sound_entering (by decide) ending

end Play

/-- Whether starting loses a discovery: a list is put aside behind it when the cards are drawn, and
then the mulligan is offered. -/
def Duel.LosesDiscovery (duel : Duel) (allowance : Nat) : Prop :=
  ∃ dealt offered, Play.draws allowance duel = .ok () dealt ∧ dealt.suspended.isSome = true ∧
    dealt.settings.skipMulligan = false ∧
      Play.enter allowance .beginMulligan dealt = .ok () offered ∧ offered.isOver = false

namespace Play

open Duel

variable {duel : Duel} {lost : Prop} {allowance : Nat} {player : Player} {step : Step}

/-- A successful start gets the match going, with a discovery lost exactly as `LosesDiscovery`
says. -/
theorem ensures_start (fresh : duel.docket = .clear .unstarted) :
    (start allowance).Ensures duel fun _ left =>
      left.Goes (duel.LosesDiscovery allowance) ∧
        (duel.settings.autoRun = true → left.Halted) := by
  unfold start
  have unstarted : ¬ duel.step ≠ .unstarted := fun away => away (congrArg Docket.step fresh)
  rw [ensures_get_bind, if_neg unstarted, opening_eq, bind_assoc]
  have drawing : Follows Change (draws allowance) := follows_forM (fun _ => follows_enter) _
  apply ((ensures_draws fresh).ran.and drawing.settings).bind
  intro _ dealt drawn
  obtain ⟨⟨sound, drawn⟩, dealtSettings⟩ := drawn
  refine ((ensures_enterMulligan sound).ran.and follows_enter.settings).bind
    fun _ offered entered => ?_
  obtain ⟨⟨ending, entered⟩, offeredSettings⟩ := entered
  have settings : offered.settings = duel.settings := offeredSettings.trans dealtSettings
  have loses : duel.LosesDiscovery allowance ↔
      (dealt.settings.skipMulligan = false ∧ dealt.suspended.isSome = true) ∧
        offered.isOver = false := by
    constructor
    · rintro ⟨dealt', offered', drawn', waiting, shown, entered', running⟩
      cases drawn.symm.trans drawn'
      cases entered.symm.trans entered'
      exact ⟨⟨shown, waiting⟩, running⟩
    · rintro ⟨⟨shown, waiting⟩, running⟩
      exact ⟨dealt, offered, drawn, waiting, shown, entered, running⟩
  rw [ensures_get_bind, ← settings]
  rcases ending with finished | ⟨soundOffered, step, idle⟩
  · have kept : duel.LosesDiscovery allowance ↔ False :=
      iff_false_intro fun isLost => by
        rw [finished.isOver] at loses
        exact Bool.noConfusion (loses.mp isLost).2
    have noChoice : offered.hasChoice = false := hasChoice_of_clear finished.1
    rw [if_neg (by simp [noChoice]), propext kept]
    have clear : (offered.docket.entering .mainReady).Sound False := by
      rw [finished.1]
      exact Docket.sound_clear
    exact (ensures_beginTurns clear).mono fun _ left begun => ⟨begun.1.goes, begun.2⟩
  · have running : offered.isOver = false := by
      unfold isOver
      rw [step]
      decide
    have same : duel.LosesDiscovery allowance ↔
        dealt.settings.skipMulligan = false ∧ dealt.suspended.isSome = true :=
      loses.trans (and_iff_left running)
    rw [propext same]
    split
    next choosing =>
      exact ⟨.inr ⟨soundOffered, idle, .inl step⟩, fun _ => .inr (.inl choosing)⟩
    next free =>
      have noChoice : ¬ offered.docket.HasChoice := fun some' => free (hasChoice_iff.mpr some')
      refine (ensures_beginTurns (soundOffered.entering
        (Docket.noMulligan_of_noChoice noChoice))).mono fun _ left begun => ?_
      exact ⟨begun.1.goes, begun.2⟩

end Play

end CardDuel
