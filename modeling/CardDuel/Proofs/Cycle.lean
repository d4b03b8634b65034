import CardDuel.Proofs.Recovery

/-!
# The cycle of turns

The clock of a match is its step, the number of the turn and the player whose turn it is.  It moves
when a step is entered and at no other time, so whose turn it is can be read off the number of
the turn, and a turn that ends is followed by the opponent's.
-/

namespace CardDuel

open Relation

namespace Duel

variable {duel before after left : Duel} {allowance granted : Nat} {player : Player}

/-! ## Between steps -/

/-- The clock stands still, unless the match ends. -/
structure Timeless (before after : Duel) : Prop where
  turn : after.turn = before.turn
  current : after.current = before.current
  first : after.first = before.first
  step : after.step = before.step ∨ after.isOver = true

theorem Timeless.refl (duel : Duel) : duel.Timeless duel :=
  ⟨rfl, rfl, rfl, .inl rfl⟩

theorem Timeless.trans {middle : Duel} (first : before.Timeless middle)
    (second : middle.Timeless after) : before.Timeless after where
  turn := second.turn.trans first.turn
  current := second.current.trans first.current
  first := second.first.trans first.first
  step := by
    rcases second.step with same | ended
    · refine first.step.imp same.trans fun ended => ?_
      unfold isOver at *
      rw [same]
      exact ended
    · exact .inr ended

theorem Timeless.of_reaches (reaches : ReflTransGen Timeless before after) :
    before.Timeless after := by
  induction reaches with
  | refl => exact .refl before
  | tail _ last ih => exact ih.trans last

theorem Timeless.of_shift (shift : Shift before after) : before.Timeless after where
  turn := congrArg Control.turn shift.control
  current := congrArg Control.current shift.control
  first := congrArg Control.first shift.control
  step := .inl (congrArg Control.step shift.control)

theorem Timeless.of_shifts (shifts : ReflTransGen Shift before after) :
    ReflTransGen Timeless before after :=
  ReflTransGen.mono (fun _ _ => .of_shift) _ _ shifts

instance : Placing Timeless where
  roll duel dice := .of_shift (Rolling.roll duel dice)
  relocate duel _ _ _ placement known allowed room :=
    .of_shift (Placing.relocate duel placement known allowed room)
  create duel owner _ _ _ listed instantiable :=
    .of_shift (Placing.create duel owner listed instantiable)

instance : Working Timeless fun _ => True where
  revise duel id _ peaceful := .of_shift (Revising.revise duel id peaceful)
  strike duel _ _ known := .of_shift (Revising.strike duel known)
  heal duel _ _ amount known := .of_shift (Revising.heal duel amount known)
  silence duel id := .of_shift (Revising.silence duel id)
  transform duel _ _ _ _ known listed kind :=
    .of_shift (Revising.transform duel known listed kind)
  auras duel := .of_shift (Revising.auras duel)
  expire duel := .of_shift (Revising.expire duel)
  fall duel fallen := .of_shift (Revising.fall duel fallen)
  adjust duel player _ routine := .of_shift (Revising.adjust duel player routine)
  announce _ _ _ := ⟨rfl, rfl, rfl, .inl rfl⟩
  remind _ _ _ := ⟨rfl, rfl, rfl, .inl rfl⟩
  arrive duel _ _ placement known allowed room :=
    ReflTransGen.mono (fun _ _ => .of_shift) _ _ (Shifting.arrive duel placement known allowed room)
  handOver duel _ _ _ known other := .of_shift (Shifting.handOver duel known other)
  shuffle duel player _ _ container reordered :=
    .of_shift (Shifting.shuffle duel player container reordered)
  outlive duel _ _ player known := Timeless.of_shifts (Shifting.outlive duel player known)
  inherits := Effect.hereditary_true
  assume duel := .inl duel.fits_true
  write _ _ _ _ _ _ := ⟨rfl, rfl, rfl, .inl rfl⟩
  award _ _ _ _ _ := ⟨rfl, rfl, rfl, .inl rfl⟩
  lend _ _ _ _ := ⟨rfl, rfl, rfl, .inl rfl⟩
  bury duel _ _ known allowed := Timeless.of_shifts (Performing.bury duel known allowed)
  refresh _ _ _ := ⟨rfl, rfl, rfl, .inl rfl⟩
  fire _ _ _ _ _ := ⟨rfl, rfl, rfl, .inl rfl⟩
  choose _ _ _ := ⟨rfl, rfl, rfl, .inl rfl⟩
  suspend _ _ _ := ⟨rfl, rfl, rfl, .inl rfl⟩
  schedule _ _ _ := ⟨rfl, rfl, rfl, .inl rfl⟩
  begin _ _ _ _ := ⟨rfl, rfl, rfl, .inl rfl⟩
  herald _ _ _ _ := .single ⟨rfl, rfl, rfl, .inl rfl⟩
  clear _ := ⟨rfl, rfl, rfl, .inl rfl⟩
  finish _ _ := ⟨rfl, rfl, rfl, .inr rfl⟩
  concede _ _ := ⟨rfl, rfl, rfl, .inr rfl⟩

/-- Once a step is entered the clock stands still until the next one is. -/
theorem timeless_enter (allowance : Nat) (duel : Duel) (target : Step) :
    (Play.enter allowance target).Yields duel (fun _ => (duel.entering target).Timeless)
      (duel.entering target).Timeless :=
  Play.yields_enter_clock.mono (fun _ _ => .of_reaches) fun _ => .of_reaches

/-- What an action does before any step is entered. -/
theorem follows_acting {step : Duel → Duel → Prop} {fits : Effect → Prop} [Working step fits]
    (allowance : Nat) (player : Player) (action : Action) :
    Play.Follows step (Play.acting allowance player action) := by
  have chooses (player : Player) : Play.Follows step (modify fun duel =>
      duel.setChoice player none : Play PUnit) :=
    Play.follows_modify fun duel => Working.choose duel player none
  cases action with
  | playCard card target position => exact Play.follows_playCard
  | attack attacker defender => exact Play.follows_attack
  | heroPower target => exact Play.follows_useHeroPower
  | endTurn => exact Play.follows_pure
  | mulligan replace =>
      exact Play.follows_exchange.bind fun _ => (chooses player).bind fun _ => Play.follows_settle
  | choose pick =>
      refine Play.follows_get.bind fun duel => ?_
      split
      · exact Play.follows_violate
      · exact (chooses player).bind fun _ => Play.follows_settleOptions.bind fun _ =>
          Play.follows_resume.bind fun _ => Play.follows_settle
  | concede => exact Play.follows_modify fun duel => Working.concede duel player

theorem timeless_acting (allowance : Nat) (player : Player) (action : Action) (duel : Duel) :
    (Play.acting allowance player action).Yields duel (fun _ => duel.Timeless) duel.Timeless :=
  (follows_acting allowance player action duel).mono (fun _ _ => .of_reaches) fun _ => .of_reaches

/-! ## Whose turn it is -/

/-- Before the first turn it is turn zero and the first player's; then the first player has the odd
turns, and a turn has passed to the opponent when its last step is reached. -/
structure Timely (duel : Duel) : Prop where
  early : duel.step = .unstarted ∨ duel.step.isOpening = true →
    duel.turn = 0 ∧ duel.current = duel.first
  odd : duel.step.isTurn = true → duel.step ≠ .mainNext →
    (duel.current = duel.first ↔ duel.turn % 2 = 1)
  even : duel.step = .mainNext → (duel.current = duel.first ↔ duel.turn % 2 = 0)

theorem timely_of_isOver (ended : duel.isOver = true) : duel.Timely := by
  have last : duel.step = .finalGameOver := of_decide_eq_true ended
  refine ⟨fun early => ?_, fun turn => ?_, fun next => ?_⟩
  · rw [last] at early
    exact absurd early (by decide)
  · rw [last] at turn
    cases turn
  · cases last.symm.trans next

theorem Timely.timeless (timely : before.Timely) (timeless : before.Timeless after) :
    after.Timely := by
  rcases timeless.step with same | ended
  · refine ⟨?_, ?_, ?_⟩
    · rw [same, timeless.turn, timeless.current, timeless.first]
      exact timely.early
    · rw [same, timeless.turn, timeless.current, timeless.first]
      exact timely.odd
    · rw [same, timeless.turn, timeless.current, timeless.first]
      exact timely.even
  · exact timely_of_isOver ended

/-- The clock of a match that has not begun. -/
def AtDawn (duel : Duel) : Prop :=
  duel.turn = 0 ∧ duel.current = duel.first

theorem AtDawn.timeless (dawn : before.AtDawn) (timeless : before.Timeless after) :
    after.AtDawn :=
  ⟨timeless.turn.trans dawn.1, timeless.current.trans (dawn.2.trans timeless.first.symm)⟩

theorem AtDawn.entering (dawn : duel.AtDawn) {step : Step} (opening : step.isOpening = true) :
    (duel.entering step).AtDawn ∧ (duel.entering step).Timely := by
  have still : (duel.entering step).AtDawn := by
    revert opening
    cases step with
    | beginFirst => exact fun _ => ⟨dawn.1, rfl⟩
    | beginShuffle | beginDraw | beginMulligan => exact fun _ => dawn
    | _ => exact nofun
  have reached : (duel.entering step).step = step := by cases step <;> rfl
  refine ⟨still, fun _ => still, fun turn => ?_, fun next => ?_⟩
  · rw [reached] at turn
    exact Bool.noConfusion ((Step.away_of_isTurn turn).2.2.2.symm.trans opening)
  · rw [reached] at next
    cases next
    cases opening

theorem AtDawn.timely_ready (dawn : duel.AtDawn) : (duel.entering .mainReady).Timely := by
  refine ⟨fun early => absurd early (by simp [Duel.entering, ticked, Step.isOpening]),
    fun _ _ => ?_, nofun⟩
  refine iff_of_true dawn.2 ?_
  change (duel.turn + 1) % 2 = 1
  rw [dawn.1]

/-- The clock is right again when the next step is entered. -/
theorem Timely.entering_next (timely : duel.Timely) : (duel.entering duel.step.next).Timely := by
  have steady (target : Step) (goes : duel.entering target = { duel with step := target })
      (within : target.isTurn = true) (away : target ≠ .mainNext)
      (odd : duel.current = duel.first ↔ duel.turn % 2 = 1) : (duel.entering target).Timely := by
    rw [goes]
    refine ⟨fun early => ?_, fun _ _ => odd, fun next => absurd next away⟩
    obtain ⟨unstarted, -, -, opening⟩ := Step.away_of_isTurn within
    rcases early with unstarted' | opening'
    · exact absurd unstarted' unstarted
    · exact Bool.noConfusion (opening.symm.trans opening')
  cases reached : duel.step with
  | unstarted => exact (AtDawn.entering (timely.early (.inl reached)) rfl).2
  | beginFirst | beginShuffle | beginDraw =>
      exact (AtDawn.entering (timely.early (.inr (by rw [reached]; rfl))) rfl).2
  | beginMulligan => exact AtDawn.timely_ready (timely.early (.inr (by rw [reached]; rfl)))
  | mainReady | mainStartTriggers | mainResource | mainDraw | mainStart | mainAction
  | mainEndTriggers =>
      exact steady _ rfl rfl Step.noConfusion
        (timely.odd (by rw [reached]; rfl) (by rw [reached]; decide))
  | mainCleanup =>
      have odd := timely.odd (by rw [reached]; rfl) (by rw [reached]; decide)
      refine ⟨fun early => absurd early
          (by simp [Step.next, Duel.entering, ticked, Step.isOpening]),
        fun _ away => absurd rfl away, fun _ => ?_⟩
      change duel.current.opponent = duel.first ↔ duel.turn % 2 = 0
      rw [Player.opponent_eq_iff, odd]
      omega
  | mainNext =>
      have even := timely.even reached
      refine ⟨fun early => absurd early
          (by simp [Step.next, Duel.entering, ticked, Step.isOpening]),
        fun _ _ => ?_, Step.noConfusion⟩
      change duel.current = duel.first ↔ (duel.turn + 1) % 2 = 1
      rw [even]
      omega
  | finalWrapup | finalGameOver => exact timely_of_isOver rfl

/-- A match that goes on step by step keeps the clock right, also when it is broken off. -/
theorem Marches.timely {result : EStateM.Result Fault Duel Unit}
    (marches : duel.Marches allowance result) (timely : duel.Timely) :
    Play.Yields (fun _ => result) duel (fun _ => Timely) Timely := by
  induction marches with
  | stops duel => exact timely
  | refuses running fault => exact timely
  | @breaks duel left fault running broken =>
      have entered := timeless_enter allowance duel duel.step.next
      unfold Play.Yields at entered
      rw [broken] at entered
      exact timely.entering_next.timeless entered
  | @enters duel middle result running entered further ih =>
      exact ih (timely.entering_next.timeless ((timeless_enter allowance duel _).of_ok entered))

/-- What only happens between steps leaves the clock right. -/
theorem Timely.follows {α : Type} {action : Play α} (timely : duel.Timely)
    (follows : Play.Follows Timeless action) : (action.left duel).Timely :=
  timely.timeless (.of_reaches (follows duel).reaches)

/-! ### Calls -/

/-- The opening keeps the clock of dawn, whether or not it ends the match on the way. -/
theorem timely_opening {steps : List Step} (opening : ∀ step ∈ steps, step.isOpening = true)
    (dawn : duel.AtDawn) (timely : duel.Timely) :
    (steps.forM (Play.enter allowance)).Yields duel (fun _ left => left.AtDawn ∧ left.Timely)
      Timely := by
  induction steps generalizing duel with
  | nil => exact ⟨dawn, timely⟩
  | cons step steps ih =>
      obtain ⟨first, later⟩ := List.forall_mem_cons.mp opening
      obtain ⟨dawning, right⟩ := dawn.entering first
      refine Play.yields_bind.mpr ((timeless_enter allowance duel step).mono
        (fun _ left timeless => ?_) fun left timeless => right.timeless timeless)
      exact ih later (dawning.timeless timeless) (right.timeless timeless)

theorem AtDawn.timely_beginTurns (dawn : duel.AtDawn) :
    (Play.beginTurns allowance).Yields duel (fun _ => Timely) Timely := by
  have ready := dawn.timely_ready
  refine Play.yields_bind.mpr ((timeless_enter allowance duel .mainReady).mono
    (fun _ left timeless => ?_) fun left timeless => ready.timeless timeless)
  exact Marches.timely Play.marches_runOn (ready.timeless timeless)

theorem Timely.start (timely : duel.Timely) : ((Play.start allowance).left duel).Timely := by
  apply Play.Yields.left
  by_cases unstarted : duel.step = .unstarted
  · unfold Play.Yields
    rw [Play.start_eq unstarted]
    refine Play.yields_bind.mpr ((timely_opening (by decide) (timely.early (.inl unstarted))
      timely).mono (fun _ left opened => ?_) fun _ => id)
    change (if left.hasChoice then _ else _ : Play Unit).Yields left _ _
    split
    · exact opened.2
    · exact opened.1.timely_beginTurns
  · change (if duel.step ≠ .unstarted then _ else _ : Play Unit).Yields duel _ _
    rw [if_pos unstarted]
    exact timely

theorem Timely.take (timely : duel.Timely) (action : Action) :
    ((Play.take allowance player action).left duel).Timely := by
  apply Play.Yields.left
  unfold Play.Yields
  rw [Play.take_eq]
  by_cases ended : duel.isOver = true
  · rw [if_pos ended]
    exact timely
  rw [if_neg ended]
  cases accepted : duel.check player action with
  | error reason => exact timely
  | ok _ =>
      let recorded := Play.record player action duel
      have right : recorded.Timely := timely.timeless ⟨rfl, rfl, rfl, .inl rfl⟩
      have running : recorded.isOver = false := Bool.eq_false_iff.mpr ended
      obtain ⟨breaks, goesOn⟩ : recorded.MarchesAfter allowance
          (Play.acting allowance player action) (Play.carryOut allowance player action) :=
        Play.marches_carryOut running accepted
      have acts := timeless_acting allowance player action recorded
      have carries : (Play.carryOut allowance player action).Yields recorded (fun _ => Timely)
          Timely := by
        unfold Play.Yields at acts
        cases ran : Play.acting allowance player action recorded with
        | ok value left =>
            rw [ran] at acts
            exact (goesOn left ran).timely (right.timeless acts)
        | error fault left =>
            rw [ran] at acts
            unfold Play.Yields
            rw [breaks fault left ran]
            exact right.timeless acts
      exact Play.yields_onFault.mpr (carries.mono (fun _ _ => id) fun left still =>
        still.timeless ⟨rfl, rfl, rfl, .inl rfl⟩)

/-- Whatever is done to a match leaves the clock right. -/
theorem Timely.play (timely : duel.Timely) (deed : Deed) :
    ((deed.play allowance).left duel).Timely := by
  cases deed with
  | call asked =>
      cases asked with
      | start => exact timely.start
      | take player action => exact timely.take action
      | advance => exact Play.Yields.left (Marches.timely Play.marches_advance timely)
      | advanceTo target => exact Play.Yields.left (Marches.timely Play.marches_advanceWhile timely)
      | give player code => exact timely.follows Play.follows_give.discard
      | setMana player total => exact timely.timeless ⟨rfl, rfl, rfl, .inl rfl⟩
  | run resolution => exact timely.follows (Play.follows_resolve resolution.fits_true).discard
  | auras => exact timely.timeless ⟨rfl, rfl, rfl, .inl rfl⟩

theorem timely_of_created {settings : Settings} {catalogue : Catalogue}
    (created : Duel.create settings catalogue = .ok duel) : duel.Timely := by
  obtain ⟨bare, begun, quiets⟩ := create_quiet created
  have placed : bare.Timeless duel := .of_reaches (Timeless.of_shifts (Quiet.shifts quiets))
  refine Timely.timeless ?_ placed
  obtain ⟨first, dice, zero, one, rfl⟩ := bare_eq begun
  exact ⟨fun _ => ⟨rfl, rfl⟩, nofun, nofun⟩

theorem Timely.afterDeeds (timely : duel.Timely) (allowance : Nat) (deeds : List Deed) :
    (duel.afterDeeds allowance deeds).Timely := by
  induction deeds generalizing duel with
  | nil => exact timely
  | cons deed deeds ih => exact ih (timely.play deed)

/-! ## Running to the next decision -/

/-- So many advances succeed one after the other, each entering a step. -/
inductive Advances (allowance : Nat) : Nat → Duel → Duel → Prop
  | none (duel : Duel) : Advances allowance 0 duel duel
  | more {count : Nat} {duel middle last : Duel}
      (advanced : Play.advance allowance duel = .ok true middle)
      (further : Advances allowance count middle last) : Advances allowance (count + 1) duel last

/-- How going on by itself comes to an end: after so many successful advances the next one does
nothing, or it is broken off and that is how the run ends. -/
def Stops (allowance : Nat) (last : Duel) (result : EStateM.Result Fault Duel Unit) : Prop :=
  Play.advance allowance last = .ok false last ∧ last.Halted ∧ result = .ok () last ∨
    ∃ fault left, Play.advance allowance last = .error fault left ∧ result = .error fault left

/-- What an advance does to the clock. -/
theorem advance_spec (allowance : Nat) (duel : Duel) :
    Play.advance allowance duel = .ok false duel ∧ duel.Halted ∨
      (∃ middle, Play.advance allowance duel = .ok true middle ∧ ¬ duel.Halted ∧
        (duel.entering duel.step.next).Timeless middle) ∨
      ∃ fault left, Play.advance allowance duel = .error fault left := by
  rw [Play.advance_eq]
  by_cases halted : duel.Halted
  · have waits : (duel.isOver || duel.hasChoice || decide (duel.step = .mainAction)) = true := by
      simpa [Halted, or_assoc] using halted
    rw [if_pos waits]
    exact .inl ⟨rfl, halted⟩
  · have goes : ¬ (duel.isOver || duel.hasChoice || decide (duel.step = .mainAction)) = true := by
      simpa [Halted, or_assoc] using halted
    rw [if_neg goes]
    split
    · exact .inr (.inr ⟨_, duel, rfl⟩)
    cases entered : Play.enter allowance duel.step.next duel with
    | ok value middle =>
        exact .inr (.inl ⟨middle, rfl, halted, (timeless_enter allowance duel _).of_ok entered⟩)
    | error fault left => exact .inr (.inr ⟨fault, left, rfl⟩)

theorem step_entering (duel : Duel) (target : Step) : (duel.entering target).step = target := by
  cases target <;> rfl

/-- A match in its turns, or at its end, comes to a stop within the distance of its step. -/
theorem exists_advances {count : Nat} (within : duel.step.isTurn = true ∨ duel.isOver = true)
    (enough : duel.step.distance < count) :
    ∃ taken last, taken ≤ duel.step.distance ∧ Advances allowance taken duel last ∧
      last.Stops allowance (Play.advanceWhile allowance (fun _ => false) count duel) := by
  induction count generalizing duel with
  | zero => exact absurd enough (Nat.not_lt_zero _)
  | succ count ih =>
      have same : Play.advanceWhile allowance (fun _ => false) (count + 1) duel =
          (do
            if ← Play.advance allowance then
              Play.advanceWhile allowance (fun _ => false) count
            else
              return () : Play Unit) duel := rfl
      rw [same]
      rcases advance_spec allowance duel with ⟨stays, halted⟩ | ⟨middle, advanced, moving, clock⟩ |
        ⟨fault, left, broken⟩
      · rw [Play.bind_of_ok stays]
        exact ⟨0, duel, Nat.zero_le _, .none duel, .inl ⟨stays, halted, rfl⟩⟩
      · rw [Play.bind_of_ok advanced]
        have turn : duel.step.isTurn = true := within.resolve_right fun ended => moving (.inl ended)
        have away : duel.step ≠ .mainAction := fun acting => moving (.inr (.inr acting))
        have further := Step.distance_next (Step.distance_ne_zero turn away)
        have reached := clock.step
        rw [step_entering] at reached
        have nearer : (middle.step.isTurn = true ∨ middle.isOver = true) ∧
            middle.step.distance < duel.step.distance := by
          rcases reached with next | ended
          · rw [next]
            exact ⟨.inl (Step.isTurn_next turn), by omega⟩
          · refine ⟨.inr ended, ?_⟩
            rw [show middle.step = .finalGameOver from of_decide_eq_true ended]
            change 0 < duel.step.distance
            omega
        obtain ⟨taken, last, few, advances, stops⟩ := ih nearer.1 (by omega)
        exact ⟨taken + 1, last, by omega, .more advanced advances, stops⟩
      · rw [Play.bind_of_error broken]
        exact ⟨0, duel, Nat.zero_le _, .none duel, .inr ⟨fault, left, broken, rfl⟩⟩

theorem exists_advances_runToDecision
    (within : duel.step.isTurn = true ∨ duel.isOver = true) :
    ∃ taken last, taken ≤ 8 ∧ Advances allowance taken duel last ∧
      last.Stops allowance (Play.runToDecision allowance duel) := by
  obtain ⟨taken, last, few, advances, stops⟩ := exists_advances within (Nat.lt_succ_self _)
  exact ⟨taken, last, Nat.le_trans few duel.step.distance_le, advances, stops⟩

/-! ## The end of a turn -/

end Duel

/-- Whose turn it is, and which, in each step on the way from the end of a turn to the next
decision. -/
def Step.due (player : Player) (turn : Nat) : Step → Player × Nat
  | mainEndTriggers | mainCleanup => (player, turn)
  | mainNext => (player.opponent, turn)
  | _ => (player.opponent, turn + 1)

namespace Duel

variable {duel before after left middle last : Duel} {allowance granted : Nat} {player : Player}

/-- The match is on its way from the end of a turn to the next decision. -/
def Rotates (player : Player) (turn : Nat) (duel : Duel) : Prop :=
  duel.isOver = true ∨
    duel.step.isTurn = true ∧ (duel.current, duel.turn) = duel.step.due player turn

theorem Rotates.timeless {turn : Nat} (rotates : before.Rotates player turn)
    (timeless : before.Timeless after) : after.Rotates player turn := by
  rcases timeless.step with same | ended
  · unfold Rotates isOver at *
    rw [same, timeless.current, timeless.turn]
    exact rotates
  · exact .inl ended

theorem Rotates.advance {turn : Nat} (rotates : duel.Rotates player turn)
    (advanced : Play.advance allowance duel = .ok true middle) : middle.Rotates player turn := by
  rcases advance_spec allowance duel with ⟨stays, -⟩ | ⟨entered, same, moving, clock⟩ |
    ⟨fault, left, broken⟩
  · cases advanced.symm.trans stays
  · cases advanced.symm.trans same
    obtain ⟨within, due⟩ := rotates.resolve_left fun ended => moving (.inl ended)
    refine Rotates.timeless (.inr ⟨?_, ?_⟩) clock
    · rw [step_entering]
      exact Step.isTurn_next within
    · rw [step_entering]
      obtain ⟨current, counted⟩ := Prod.mk.inj due
      cases reached : duel.step with
      | mainAction => exact absurd (.inr (.inr reached)) moving
      | mainReady | mainStartTriggers | mainResource | mainDraw | mainStart | mainEndTriggers =>
          rw [reached] at current counted
          exact Prod.ext current counted
      | mainCleanup =>
          rw [reached] at current counted
          exact Prod.ext (congrArg Player.opponent current) counted
      | mainNext =>
          rw [reached] at current counted
          exact Prod.ext current (congrArg (· + 1) counted)
      | _ =>
          rw [reached] at within
          cases within
  · cases advanced.symm.trans broken

theorem Rotates.advances {turn taken : Nat} (rotates : duel.Rotates player turn)
    (advances : Advances allowance taken duel last) : last.Rotates player turn := by
  induction advances with
  | none duel => exact rotates
  | more advanced _ ih => exact ih (rotates.advance advanced)

/-- The match is over, or waits for a choice, or the next turn has come to its action step. -/
def Hands (before after : Duel) : Prop :=
  after.isOver = true ∨ after.hasChoice = true ∨
    after.step = .mainAction ∧ after.current = before.current.opponent ∧
      after.turn = before.turn + 1

theorem hands_endTurn (running : duel.settings.autoRun = true) (acting : duel.step = .mainAction)
    (accepted : duel.check player .endTurn = .ok ())
    (ran : Play.take allowance player .endTurn duel = .ok () left) : duel.Hands left := by
  let recorded := Play.record player .endTurn duel
  have going : duel.isOver = false := by
    unfold isOver
    rw [acting]
    decide
  rw [Play.take_of_accepted allowance going accepted] at ran
  have ends : Play.Ensures (Play.onFault (Play.endTurn allowance) clearAgenda) recorded
      fun _ left => duel.Hands left := by
    refine Play.Ensures.onFault ?_
    have clock : (Play.enter allowance .mainEndTriggers).Ensures recorded
        fun _ => (recorded.entering .mainEndTriggers).Timeless :=
      (timeless_enter allowance recorded .mainEndTriggers).mono (fun _ _ => id) fun _ _ => trivial
    have settings : (Play.enter allowance .mainEndTriggers).Ensures recorded
        fun _ left => left.settings = recorded.settings := Play.follows_enter.settings
    refine (clock.and settings).bind fun _ entered both => ?_
    obtain ⟨timeless, same⟩ := both
    have runs : entered.settings.autoRun = true := (congrArg Settings.autoRun same).trans running
    rw [Play.ensures_get_bind, if_pos runs]
    have rotates : entered.Rotates duel.current duel.turn :=
      Rotates.timeless (.inr ⟨rfl, rfl⟩) timeless
    obtain ⟨taken, last, -, advances, stops⟩ :=
      exists_advances_runToDecision (rotates.symm.imp_left And.left)
    unfold Play.Ensures Play.Yields
    rcases stops with ⟨-, halted, same⟩ | ⟨fault, left, -, same⟩
    · rw [same]
      rcases rotates.advances advances with ended | ⟨-, due⟩
      · exact .inl ended
      · refine halted.imp_right (Or.imp_right fun decides => ⟨decides, ?_⟩)
        rw [decides] at due
        exact Prod.mk.inj due
    · rw [same]
      trivial
  exact ends.of_ok ran

/-! ## The cycle -/

/-- How the turns of a match go round. -/
structure GoesRound (granted : Nat) (duel : Duel) : Prop where
  /-- Whose turn it is goes with the number of the turn. -/
  timely : duel.Timely
  /-- From every step of a turn, running on comes to a stop after at most eight advances. -/
  stops : duel.step.isTurn = true → ∃ taken last, taken ≤ 8 ∧
    Advances granted taken duel last ∧ last.Stops granted (Play.runToDecision granted duel)
  /-- When actions run on by themselves, a turn that ends is followed by the opponent's. -/
  hands : duel.settings.autoRun = true → duel.step = .mainAction → ∀ player left,
    duel.check player .endTurn = .ok () →
      Play.take granted player .endTurn duel = .ok () left → duel.Hands left

/-- Whatever has been done to a match, failed or not, its turns go round. -/
theorem goesRound_afterDeeds {settings : Settings} {catalogue : Catalogue}
    (created : Duel.create settings catalogue = .ok duel) (allowance granted : Nat)
    (deeds : List Deed) : (duel.afterDeeds allowance deeds).GoesRound granted where
  timely := (timely_of_created created).afterDeeds allowance deeds
  stops turn := exists_advances_runToDecision (.inl turn)
  hands running acting _ _ accepted ran := hands_endTurn running acting accepted ran

/-- Two mages, the first of whom has ended a turn, so that it is the other one's. -/
theorem goesRound_afterDeeds_mages :
    ∃ duel after, Duel.create Settings.mages Catalogue.mages = .ok duel ∧
      duel.afterDeeds 100 [.call .start, .call (.take .zero .endTurn)] = after ∧
        after.GoesRound 100 ∧ after.settings.autoRun = true ∧ after.step = .mainAction ∧
          after.turn = 2 ∧ after.current = after.first.opponent ∧
            after.accepts .one .endTurn = true := by
  obtain ⟨duel, after, created, runs, comes⟩ := exists_of_outcome Settings.mages Catalogue.mages 100
    [.start, .take .zero .endTurn] (fun after => after.settings.autoRun &&
      (after.step = .mainAction && (after.turn = 2 && (after.current = after.first.opponent &&
        after.accepts .one .endTurn)))) (by decide +kernel)
  simp only [Bool.and_eq_true, decide_eq_true_eq] at comes
  obtain ⟨running, acting, second, others, accepts⟩ := comes
  have did : duel.afterDeeds 100 [.call .start, .call (.take .zero .endTurn)] = after :=
    afterDeeds_of_runs runs
  have round := goesRound_afterDeeds created 100 100 [.call .start, .call (.take .zero .endTurn)]
  rw [did] at round
  exact ⟨duel, after, created, did, round, running, acting, second, others, accepts⟩

end Duel

end CardDuel
