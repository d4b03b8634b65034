import CardDuel.Proofs.Progress

/-!
# What requests come to

An accepted request keeps the match going.  It also runs on to the next decision when
actions run on by themselves, with one exception: the answer to a discovery in the
mulligan step goes no further.
-/

namespace CardDuel

open Relation

namespace Duel

variable {duel : Duel} {player : Player}

theorem checkTurn_iff : duel.checkTurn player = .ok () ↔
    duel.hasChoice = false ∧ player = duel.current ∧ duel.step = .mainAction := by
  unfold checkTurn
  by_cases choosing : duel.hasChoice = true
  · simp [choosing]
  by_cases own : player = duel.current
  · by_cases acting : duel.step = .mainAction
    · simp [choosing, own, acting]
    · simp [choosing, own, acting]
  · simp [choosing, own]

theorem checkTurn_spec (accepted : duel.checkTurn player = .ok ()) :
    ¬ duel.docket.HasChoice ∧ duel.step = .mainAction := by
  obtain ⟨free, -, acting⟩ := checkTurn_iff.mp accepted
  exact ⟨fun choosing => Bool.eq_false_iff.mp free (hasChoice_iff.mpr choosing), acting⟩

theorem checkAnswer_spec {choice : Choice} {action : Action}
    (accepted : checkAnswer choice action = .ok ()) :
    (∃ replace, action = .mulligan replace ∧ choice.kind = .mulligan) ∨
      ∃ pick, action = .choose pick ∧ choice.kind = .discover := by
  cases action with
  | mulligan replace =>
      refine .inl ⟨replace, rfl, Decidable.byContradiction fun other => ?_⟩
      simp [checkAnswer, other] at accepted
  | choose pick =>
      refine .inr ⟨pick, rfl, Decidable.byContradiction fun other => ?_⟩
      simp [checkAnswer, other] at accepted
  | _ => cases accepted

/-- While a choice is pending, everything but giving up is checked as an answer to it. -/
theorem check_answer {choice : Choice} {action : Action}
    (pending : duel.choice? player = some choice) (plays : action ≠ .concede) :
    duel.check player action = checkAnswer choice action := by
  unfold check
  rw [pending]
  cases action with
  | concede => exact absurd rfl plays
  | _ => rfl

/-- When an action is accepted: an answer where its choice is pending, anything else but giving up
in the action step without a choice. -/
theorem check_spec {action : Action} (accepted : duel.check player action = .ok ()) :
    action = .concede ∨
      (∃ replace options, action = .mulligan replace ∧
        duel.choice? player = some ⟨.mulligan, options⟩) ∨
      (∃ pick options, action = .choose pick ∧
        duel.choice? player = some ⟨.discover, options⟩) ∨
      ((∀ replace, action ≠ .mulligan replace) ∧ (∀ pick, action ≠ .choose pick) ∧
        ¬ duel.docket.HasChoice ∧ duel.step = .mainAction) := by
  by_cases concedes : action = .concede
  · exact .inl concedes
  refine .inr ?_
  cases pending : duel.choice? player with
  | some choice =>
      have answered := (check_answer pending concedes).symm.trans accepted
      obtain ⟨kind, options⟩ := choice
      rcases checkAnswer_spec answered with ⟨replace, rfl, rfl⟩ | ⟨pick, rfl, rfl⟩
      · exact .inl ⟨replace, options, rfl, rfl⟩
      · exact .inr (.inl ⟨pick, options, rfl, rfl⟩)
  | none =>
      refine .inr (.inr ?_)
      unfold check at accepted
      rw [pending] at accepted
      cases action with
      | concede => exact absurd rfl concedes
      | mulligan replace => cases accepted
      | choose pick => cases accepted
      | endTurn => exact ⟨nofun, nofun, checkTurn_spec accepted⟩
      | _ =>
          obtain ⟨_, turn, _⟩ := ok_of_bind accepted
          exact ⟨nofun, nofun, checkTurn_spec turn⟩

/-- While a choice is pending, only answers to it are accepted. -/
theorem free_of_accepted {action : Action} (accepted : duel.check player action = .ok ())
    (concedes : action ≠ .concede) (refused : ∀ choice, checkAnswer choice action ≠ .ok ()) :
    duel.choice? player = none := by
  cases pending : duel.choice? player with
  | none => rfl
  | some choice =>
      exact absurd ((check_answer pending concedes).symm.trans accepted) (refused choice)

section Turns

variable {card attacker defender : EntityId} {target : Option EntityId} {position : Option Nat}

/-- An accepted play comes in its player's turn. -/
theorem check_playCard (accepted : duel.check player (.playCard card target position) = .ok ()) :
    duel.checkTurn player = .ok () ∧ duel.checkCard player card target = .ok () := by
  have free := free_of_accepted accepted nofun fun _ => nofun
  unfold check at accepted
  rw [free] at accepted
  obtain ⟨_, turn, checked⟩ := ok_of_bind accepted
  exact ⟨turn, checked⟩

theorem check_attack (accepted : duel.check player (.attack attacker defender) = .ok ()) :
    duel.checkTurn player = .ok () ∧ duel.checkAttack player attacker defender = .ok () := by
  have free := free_of_accepted accepted nofun fun _ => nofun
  unfold check at accepted
  rw [free] at accepted
  obtain ⟨_, turn, checked⟩ := ok_of_bind accepted
  exact ⟨turn, checked⟩

theorem check_heroPower (accepted : duel.check player (.heroPower target) = .ok ()) :
    duel.checkTurn player = .ok () ∧ duel.checkHeroPower player target = .ok () := by
  have free := free_of_accepted accepted nofun fun _ => nofun
  unfold check at accepted
  rw [free] at accepted
  obtain ⟨_, turn, checked⟩ := ok_of_bind accepted
  exact ⟨turn, checked⟩

end Turns

/-- The check of an answer to the opening choice accepts options only. -/
theorem subset_of_accepted {replace options : List EntityId}
    (pending : duel.choice? player = some ⟨.mulligan, options⟩)
    (accepted : duel.check player (.mulligan replace) = .ok ()) : replace ⊆ options := by
  have answers : checkAnswer ⟨.mulligan, options⟩ (.mulligan replace) = .ok () :=
    (check_answer pending (by simp : Action.mulligan replace ≠ .concede)).symm.trans accepted
  intro id member
  simp only [checkAnswer, ne_eq, not_true_eq_false, if_false, ite_eq_left_iff] at answers
  by_contra missing
  have all : ¬ replace.all options.contains = true := fun all =>
    missing (by simpa using List.all_eq_true.mp all id member)
  cases answers all

end Duel

namespace Play

theorem mem_distinct {id : EntityId} (seen ids : List EntityId) :
    id ∈ distinct seen ids ↔ id ∈ seen ∨ id ∈ ids := by
  induction ids generalizing seen with
  | nil => simp [distinct]
  | cons other ids ih =>
      rw [distinct, ih, List.mem_cons]
      by_cases known : other ∈ seen
      · rw [if_pos (List.contains_iff_mem.mpr known)]
        by_cases same : id = other
        · simp [same, known]
        · simp [same]
      · rw [if_neg (by simpa using known), List.mem_append, List.mem_singleton, or_assoc]

/-- However often cards are named in an accepted answer, nothing but options is exchanged. -/
theorem distinct_subset {replace options : List EntityId} (among : replace ⊆ options) :
    distinct [] replace ⊆ options := fun id member =>
  among (by simpa using (mem_distinct [] replace).mp member)

end Play

namespace Docket

variable {docket : Docket} {lost : Prop} {player : Player} {options : List EntityId}

theorem Sound.answerMulligan (sound : docket.Sound lost)
    (pending : docket.choices.get player = some ⟨.mulligan, options⟩) :
    Sound { docket with choices := docket.choices.set player none } lost where
  linked other := by
    refine Iff.trans ?_ (sound.linked other)
    unfold Discovers
    rw [PerPlayer.get_set]
    split
    next own =>
      subst own
      rw [pending]
      exact iff_of_false (fun ⟨_, none'⟩ => by cases none') fun ⟨_, other⟩ => by cases other
    · rfl
  parked := sound.parked
  offered other others pending := by
    rw [PerPlayer.get_set] at pending
    split at pending
    · cases pending
    · exact sound.offered other others pending
  early other others pending := by
    rw [PerPlayer.get_set] at pending
    split at pending
    · cases pending
    · exact sound.early other others pending

/-- A pending discovery is not lost, and the list that waits is its player's. -/
theorem Sound.waiting (sound : docket.Sound lost)
    (pending : docket.choices.get player = some ⟨.discover, options⟩) :
    ¬ lost ∧ ∃ rest, docket.suspended = some rest ∧ rest.context.controller = player :=
  (sound.linked player).mp ⟨options, pending⟩

/-- Taking a discovery off, and the list behind it, leaves a sound docket. -/
theorem Sound.answerDiscovery (sound : docket.Sound lost)
    (pending : docket.choices.get player = some ⟨.discover, options⟩) :
    Sound { docket with choices := docket.choices.set player none, suspended := none } False where
  linked other := by
    unfold Discovers
    rw [PerPlayer.get_set]
    refine iff_of_false (fun ⟨others, discovers⟩ => ?_) fun ⟨_, _, none', _⟩ => by cases none'
    split at discovers
    · cases discovers
    next away =>
      obtain ⟨-, rest, waits, controls⟩ := sound.waiting pending
      obtain ⟨-, same, alike, own⟩ := sound.waiting discovers
      rw [waits] at alike
      cases alike
      exact away (own.symm.trans controls)
  parked := False.elim
  offered other others pending := by
    rw [PerPlayer.get_set] at pending
    split at pending
    · cases pending
    · exact sound.offered other others pending
  early other others pending := by
    rw [PerPlayer.get_set] at pending
    split at pending
    · cases pending
    · exact sound.early other others pending

end Docket

namespace Play

open Duel

variable {duel : Duel} {lost : Prop} {allowance : Nat} {player : Player}

theorem ensures_runPhases {phases : List Work} (sound : duel.docket.Sound lost)
    (acting : duel.step = .mainAction) :
    (runPhases allowance phases).Ensures duel fun _ left =>
      left.GoesInTurn lost ∧ left.Halted := by
  unfold runPhases
  rw [ensures_modify_bind]
  let scheduled : Duel := { duel with agenda := duel.agenda.addPhases phases }
  have running : scheduled.isOver = false := by
    unfold isOver
    rw [show scheduled.step = .mainAction from acting]
    decide
  have soundScheduled : scheduled.docket.Sound lost := sound
  apply (ensures_settle soundScheduled running).mono
  intro _ left ending
  rcases ending with finished | ⟨soundLeft, same, idle⟩
  · exact ⟨.inl finished, finished.halted⟩
  · have step : left.step = .mainAction := same.trans acting
    have turn : left.step.isTurn = true := by
      rw [step]
      rfl
    exact ⟨.inr ⟨⟨soundLeft, idle, .inr turn⟩, turn⟩, .inr (.inr step)⟩

/-- The same after a play that leaves the docket alone. -/
theorem Follows.thenPhases {α : Type} {action : Play α} {next : α → Play Unit}
    (follows : Follows Shift action) (sound : duel.docket.Sound lost)
    (acting : duel.step = .mainAction)
    (rest : ∀ value left, left.docket.Sound lost → left.step = .mainAction →
      (next value).Ensures left fun _ last => last.GoesInTurn lost ∧ last.Halted) :
    (action >>= next).Ensures duel fun _ last => last.GoesInTurn lost ∧ last.Halted := by
  refine follows.docket.bind fun value left same => rest value left ?_ ?_
  · rw [same]
    exact sound
  · exact (congrArg Docket.step same).trans acting

theorem ensures_playCard {card : EntityId} {target : Option EntityId} {position : Option Nat}
    (sound : duel.docket.Sound lost) (acting : duel.step = .mainAction) :
    (playCard allowance player card target position).Ensures duel fun _ left =>
      left.GoesInTurn lost ∧ left.Halted := by
  unfold playCard
  apply follows_lookup.thenPhases sound acting
  intro entity known soundKnown actingKnown
  rw [ensures_get_bind, ensures_modify_bind, ensures_get_bind]
  exact follows_placePlayed.thenPhases soundKnown actingKnown fun _ placed soundPlaced
    actingPlaced => ensures_runPhases soundPlaced actingPlaced

theorem ensures_useHeroPower {target : Option EntityId}
    (sound : duel.docket.Sound lost) (acting : duel.step = .mainAction) :
    (useHeroPower allowance player target).Ensures duel fun _ left =>
      left.GoesInTurn lost ∧ left.Halted := by
  unfold useHeroPower
  rw [ensures_get_bind]
  apply follows_lookup.thenPhases sound acting
  intro entity known soundKnown actingKnown
  rw [ensures_modify_bind]
  have exhausts : Follows Shift (change (duel.player player).heroPower fun entity =>
      entity.setTag .exhausted 1) := follows_change (.write 1 (by decide))
  refine exhausts.thenPhases soundKnown actingKnown fun _ used soundUsed actingUsed => ?_
  rw [ensures_get_bind]
  exact ensures_runPhases soundUsed actingUsed

/-- Answering the mulligan goes on to the next decision, as far as actions run on by themselves:
that of the other player, a discovery, or the first turn. -/
theorem ensures_mulligan {replace options : List EntityId} (running : duel.Running lost)
    (pending : duel.choice? player = some ⟨.mulligan, options⟩) :
    (mulligan allowance player replace).Ensures duel fun _ left =>
      left.Goes lost ∧ (duel.settings.autoRun = true → left.Halted) := by
  have early : duel.step = .beginMulligan := running.sound.early player options pending
  unfold mulligan
  have exchanges : Follows Shift (exchange player (distinct [] replace)) := follows_exchange
  apply (exchanges.docket.and follows_exchange.settings).bind
  intro _ drawn exchanged
  obtain ⟨same, drawnSettings⟩ := exchanged
  rw [ensures_modify_bind]
  let answered : Duel := drawn.setChoice player none
  have docket : answered.docket =
      { duel.docket with choices := duel.docket.choices.set player none } := by
    rw [← same]
    rfl
  have sound : answered.docket.Sound lost := by
    rw [docket]
    exact running.sound.answerMulligan pending
  have step : answered.step = .beginMulligan := (congrArg Docket.step docket).trans early
  have stillRunning : answered.isOver = false := by
    unfold isOver
    rw [step]
    decide
  have settles : (settle allowance).Ensures answered fun _ left =>
      (left.Finished ∨ left.docket.Sound lost ∧ left.step = answered.step ∧ left.Idle) ∧
        left.settings = answered.settings :=
    (ensures_settle sound stillRunning).and follows_settle.settings
  apply settles.bind
  intro _ settled ending
  obtain ⟨ending, settledSettings⟩ := ending
  have settings : settled.settings = duel.settings := settledSettings.trans drawnSettings
  rw [ensures_get_bind]
  rcases ending with finished | ⟨soundSettled, stepSettled, idle⟩
  · have ended : settled.step = .finalGameOver := of_decide_eq_true finished.isOver
    rw [if_neg (by simp [ended])]
    exact ⟨.inl finished, fun _ => finished.halted⟩
  have mulligans : settled.step = .beginMulligan := stepSettled.trans step
  by_cases choosing : settled.hasChoice = true
  · rw [if_neg (by simp [choosing])]
    exact ⟨.inr ⟨soundSettled, idle, .inl mulligans⟩, fun _ => .inr (.inl choosing)⟩
  · rw [if_pos (by simp [choosing, mulligans])]
    have noChoice : ¬ settled.docket.HasChoice := fun some' => choosing (hasChoice_iff.mpr some')
    rw [← settings]
    exact (ensures_beginTurns (soundSettled.entering (Docket.noMulligan_of_noChoice
      noChoice))).mono fun _ left begun => ⟨begun.1.goes, begun.2⟩

/-- Answering a discovery takes the list up that waited behind it. -/
theorem ensures_resumed {pick : EntityId} {options : List EntityId}
    (sound : duel.docket.Sound lost)
    (pending : duel.choice? player = some ⟨.discover, options⟩) :
    Ensures (do
        modify fun duel => duel.setChoice player none
        settleOptions pick options
        resume) duel fun _ left =>
      left.docket.Sound False ∧ left.step = duel.step := by
  obtain ⟨-, rest, waits, -⟩ := sound.waiting pending
  rw [ensures_modify_bind]
  let answered : Duel := duel.setChoice player none
  have settles : Follows Shift (settleOptions pick options) := follows_settleOptions
  apply settles.docket.bind
  intro _ left same
  have waiting : left.suspended = some rest := (congrArg Docket.suspended same).trans waits
  unfold resume
  rw [ensures_get_bind, waiting]
  change Ensures (do
    modify fun duel => { duel with suspended := none }
    discard (resolve rest)) left _
  rw [ensures_modify_bind]
  let resumed : Duel := { left with suspended := none }
  have soundResumed : resumed.docket.Sound False := by
    have docket : resumed.docket = { duel.docket with
        choices := duel.docket.choices.set player none, suspended := none } :=
      congrArg (fun docket : Docket => { docket with suspended := none }) same
    rw [docket]
    exact sound.answerDiscovery pending
  refine (ensures_resolve soundResumed rfl).mono fun _ last ending => ⟨ending.1, ?_⟩
  exact ending.2.trans (congrArg Docket.step same)

/-- Answering a discovery goes on where the duel waited for it.  In the mulligan step the match
stays there, even if nothing is left to decide. -/
theorem ensures_choose {pick : EntityId} {options : List EntityId} (running : duel.Running lost)
    (pending : duel.choice? player = some ⟨.discover, options⟩) :
    (choose allowance player pick).Ensures duel fun _ left =>
      left.Goes lost ∧
        (duel.step = .beginMulligan → left.isOver = true ∨ left.step = .beginMulligan) ∧
        (duel.step ≠ .beginMulligan → duel.settings.autoRun = true → left.Halted) := by
  have kept : ¬ lost := (running.sound.waiting pending).1
  obtain rfl : lost = False := eq_false kept
  unfold choose
  rw [ensures_get_bind, pending]
  change Ensures (do
    modify fun duel => duel.setChoice player none
    settleOptions pick options
    resume
    settle allowance
    let duel ← get
    if duel.settings.autoRun && duel.step ≠ .unstarted && !duel.step.isOpening then
      runToDecision allowance) duel _
  have resumes : Ensures (do
      modify fun duel => duel.setChoice player none
      settleOptions pick options
      resume) duel fun _ left =>
        (left.docket.Sound False ∧ left.step = duel.step) ∧ left.settings = duel.settings := by
    apply (ensures_resumed running.sound pending).and
    exact ((follows_modify fun duel => .choose duel player none).bind fun _ =>
      follows_settleOptions.bind fun _ => follows_resume).settings
  rw [← bind_assoc, ← bind_assoc, bind_assoc (modify _)]
  apply resumes.bind
  intro _ resumed ended
  obtain ⟨⟨sound, step⟩, resumedSettings⟩ := ended
  have stillRunning : resumed.isOver = false := by
    rw [← running.isOver]
    unfold isOver
    rw [step]
  have settles : (settle allowance).Ensures resumed fun _ left =>
      (left.Finished ∨ left.docket.Sound False ∧ left.step = resumed.step ∧ left.Idle) ∧
        left.settings = resumed.settings :=
    (ensures_settle sound stillRunning).and follows_settle.settings
  apply settles.bind
  intro _ settled ending
  obtain ⟨ending, settledSettings⟩ := ending
  have settings : settled.settings = duel.settings := settledSettings.trans resumedSettings
  rw [ensures_get_bind, settings]
  rcases ending with finished | ⟨soundSettled, stepSettled, idle⟩
  · split
    · apply (ensures_runToDecision_of_halted finished.halted).mono
      intro _ left same
      subst same
      exact ⟨.inl finished, fun _ => .inl finished.isOver, fun _ _ => finished.halted⟩
    · exact ⟨.inl finished, fun _ => .inl finished.isOver, fun _ _ => finished.halted⟩
  have same : settled.step = duel.step := stepSettled.trans step
  rcases running.underway with mulligan | turn
  · have early : settled.step = .beginMulligan := same.trans mulligan
    rw [if_neg (by simp [early, Step.isOpening])]
    exact ⟨.inr ⟨soundSettled, idle, .inl early⟩, fun _ => .inr early,
      fun away => absurd mulligan away⟩
  · have turnSettled : settled.step.isTurn = true := by
      rw [same]
      exact turn
    obtain ⟨started, late, -, past⟩ := Step.away_of_isTurn turnSettled
    have goes : settled.GoesInTurn False :=
      .inr ⟨⟨soundSettled, idle, .inr turnSettled⟩, turnSettled⟩
    have away : duel.step ≠ .beginMulligan := by
      rw [← same]
      exact late
    split
    · apply (ensures_runToDecision goes).mono
      intro _ left ran
      exact ⟨ran.1.goes, fun early => absurd early away, fun _ _ => ran.2⟩
    next stops =>
      refine ⟨goes.goes, fun early => absurd early away, fun _ runs => absurd ?_ stops⟩
      simp [runs, started, past]

/-- An accepted action keeps the match going or ends it.  It also runs on to the next decision,
except that a discovery that is answered in the mulligan step leaves the match in that step. -/
theorem ensures_take {action : Action} (goes : duel.Goes lost) :
    (take allowance player action).Ensures duel fun _ left =>
      left.Goes lost ∧
        ((∃ pick, action = .choose pick) ∧ duel.step = .beginMulligan ∧
            (left.isOver = true ∨ left.step = .beginMulligan) ∨
          ¬ ((∃ pick, action = .choose pick) ∧ duel.step = .beginMulligan) ∧
            (duel.settings.autoRun = true → left.Halted)) := by
  unfold take
  rw [ensures_get_bind]
  by_cases ended : duel.isOver = true
  · rw [if_pos ended]
    exact ensures_throw
  rw [if_neg ended]
  have running : duel.Running lost := goes.resolve_left fun finished => ended finished.isOver
  split
  · exact ensures_throw
  next accepted =>
    rw [ensures_modify_bind]
    apply Ensures.onFault
    let recorded : Duel := record player action duel
    have inTurn {work : Play Unit} (free : ∀ pick, action ≠ .choose pick)
        (works : work.Ensures recorded fun _ left =>
          left.Goes lost ∧ (duel.settings.autoRun = true → left.Halted)) :
        work.Ensures recorded fun _ left => left.Goes lost ∧
          ((∃ pick, action = .choose pick) ∧ duel.step = .beginMulligan ∧
            (left.isOver = true ∨ left.step = .beginMulligan) ∨
          ¬ ((∃ pick, action = .choose pick) ∧ duel.step = .beginMulligan) ∧
            (duel.settings.autoRun = true → left.Halted)) :=
      works.mono fun _ left ending =>
        ⟨ending.1, .inr ⟨fun both => absurd both.1.choose_spec (free _), ending.2⟩⟩
    have recordedRunning : recorded.Running lost :=
      ⟨running.sound, running.idle, running.underway⟩
    rcases check_spec accepted with rfl | ⟨replace, options, rfl, pending⟩ |
        ⟨pick, options, rfl, pending⟩ | ⟨noMulligan, noPick, noChoice, acting⟩
    · apply inTurn nofun
      exact ⟨.inl (finished_finish _ _), fun _ => (finished_finish _ _).halted⟩
    · exact inTurn nofun (ensures_mulligan recordedRunning pending)
    · refine (ensures_choose recordedRunning pending).mono fun _ left ending => ⟨ending.1, ?_⟩
      by_cases early : duel.step = .beginMulligan
      · exact .inl ⟨⟨pick, rfl⟩, early, ending.2.1 early⟩
      · exact .inr ⟨fun both => early both.2, ending.2.2 early⟩
    · have sound : recorded.docket.Sound lost := running.sound
      apply inTurn noPick
      cases action with
      | concede => exact ⟨.inl (finished_finish _ _), fun _ => (finished_finish _ _).halted⟩
      | mulligan replace => exact absurd rfl (noMulligan replace)
      | choose pick => exact absurd rfl (noPick pick)
      | endTurn =>
          refine (ensures_enterAndRun rfl (sound.entering
            (Docket.noMulligan_of_noChoice noChoice))).mono fun _ left ended => ?_
          exact ⟨ended.1.goes, ended.2⟩
      | playCard card target position =>
          exact (ensures_playCard sound acting).mono fun _ left played =>
            ⟨played.1.goes, fun _ => played.2⟩
      | attack attacker defender =>
          exact (ensures_runPhases sound acting).mono fun _ left attacked =>
            ⟨attacked.1.goes, fun _ => attacked.2⟩
      | heroPower target =>
          exact (ensures_useHeroPower sound acting).mono fun _ left used =>
            ⟨used.1.goes, fun _ => used.2⟩

end Play

end CardDuel
