import CardDuel.Proofs.Course

/-!
# What a duel waits for

The docket of a duel is what it waits for: the pending choices, the list that is put
aside and the step.  It is sound when a list is put aside exactly behind a discovery of
its controller.  One thing spoils that: offering the mulligan while a list is put aside
overwrites the discovery that would resume it.  Such a list is lost, and the docket
stays sound but for the discovery.
-/

namespace CardDuel

open Relation

/-- What a duel waits for. -/
structure Docket where
  choices : PerPlayer (Option Choice)
  suspended : Option Resolution
  step : Step

namespace Docket

/-- Whether a player has a discovery to make. -/
def Discovers (docket : Docket) (player : Player) : Prop :=
  ∃ options, docket.choices.get player = some ⟨.discover, options⟩

/-- What the parts of a docket say of each other, where `lost` tells whether the discovery that
would resume the list was overwritten. -/
structure Sound (docket : Docket) (lost : Prop) : Prop where
  /-- A discovery is pending for the controller of the list that waits, unless it was lost. -/
  linked : ∀ player, docket.Discovers player ↔
    ¬ lost ∧ ∃ rest, docket.suspended = some rest ∧ rest.context.controller = player
  parked : lost → docket.suspended.isSome = true
  /-- A discovery has something to offer. -/
  offered : ∀ player options, docket.choices.get player = some ⟨.discover, options⟩ →
    options ≠ []
  /-- The mulligan is offered in its step only. -/
  early : ∀ player options, docket.choices.get player = some ⟨.mulligan, options⟩ →
    docket.step = .beginMulligan

/-- Nothing is awaited at a step. -/
def clear (step : Step) : Docket :=
  ⟨PerPlayer.const none, none, step⟩

/-- The same docket in another step. -/
def entering (docket : Docket) (step : Step) : Docket :=
  { docket with step := step }

/-- Whether a player has a choice. -/
def HasChoice (docket : Docket) : Prop :=
  ∃ player choice, docket.choices.get player = some choice

variable {docket : Docket} {lost : Prop} {step : Step}

theorem sound_clear : (clear step).Sound False where
  linked player := by
    constructor
    · rintro ⟨options, pending⟩
      rw [clear, PerPlayer.get_const] at pending
      cases pending
    · rintro ⟨-, rest, waiting, -⟩
      cases waiting
  parked := False.elim
  offered player options pending := by
    rw [clear, PerPlayer.get_const] at pending
    cases pending
  early player options pending := by
    rw [clear, PerPlayer.get_const] at pending
    cases pending

/-- Past the mulligan step, or without a mulligan that is pending, the step does not matter. -/
theorem Sound.entering (sound : docket.Sound lost)
    (noMulligan : ∀ player options, docket.choices.get player ≠ some ⟨.mulligan, options⟩) :
    (docket.entering step).Sound lost where
  linked := sound.linked
  parked := sound.parked
  offered := sound.offered
  early player options pending := absurd pending (noMulligan player options)

theorem Sound.noMulligan (sound : docket.Sound lost) (away : docket.step ≠ .beginMulligan)
    (player : Player) (options : List EntityId) :
    docket.choices.get player ≠ some ⟨.mulligan, options⟩ :=
  fun pending => away (sound.early player options pending)

theorem noMulligan_of_noChoice (noChoice : ¬ docket.HasChoice) (player : Player)
    (options : List EntityId) : docket.choices.get player ≠ some ⟨.mulligan, options⟩ :=
  fun pending => noChoice ⟨player, _, pending⟩

/-- A list is put aside behind a discovery of its controller. -/
theorem Sound.park (sound : docket.Sound False) (idle : docket.suspended = none)
    {rest : Resolution} {options : List EntityId} (offered : options ≠ []) :
    Sound
      { docket with
        choices := docket.choices.set rest.context.controller (some ⟨.discover, options⟩)
        suspended := some rest } False where
  linked player := by
    unfold Discovers
    rw [PerPlayer.get_set]
    by_cases own : player = rest.context.controller
    · rw [if_pos own]
      exact iff_of_true ⟨options, rfl⟩ ⟨not_false, rest, rfl, own.symm⟩
    · rw [if_neg own]
      refine iff_of_false (fun pending => ?_) fun ⟨_, other, waiting, controls⟩ => ?_
      · obtain ⟨-, other, waiting, -⟩ := (sound.linked player).mp pending
        rw [idle] at waiting
        cases waiting
      · cases waiting
        exact own controls.symm
  parked := False.elim
  offered player others pending := by
    rw [PerPlayer.get_set] at pending
    split at pending
    · cases pending
      exact offered
    · exact sound.offered player others pending
  early player others pending := by
    rw [PerPlayer.get_set] at pending
    split at pending
    · cases pending
    · exact sound.early player others pending

end Docket

namespace Duel

/-- What the duel waits for. -/
def docket (duel : Duel) : Docket :=
  ⟨duel.choices, duel.suspended, duel.step⟩

theorem docket_eq {before after : Duel} (same : after.control = before.control) :
    after.docket = before.docket :=
  congrArg (fun control : Control =>
    (⟨control.choices, control.suspended, control.step⟩ : Docket)) same

/-- The match has ended and nothing is left to do. -/
def Finished (duel : Duel) : Prop :=
  duel.docket = .clear .finalGameOver ∧ duel.agenda = Agenda.empty

/-- Nothing is left to do now, unless a list is put aside. -/
def Idle (duel : Duel) : Prop :=
  duel.suspended = none → duel.agenda = Agenda.empty

theorem finished_finish (duel : Duel) (losers : List Player) : (duel.finish losers).Finished :=
  ⟨rfl, rfl⟩

theorem Finished.isOver {duel : Duel} (finished : duel.Finished) : duel.isOver = true :=
  decide_eq_true (congrArg Docket.step finished.1)

theorem isOver_congr {before after : Duel} (same : after.docket = before.docket) :
    after.isOver = before.isOver := by
  unfold isOver
  rw [show after.step = before.step from congrArg Docket.step same]

theorem next?_eq_none {agenda : Agenda} (nothing : agenda.next? = none) :
    agenda = Agenda.empty := by
  rcases agenda with ⟨phases, reactions⟩
  cases reactions <;> cases phases <;> first | rfl | cases nothing

/-- A list that runs while nothing is put aside leaves a sound docket, in the same step. -/
theorem Ran.sound {controller : Player} {before after : Duel} (ran : Ran controller before after)
    (sound : before.docket.Sound False) (idle : before.suspended = none) :
    after.docket.Sound False ∧ after.step = before.step := by
  cases ran with
  | ended shifts =>
      have same := docket_eq (Shift.controls shifts)
      rw [same]
      exact ⟨sound, congrArg Docket.step same⟩
  | @waits middle options rest shifts offered own =>
      have same := docket_eq (Shift.controls shifts)
      have soundMiddle : middle.docket.Sound False := by
        rw [same]
        exact sound
      have idleMiddle : middle.docket.suspended = none :=
        (congrArg Docket.suspended same).trans idle
      subst own
      exact ⟨soundMiddle.park idleMiddle offered, congrArg Docket.step same⟩

end Duel

namespace Play

open Duel

variable {α : Type} {action : Play α} {duel : Duel} {lost : Prop} {allowance : Nat}

theorem Follows.docket (follows : Follows Shift action) :
    action.Ensures duel fun _ left => left.docket = duel.docket :=
  Yields.mono (follows duel) (fun _ _ shifts => docket_eq (Shift.controls shifts))
    fun _ _ => trivial

theorem ensures_processDeaths :
    processDeaths.Ensures duel fun _ left => left.docket = duel.docket ∨ left.Finished := by
  unfold processDeaths
  rw [ensures_get_bind]
  split
  · exact .inl rfl
  let marked := duel.markFallen duel.deadMinions
  change Ensures (do
    (duel.deadMinions.map Prod.fst ++ duel.deadWeapons).forM bury
    modify fun duel => if duel.defeated.isEmpty then duel else duel.finish duel.defeated)
    marked _
  apply (follows_forM (fun _ => follows_bury) _).docket.bind
  intro _ left same
  change (if left.defeated.isEmpty then left else left.finish left.defeated).docket = _ ∨
    Duel.Finished (if left.defeated.isEmpty then left else left.finish left.defeated)
  split
  · exact .inl same
  · exact .inr (finished_finish left left.defeated)

theorem ensures_resolve {resolution : Resolution} (sound : duel.docket.Sound False)
    (idle : duel.suspended = none) :
    (discard (resolve resolution)).Ensures duel fun _ left =>
      left.docket.Sound False ∧ left.step = duel.step :=
  Ensures.discard (Yields.mono (yields_resolve resolution duel)
    (fun _ _ ran => ran.sound sound idle) fun _ _ => trivial)

theorem Follows.sound {β : Type} {next : α → Play β} (first : Follows Shift action)
    (sound : duel.docket.Sound False) (idle : duel.suspended = none)
    (second : ∀ value left, left.docket.Sound False → left.suspended = none →
      (next value).Ensures left fun _ last => last.docket.Sound False ∧ last.step = left.step) :
    (action >>= next).Ensures duel fun _ last =>
      last.docket.Sound False ∧ last.step = duel.step := by
  apply first.docket.bind
  intro value left same
  have soundLeft : left.docket.Sound False := by
    rw [same]
    exact sound
  have idleLeft : left.suspended = none := (congrArg Docket.suspended same).trans idle
  refine (second value left soundLeft idleLeft).mono fun _ last kept => ⟨kept.1, ?_⟩
  exact kept.2.trans (congrArg Docket.step same)

theorem Follows.keepsSound {action : Play Unit} (follows : Follows Shift action)
    (sound : duel.docket.Sound False) :
    action.Ensures duel fun _ left => left.docket.Sound False ∧ left.step = duel.step := by
  apply follows.docket.mono
  intro _ left same
  rw [same]
  exact ⟨sound, congrArg Docket.step same⟩

theorem ensures_fireTrigger {trigger : TriggerId} {event : Event}
    (sound : duel.docket.Sound False) (idle : duel.suspended = none) :
    (fireTrigger trigger event).Ensures duel fun _ left =>
      left.docket.Sound False ∧ left.step = duel.step := by
  unfold fireTrigger
  rw [ensures_get_bind]
  split
  · exact ⟨sound, rfl⟩
  next live found =>
    have shows (duel : Duel) (sound : duel.docket.Sound False) (idle : duel.suspended = none) :
        Ensures (do
          if live.rule.zone = .secret then send live.owner .graveyard
          discard (resolve (Resolution.ofEffects live.rule.effects
            ⟨live.controller, live.owner, event.target, some event⟩))) duel fun _ left =>
          left.docket.Sound False ∧ left.step = duel.step := by
      dsimp only
      split
      · exact follows_send.sound sound idle fun _ left soundLeft idleLeft =>
          ensures_resolve soundLeft idleLeft
      · exact ensures_resolve sound idle
    dsimp only at shows ⊢
    split
    · exact shows { duel with triggers := duel.triggers.unregister trigger } sound idle
    · exact shows duel sound idle

theorem ensures_doWork {work : Work} (sound : duel.docket.Sound False)
    (idle : duel.suspended = none) :
    (doWork work).Ensures duel fun _ left =>
      left.docket.Sound False ∧ left.step = duel.step := by
  cases work with
  | run resolution => exact ensures_resolve sound idle
  | trigger trigger event => exact ensures_fireTrigger sound idle
  | announce event => exact follows_announcing.keepsSound sound
  | bury spell =>
      apply follows_lookup.sound sound idle
      intro entity left soundLeft _
      split
      · exact follows_send.keepsSound soundLeft
      · exact ⟨soundLeft, rfl⟩

/-- Settling ends the match, or leaves a sound docket in the same step and nothing to do. -/
theorem ensures_settle (sound : duel.docket.Sound lost) (running : duel.isOver = false) :
    (settle allowance).Ensures duel fun _ left =>
      left.Finished ∨ left.docket.Sound lost ∧ left.step = duel.step ∧ left.Idle := by
  induction allowance generalizing duel with
  | zero => exact ensures_throw
  | succ allowance ih =>
      apply ensures_processDeaths.bind
      intro _ buried ended
      rw [ensures_modify_bind, ensures_get_bind]
      rcases ended with same | finished
      · have tidied : buried.updateAuras.docket = duel.docket := same
        have soundTidied : buried.updateAuras.docket.Sound lost := by
          rw [tidied]
          exact sound
        have stillRunning : buried.updateAuras.isOver = false :=
          (isOver_congr tidied).trans running
        have sameStep : buried.updateAuras.step = duel.step := congrArg Docket.step tidied
        by_cases waiting : buried.updateAuras.suspended = none
        · rw [if_neg (by simp [stillRunning, waiting])]
          split
          next nothing => exact .inr ⟨soundTidied, sameStep, fun _ => next?_eq_none nothing⟩
          next work rest next =>
            have kept : ¬ lost := fun isLost => by
              have parked := soundTidied.parked isLost
              rw [show buried.updateAuras.docket.suspended = none from waiting] at parked
              cases parked
            obtain rfl : lost = False := eq_false kept
            let begun : Duel := { buried.updateAuras with agenda := rest }
            have worked : (doWork work).Ensures begun fun _ left =>
                left.docket.Sound False ∧ left.step = begun.step :=
              ensures_doWork soundTidied waiting
            change Ensures (do onFault (doWork work) Duel.clearAgenda; settle allowance) begun _
            apply worked.onFault.bind
            rintro _ done ⟨soundDone, stepDone⟩
            have step : done.step = duel.step := stepDone.trans sameStep
            have doneRunning : done.isOver = false := by
              unfold isOver at running ⊢
              rw [step]
              exact running
            apply (ih soundDone doneRunning).mono
            intro _ left ending
            exact ending.imp_right fun ⟨soundLeft, same, idle⟩ => ⟨soundLeft, same.trans step, idle⟩
        · rw [if_pos (by simp [Option.isSome_iff_ne_none, waiting])]
          exact .inr ⟨soundTidied, sameStep, fun nothing => absurd nothing waiting⟩
      · have isOver : buried.updateAuras.isOver = true := finished.isOver
        rw [if_pos (by rw [isOver]; rfl)]
        exact .inl finished

end Play

end CardDuel
