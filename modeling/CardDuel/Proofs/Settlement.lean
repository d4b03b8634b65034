import CardDuel.Proofs.Coherence
import CardDuel.Proofs.Rounds

/-!
# What ends with a round of settling

Whatever carries a match on settles it in the end, so a play that succeeds leaves the duel that
some round made.  The exceptions are an advance that finds nothing to advance, which changes
nothing, and a concession, after which there is nothing left to settle.
-/

namespace CardDuel

open Relation

namespace Duel

/-- A duel that comes out of a round. -/
def Settled (start duel : Duel) : Prop :=
  ReflTransGen Change start duel ∧ ∃ before, ReflTransGen Change start before ∧ before.Rounds duel

end Duel

namespace Play

open Duel

variable {start duel : Duel} {allowance : Nat} {player : Player}

/-- Going on from wherever a play leads. -/
theorem Follows.on {α β : Type} {action : Play α} {next : α → Play β}
    {done : β → Duel → Prop} (follows : Follows Change action)
    (reaches : ReflTransGen Change start duel)
    (rest : ∀ value left, ReflTransGen Change start left → (next value).Ensures left done) :
    (action >>= next).Ensures duel done :=
  follows.ensures.bind fun value left reached => rest value left (reaches.trans reached)

/-- Settling ends with a round. -/
theorem ensures_settle_settled (reaches : ReflTransGen Change start duel) :
    (settle allowance).Ensures duel fun _ left => start.Settled left := by
  induction allowance generalizing duel with
  | zero => exact ensures_throw
  | succ allowance ih =>
      unfold settle
      have dies : Follows Change processDeaths := follows_processDeaths
      refine dies.ensures.ran.bind fun _ mid buried => ?_
      have there : ReflTransGen Change start mid.updateAuras :=
        (reaches.trans buried.1).tail (.shift (.stir (.auras mid)))
      have round : start.Settled mid.updateAuras := ⟨there, duel, reaches, mid, buried.2, rfl⟩
      rw [ensures_modify_bind, ensures_get_bind]
      split
      · exact round
      split
      · exact round
      next work agenda next =>
        have works : (doWork work).Ensures { mid.updateAuras with agenda := agenda }
            fun _ => ReflTransGen Change mid.updateAuras :=
          (yields_doWork work.fits_true next).mono (fun _ _ => id) fun _ _ => trivial
        exact works.onFault.bind fun _ left reached => ih (there.trans reached)

theorem ensures_enter_settled {step : Step} (reaches : ReflTransGen Change start duel) :
    (enter allowance step).Ensures duel fun _ left => start.Settled left := by
  have enters : ReflTransGen Change duel (duel.entering step) := Directing.enter duel step
  have works : (stepWork duel.current step).Ensures { duel with step := step }
      fun _ => ReflTransGen Change (duel.entering step) :=
    yields_stepWork_entering.mono (fun _ _ => id) fun _ _ => trivial
  unfold enter
  rw [ensures_modify_bind, ensures_get_bind]
  exact works.bind fun _ _ further =>
    ensures_settle_settled ((reaches.trans enters).trans further)

/-- An advance changes nothing or ends with a round. -/
theorem ensures_advance_settled (reaches : ReflTransGen Change start duel) :
    (advance allowance).Ensures duel fun _ left => left = duel ∨ start.Settled left := by
  unfold advance
  rw [ensures_get_bind]
  split
  · exact .inl rfl
  split
  · exact ensures_violate
  · exact (ensures_enter_settled reaches).bind fun _ _ settled => .inr settled

theorem ensures_advanceWhile_settled {goal : Step → Bool} {count : Nat}
    (reaches : ReflTransGen Change start duel) :
    (advanceWhile allowance goal count).Ensures duel fun _ left =>
      left = duel ∨ start.Settled left := by
  induction count generalizing duel with
  | zero => exact .inl rfl
  | succ count ih =>
      unfold advanceWhile
      rw [ensures_get_bind]
      split
      · exact .inl rfl
      refine (ensures_advance_settled reaches).bind fun advanced left moved => ?_
      split
      · rcases moved with rfl | settled
        · exact ih reaches
        · exact (ih settled.1).mono fun _ last moved => .inr (moved.elim (· ▸ settled) id)
      · exact moved

theorem ensures_advanceTo_settled {target : Step} (reaches : ReflTransGen Change start duel) :
    (advanceTo allowance target).Ensures duel fun _ left => left = duel ∨ start.Settled left := by
  unfold advanceTo
  rw [ensures_get_bind]
  exact ensures_advanceWhile_settled reaches

/-- Running on, if the settings say so, ends with a round when what came before does. -/
theorem ensures_runOn_settled {action : Play Unit} {condition : Duel → Bool}
    (settles : action.Ensures duel fun _ left => start.Settled left) :
    Ensures (do
        action
        let left ← get
        if condition left then
          runToDecision allowance) duel fun _ left => start.Settled left := by
  refine settles.bind fun _ left settled => ?_
  rw [ensures_get_bind]
  split
  · unfold runToDecision
    rw [ensures_get_bind]
    exact (ensures_advanceWhile_settled settled.1).mono fun _ last moved =>
      moved.elim (· ▸ settled) id
  · exact settled

theorem ensures_beginTurns_settled (reaches : ReflTransGen Change start duel) :
    (beginTurns allowance).Ensures duel fun _ left => start.Settled left :=
  ensures_runOn_settled (ensures_enter_settled reaches)

theorem ensures_start_settled (reaches : ReflTransGen Change start duel) :
    (Play.start allowance).Ensures duel fun _ left => start.Settled left := by
  unfold Play.start
  rw [ensures_get_bind]
  split
  · exact ensures_violate
  rw [opening_eq, bind_assoc]
  have drawing : Follows Change (draws allowance) := follows_forM (fun _ => follows_enter) _
  refine drawing.on reaches fun _ dealt reached => ?_
  refine (ensures_enter_settled reached).bind fun _ offered settled => ?_
  rw [ensures_get_bind]
  split
  · exact settled
  · exact ensures_beginTurns_settled settled.1

theorem ensures_runPhases_settled {phases : List Work} (reaches : ReflTransGen Change start duel) :
    (runPhases allowance phases).Ensures duel fun _ left => start.Settled left := by
  unfold runPhases
  rw [ensures_modify_bind]
  exact ensures_settle_settled (reaches.tail (.schedule duel phases))

theorem ensures_playCard_settled {card : EntityId} {target : Option EntityId}
    {position : Option Nat} (reaches : ReflTransGen Change start duel) :
    (playCard allowance player card target position).Ensures duel fun _ left =>
      start.Settled left := by
  unfold playCard
  refine follows_lookup.on reaches fun entity left reached => ?_
  rw [ensures_get_bind]
  refine Follows.on (follows_adjust fun _ => .pay entity) reached fun _ paid reached => ?_
  rw [ensures_get_bind]
  exact follows_placePlayed.on reached fun _ _ => ensures_runPhases_settled

theorem ensures_useHeroPower_settled {target : Option EntityId}
    (reaches : ReflTransGen Change start duel) :
    (useHeroPower allowance player target).Ensures duel fun _ left => start.Settled left := by
  unfold useHeroPower
  rw [ensures_get_bind]
  refine follows_lookup.on reaches fun entity left reached => ?_
  refine Follows.on (follows_adjust fun _ => .spend entity) reached fun _ paid reached => ?_
  refine Follows.on (follows_change (.write 1 (by decide))) reached
    fun _ used reached => ?_
  rw [ensures_get_bind]
  exact ensures_runPhases_settled reached

theorem ensures_mulligan_settled {replace : List EntityId}
    (reaches : ReflTransGen Change start duel) :
    (mulligan allowance player replace).Ensures duel fun _ left => start.Settled left := by
  unfold mulligan
  refine follows_exchange.on reaches fun _ drawn reached => ?_
  rw [ensures_modify_bind]
  refine (ensures_settle_settled (reached.tail (.choose drawn player none))).bind
    fun _ settled settled => ?_
  rw [ensures_get_bind]
  split
  · exact ensures_beginTurns_settled settled.1
  · exact settled

theorem ensures_choose_settled {pick : EntityId} (reaches : ReflTransGen Change start duel) :
    (choose allowance player pick).Ensures duel fun _ left => start.Settled left := by
  unfold choose
  rw [ensures_get_bind]
  split
  · exact ensures_violate
  rw [ensures_modify_bind]
  refine follows_settleOptions.on (reaches.tail (.choose duel player none))
    fun _ sorted reached => ?_
  refine follows_resume.on reached fun _ resumed reached => ?_
  exact ensures_runOn_settled (ensures_settle_settled reached)

/-- An action that succeeds ends with a round, but for a concession. -/
theorem ensures_carryOut_settled {action : Action} (plays : action ≠ .concede)
    (reaches : ReflTransGen Change start duel) :
    (carryOut allowance player action).Ensures duel fun _ left => start.Settled left := by
  cases action with
  | playCard card target position => exact ensures_playCard_settled reaches
  | attack attacker defender => exact ensures_runPhases_settled reaches
  | heroPower target => exact ensures_useHeroPower_settled reaches
  | endTurn => exact ensures_runOn_settled (ensures_enter_settled reaches)
  | mulligan replace => exact ensures_mulligan_settled reaches
  | choose pick => exact ensures_choose_settled reaches
  | concede => exact (plays rfl).elim

end Play

end CardDuel
