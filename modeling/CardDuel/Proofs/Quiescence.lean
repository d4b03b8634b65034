import CardDuel.Proofs.Settlement

/-!
# Quiescence

Every call that succeeds hands a match back that is over or has just gone through a round
of settling.  Nobody on the table is dead then, unless that very round overwhelms somebody:
it is followed by no other one.
-/

namespace CardDuel

open Relation

/-- The calls that carry a match on. -/
def Call.CarriesOn : Call → Prop
  | .start | .take _ _ | .advance => True
  | .advanceTo _ | .give _ _ | .setMana _ _ => False

namespace Duel

/-- A match that is over or comes out of a round. -/
def Rested (start duel : Duel) : Prop :=
  ReflTransGen Change start duel ∧
    (duel.isOver = true ∨ ∃ before, ReflTransGen Change start before ∧ before.Rounds duel)

theorem Settled.rested {start duel : Duel} (settled : start.Settled duel) : start.Rested duel :=
  ⟨settled.1, .inr settled.2⟩

end Duel

namespace Play

open Duel

variable {start duel : Duel} {allowance : Nat} {player : Player}

theorem ensures_advance_rested (rested : start.Rested duel) :
    (advance allowance).Ensures duel fun _ left => start.Rested left :=
  (ensures_advance_settled rested.1).mono fun _ _ moved =>
    moved.elim (· ▸ rested) Settled.rested

/-- An action that succeeds ends with a round, or ends the match. -/
theorem ensures_carryOut_rested {action : Action} (reaches : ReflTransGen Change start duel) :
    (carryOut allowance player action).Ensures duel fun _ left => start.Rested left := by
  by_cases plays : action = .concede
  · rw [plays]
    exact ⟨reaches.tail (.concede duel player), .inl rfl⟩
  · exact (ensures_carryOut_settled plays reaches).mono fun _ _ => Settled.rested

theorem ensures_take_rested {action : Action} (reaches : ReflTransGen Change start duel) :
    (take allowance player action).Ensures duel fun _ left => start.Rested left := by
  unfold take
  rw [ensures_get_bind]
  split
  · exact ensures_throw
  split
  · exact ensures_throw
  rw [ensures_modify_bind]
  exact (ensures_carryOut_rested (reaches.tail (.record duel player action))).onFault

/-- A call that carries the match on leaves it rested, but for an advance of a match that was not. -/
theorem ensures_play_rested {call : Call} (carries : call.CarriesOn)
    (reaches : ReflTransGen Change start duel)
    (begun : call = .advance → start.Rested duel ∨ duel.Fresh) :
    (call.play allowance).Ensures duel fun _ left => start.Rested left := by
  cases call with
  | start => exact (ensures_start_settled reaches).mono fun _ _ => Settled.rested
  | take player action => exact ensures_take_rested reaches
  | advance =>
      apply Ensures.discard
      rcases begun rfl with rested | fresh
      · exact ensures_advance_rested rested
      · -- Before the start there is nothing to advance.
        have step : duel.step = .unstarted := congrArg Docket.step fresh.1
        have quiet : duel.hasChoice = false := hasChoice_of_clear fresh.1
        unfold advance
        rw [ensures_get_bind, if_neg (by simp [isOver, step, quiet]), if_pos (by simp [step])]
        exact ensures_violate
  | _ => exact carries.elim

end Play

namespace Duel

variable {duel after : Duel} {allowance : Nat} {calls : List Call}

theorem rested_of_runs (carry : ∀ call ∈ calls, call.CarriesOn) {start : Duel}
    (rested : start.Rested duel) (runs : duel.Runs allowance calls after) :
    start.Rested after := by
  induction calls generalizing duel with
  | nil =>
      obtain rfl := runs_nil.mp runs
      exact rested
  | cons call calls ih =>
      obtain ⟨left, ran, rest⟩ := runs_cons.mp runs
      have carries := carry call List.mem_cons_self
      refine ih (fun other member => carry other (List.mem_cons_of_mem call member)) ?_ rest
      exact (Play.ensures_play_rested carries rested.1 fun _ => .inl rested).of_ok ran

/-- After one call or more that carry a match on and all succeed, nobody on the table is dead
unless the match is over or the last round overwhelms somebody. -/
theorem quiescent_iff_of_runs {settings : Settings} {catalogue : Catalogue}
    (created : Duel.create settings catalogue = .ok duel) (some' : calls ≠ [])
    (carry : ∀ call ∈ calls, call.CarriesOn) (runs : duel.Runs allowance calls after)
    (running : after.isOver = false) :
    (∃ before, ReflTransGen Change duel before ∧ before.Rounds after) ∧
      ∀ before, ReflTransGen Change duel before → before.Rounds after →
        (after.Quiescent ↔ ∀ player, ∀ id ∈ after.side player, ¬ before.Overwhelms after id) := by
  have armed {left : Duel} (reaches : ReflTransGen Change duel left) :
      left.WellPlaced ∧ left.Armed := by
    obtain ⟨log, logged⟩ := exists_loggedBy created reaches
    exact ⟨logged.placed, fun _ _ => logged.weapon_posted⟩
  constructor
  · obtain ⟨call, calls, rfl⟩ := List.exists_cons_of_ne_nil some'
    obtain ⟨left, ran, rest⟩ := runs_cons.mp runs
    have first : duel.Rested left :=
      (Play.ensures_play_rested (carry call List.mem_cons_self) .refl
        fun _ => .inr (fresh_of_created created)).of_ok ran
    have rested := rested_of_runs (fun other member =>
      carry other (List.mem_cons_of_mem call member)) first rest
    refine rested.2.resolve_left fun ended => ?_
    cases running.symm.trans ended
  · intro before reaches rounds
    exact rounds.quiescent_iff (armed reaches).1 (armed reaches).2 (armed (reaches_of_runs runs)).2
      (slotsFit_of_reaches created reaches) running

/-- Two mages with a minion each, whose first turn ends. -/
theorem quiescent_iff_of_runs_mages :
    ∃ duel after, Duel.create Settings.mages Catalogue.mages = .ok duel ∧
      [Call.start, .take .zero .endTurn] ≠ [] ∧
        (∀ call ∈ [Call.start, .take .zero .endTurn], call.CarriesOn) ∧
          duel.Runs 100 [.start, .take .zero .endTurn] after ∧ after.isOver = false ∧
            (∃ before, ReflTransGen Change duel before ∧ before.Rounds after) ∧
              ∀ before, ReflTransGen Change duel before → before.Rounds after →
                (after.Quiescent ↔
                  ∀ player, ∀ id ∈ after.side player, ¬ before.Overwhelms after id) := by
  obtain ⟨duel, after, created, runs, comes⟩ := exists_of_outcome Settings.mages Catalogue.mages 100
    [.start, .take .zero .endTurn] (fun after => !after.isOver) (by decide +kernel)
  have running : after.isOver = false := by simpa using comes
  have some' : [Call.start, .take .zero .endTurn] ≠ [] := List.cons_ne_nil _ _
  have carry : ∀ call ∈ [Call.start, .take .zero .endTurn], call.CarriesOn := by
    intro call member
    rcases List.mem_cons.mp member with rfl | member
    · trivial
    · rw [List.mem_singleton.mp member]
      trivial
  exact ⟨duel, after, created, some', carry, runs, running,
    quiescent_iff_of_runs created some' carry runs running⟩

end Duel

/-! ## A blessing that goes -/

/-- A priest that blesses another minion with one health, wounds it by one, and is destroyed by its
own trigger; the blessing is linked to it. -/
def Catalogue.priests : Catalogue :=
  .ofEntries
    [⟨Card.hero ⟨1⟩ "HERO" "" .mage 30 "POWER", Behaviour.none⟩,
      ⟨Card.power ⟨2⟩ "POWER" "" 2, Behaviour.none⟩,
      ⟨Card.minion ⟨3⟩ "WISP" "" 0 1 1, Behaviour.none⟩,
      ⟨Card.minion ⟨4⟩ "PRIEST" "" 0 1 1,
        { Behaviour.none with
          effects := [.enchant "BLESSING" .minionsExceptSource,
            .damage .minionsExceptSource 1 false]
          trigger := some ⟨.afterSummon, .self, [.destroy .source], none, false, .play⟩ }⟩,
      ⟨Card.enchantment ⟨5⟩ "BLESSING" "",
        { Behaviour.none with enchant := some { Modifier.none with health := 1, linked := true } }⟩]
    [(.mage, ⟨1⟩)] (by decide) (by decide)

/-- Player zero draws the wisp and then the priest. -/
def Settings.priests : Settings :=
  { Settings.standard with decks := [["PRIEST", "WISP"], []], shuffleDecks := false }

/-- When the priest is buried its blessing goes, and the wisp is handed back dead. -/
theorem Duel.not_quiescent_priests :
    ∃ duel after, Duel.create Settings.priests Catalogue.priests = .ok duel ∧
      duel.Runs 100 [.start, .take .zero (.play ⟨5⟩), .take .zero (.play ⟨4⟩)] after ∧
        after.isOver = false ∧ ¬ after.Quiescent := by
  obtain ⟨duel, after, created, runs, comes⟩ :=
    exists_of_outcome Settings.priests Catalogue.priests 100
      [.start, .take .zero (.play ⟨5⟩), .take .zero (.play ⟨4⟩)]
      (fun after => !after.isOver && (after.field .zero).contains ⟨5⟩ && after.isDead ⟨5⟩)
      (by decide +kernel)
  simp only [Bool.and_eq_true, Bool.not_eq_true'] at comes
  obtain ⟨⟨running, stands⟩, dead⟩ := comes
  refine ⟨duel, after, created, runs, running, fun quiet => ?_⟩
  have alive := quiet.minions .zero ⟨5⟩ (List.contains_iff_mem.mp stands)
  cases dead.symm.trans alive

end CardDuel
