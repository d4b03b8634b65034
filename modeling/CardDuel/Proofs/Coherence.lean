import CardDuel.Proofs.Calls
import CardDuel.Proofs.Requests
import Mathlib.Logic.ExistsUnique

/-!
# Coherence of what is put aside

A list is put aside exactly while one player has a discovery to make, and nothing else is
left to do.  Successful calls keep it so, with one exception: a start that offers the
mulligan over a discovery of the opening draw.  The list behind that discovery is never
taken up again, and with it stands whatever is scheduled.
-/

namespace CardDuel

open Relation

namespace Duel

/-- What is put aside, the discoveries and the scheduled work of a duel say the same. -/
structure Coherent (duel : Duel) : Prop where
  /-- A list is put aside exactly when one player has a discovery to make. -/
  linked : duel.suspended.isSome = true ↔
    ∃! player, ∃ options, duel.choice? player = some ⟨.discover, options⟩
  /-- Nothing is scheduled unless a list is put aside. -/
  idle : duel.suspended = none → duel.agenda = Agenda.empty

/-- A match that has not started awaits nothing and has nothing to do. -/
def Fresh (duel : Duel) : Prop :=
  duel.docket = .clear .unstarted ∧ duel.agenda = Agenda.empty

/-- Whether one of the calls is a start that loses a discovery. -/
def LosesAmong (duel : Duel) (allowance : Nat) (calls : List Call) : Prop :=
  ∃ earlier later begun, calls = earlier ++ .start :: later ∧
    duel.Runs allowance earlier begun ∧ begun.LosesDiscovery allowance

variable {duel after : Duel} {lost : Prop} {allowance : Nat} {call : Call} {calls : List Call}

theorem fresh_of_created {settings : Settings} {catalogue : Catalogue}
    (created : Duel.create settings catalogue = .ok duel) : duel.Fresh := by
  obtain ⟨bare, begun, quiets⟩ := create_quiet created
  have docket : duel.docket = bare.docket := docket_eq (Shift.controls (Quiet.shifts quiets))
  have agenda : duel.agenda = bare.agenda := Quiet.agenda quiets
  obtain ⟨first, dice, zero, one, rfl⟩ := bare_eq begun
  exact ⟨docket, agenda⟩

/-- Without a discovery and without a list that is put aside, a duel with nothing to do is
coherent. -/
theorem coherent_of_clear {step : Step} (clear : duel.docket = .clear step)
    (empty : duel.agenda = Agenda.empty) : duel.Coherent where
  linked := by
    have nothing : duel.suspended = none := congrArg Docket.suspended clear
    have choices : duel.choices = PerPlayer.const none := congrArg Docket.choices clear
    rw [nothing]
    apply iff_of_false Bool.false_ne_true
    rintro ⟨player, ⟨options, pending⟩, -⟩
    rw [choice?, choices, PerPlayer.get_const] at pending
    cases pending
  idle _ := empty

theorem Running.coherent_iff (running : duel.Running lost) : duel.Coherent ↔ ¬ lost := by
  constructor
  · intro coherent isLost
    obtain ⟨player, discovers, -⟩ := coherent.linked.mp (running.sound.parked isLost)
    exact ((running.sound.linked player).mp discovers).1 isLost
  · intro kept
    refine ⟨?_, running.idle⟩
    rw [Option.isSome_iff_exists]
    constructor
    · rintro ⟨rest, waits⟩
      refine ⟨rest.context.controller, (running.sound.linked _).mpr ⟨kept, rest, waits, rfl⟩, ?_⟩
      intro other discovers
      obtain ⟨-, same, alike, controls⟩ := (running.sound.linked other).mp discovers
      cases waits.symm.trans alike
      exact controls.symm
    · rintro ⟨player, discovers, -⟩
      obtain ⟨-, rest, waits, -⟩ := (running.sound.linked player).mp discovers
      exact ⟨rest, waits⟩

theorem Goes.coherent_iff (goes : duel.Goes lost) :
    duel.Coherent ↔ duel.isOver = true ∨ ¬ lost := by
  rcases goes with finished | running
  · exact iff_of_true (coherent_of_clear finished.1 finished.2) (.inl finished.isOver)
  · rw [running.coherent_iff, running.isOver]
    simp

end Duel

namespace Play

open Duel

variable {duel : Duel} {lost : Prop} {allowance : Nat} {call : Call}

theorem Follows.quiet {α : Type} {action : Play α} (follows : Follows Quiet action) :
    action.Ensures duel fun _ left => left.docket = duel.docket ∧ left.agenda = duel.agenda :=
  Yields.mono (follows duel)
    (fun _ _ quiets => ⟨docket_eq (Shift.controls (Quiet.shifts quiets)), Quiet.agenda quiets⟩)
    fun _ _ => trivial

/-- A call that succeeds keeps a match going, and it is no start. -/
theorem ensures_play (goes : duel.Goes lost) :
    (call.play allowance).Ensures duel fun _ left => call ≠ .start ∧ left.Goes lost := by
  have same {left : Duel} (quiet : left.docket = duel.docket ∧ left.agenda = duel.agenda) :
      left.Goes lost := by
    have step : left.step = duel.step := congrArg Docket.step quiet.1
    refine goes.imp (fun finished => ?_) fun running => ?_
    · exact ⟨quiet.1.trans finished.1, quiet.2.trans finished.2⟩
    · refine ⟨?_, fun nothing => ?_, ?_⟩
      · rw [quiet.1]
        exact running.sound
      · exact quiet.2.trans (running.idle ((congrArg Docket.suspended quiet.1).symm.trans nothing))
      · rw [step]
        exact running.underway
  cases call with
  | start =>
      change (start allowance).Ensures duel _
      have started : duel.step ≠ .unstarted := by
        rcases goes with finished | running
        · rw [show duel.step = .finalGameOver from of_decide_eq_true finished.isOver]
          decide
        · rcases running.underway with mulligan | turn
          · rw [mulligan]
            decide
          · exact (Step.away_of_isTurn turn).1
      unfold start
      rw [ensures_get_bind, if_pos started]
      exact ensures_violate
  | take player action =>
      exact (ensures_take goes).mono fun _ left taken => ⟨nofun, taken.1⟩
  | advance =>
      refine Ensures.discard ((ensures_advance goes).mono fun _ left advanced => ⟨nofun, ?_⟩)
      rcases advanced with ⟨-, rfl, -⟩ | ⟨-, -, -, goesLeft, -⟩
      · exact goes
      · exact goesLeft.goes
  | advanceTo target =>
      change (advanceTo allowance target).Ensures duel _
      unfold advanceTo
      rw [ensures_get_bind]
      exact (ensures_advanceWhile (fun _ => id) (fun _ => GoesInTurn.goes) goes).mono
        fun _ left goesLeft => ⟨nofun, goesLeft⟩
  | give player code =>
      exact Ensures.discard (follows_give.quiet.mono fun _ left quiet => ⟨nofun, same quiet⟩)
  | setMana player total => exact ⟨nofun, same ⟨rfl, rfl⟩⟩

/-- Before the start nothing can be done but giving up. -/
theorem ensures_play_of_fresh (fresh : duel.Fresh) (other : call ≠ .start) :
    (call.play allowance).Ensures duel fun _ left => left.Fresh ∨ left.Finished := by
  have unstarted : duel.step = .unstarted := congrArg Docket.step fresh.1
  have noChoice (player : Player) : duel.choice? player = none := by
    rw [choice?, show duel.choices = PerPlayer.const none from congrArg Docket.choices fresh.1]
    exact PerPlayer.get_const none player
  have noAdvance : (advance allowance).Ensures duel fun _ _ => False := by
    unfold advance
    rw [ensures_get_bind, if_neg (by simp [isOver, hasChoice, noChoice, unstarted]),
      if_pos (by simp [unstarted])]
    exact ensures_violate
  cases call with
  | start => exact absurd rfl other
  | take player action =>
      change (take allowance player action).Ensures duel _
      unfold take
      rw [ensures_get_bind, if_neg (by simp [isOver, unstarted])]
      split
      · exact ensures_throw
      next accepted =>
        rcases check_spec accepted with rfl | ⟨_, _, _, pending⟩ | ⟨_, _, _, pending⟩ |
            ⟨-, -, -, acting⟩
        · exact .inr (finished_finish _ _)
        · cases (noChoice player).symm.trans pending
        · cases (noChoice player).symm.trans pending
        · cases unstarted.symm.trans acting
  | advance => exact Ensures.discard (noAdvance.mono fun _ _ => False.elim)
  | advanceTo target =>
      change (advanceTo allowance target).Ensures duel _
      unfold advanceTo advanceWhile
      rw [ensures_get_bind, ensures_get_bind]
      split
      · exact .inl fresh
      · exact noAdvance.bind fun _ _ => False.elim
  | give player code =>
      exact Ensures.discard (follows_give.quiet.mono fun _ left quiet =>
        .inl ⟨quiet.1.trans fresh.1, quiet.2.trans fresh.2⟩)
  | setMana player total => exact .inl fresh

end Play

namespace Duel

variable {duel after : Duel} {lost : Prop} {allowance : Nat} {call : Call} {calls : List Call}

theorem Goes.of_runs (goes : duel.Goes lost) (runs : duel.Runs allowance calls after) :
    after.Goes lost ∧ .start ∉ calls := by
  induction calls generalizing duel with
  | nil =>
      obtain rfl := runs_nil.mp runs
      exact ⟨goes, List.not_mem_nil⟩
  | cons call calls ih =>
      obtain ⟨left, ran, rest⟩ := runs_cons.mp runs
      obtain ⟨other, goesLeft⟩ := (Play.ensures_play goes).of_ok ran
      obtain ⟨goesAfter, noStart⟩ := ih goesLeft rest
      refine ⟨goesAfter, fun member => ?_⟩
      rcases List.mem_cons.mp member with same | later
      · exact other same.symm
      · exact noStart later

theorem not_losesAmong (noStart : .start ∉ calls) : ¬ duel.LosesAmong allowance calls := by
  rintro ⟨earlier, later, begun, rfl, -, -⟩
  exact noStart (List.mem_append_right earlier List.mem_cons_self)

theorem losesAmong_start (noStart : .start ∉ calls) :
    duel.LosesAmong allowance (.start :: calls) ↔ duel.LosesDiscovery allowance := by
  constructor
  · rintro ⟨earlier, later, begun, split, runs, loses⟩
    cases earlier with
    | nil =>
        obtain rfl := runs_nil.mp runs
        exact loses
    | cons call earlier =>
        obtain ⟨-, rest⟩ := List.cons.inj split
        refine absurd ?_ noStart
        rw [rest]
        exact List.mem_append_right earlier List.mem_cons_self
  · exact fun loses => ⟨[], calls, duel, rfl, runs_nil.mpr rfl, loses⟩

theorem losesAmong_cons {left : Duel} (other : call ≠ .start)
    (ran : call.play allowance duel = .ok () left) :
    duel.LosesAmong allowance (call :: calls) ↔ left.LosesAmong allowance calls := by
  constructor
  · rintro ⟨earlier, later, begun, split, runs, loses⟩
    cases earlier with
    | nil => exact absurd (List.cons.inj split).1 other
    | cons first earlier =>
        obtain ⟨rfl, rest⟩ := List.cons.inj split
        obtain ⟨middle, ranFirst, runs⟩ := runs_cons.mp runs
        cases ran.symm.trans ranFirst
        exact ⟨earlier, later, begun, rest, runs, loses⟩
  · rintro ⟨earlier, later, begun, rfl, runs, loses⟩
    exact ⟨call :: earlier, later, begun, rfl, runs_cons.mpr ⟨left, ran, runs⟩, loses⟩

/-- Calls that succeed leave a match unstarted, or going with a discovery lost exactly when one of
them is a start that loses it. -/
theorem Fresh.of_runs (fresh : duel.Fresh) (runs : duel.Runs allowance calls after) :
    after.Fresh ∧ .start ∉ calls ∨ after.Goes (duel.LosesAmong allowance calls) := by
  induction calls generalizing duel with
  | nil =>
      obtain rfl := runs_nil.mp runs
      exact .inl ⟨fresh, List.not_mem_nil⟩
  | cons call calls ih =>
      obtain ⟨left, ran, rest⟩ := runs_cons.mp runs
      by_cases starts : call = .start
      · subst starts
        have goes : left.Goes (duel.LosesDiscovery allowance) :=
          ((Play.ensures_start fresh.1).of_ok ran).1
        obtain ⟨goesAfter, noStart⟩ := goes.of_runs rest
        rw [propext (losesAmong_start noStart)]
        exact .inr goesAfter
      · rw [propext (losesAmong_cons starts ran)]
        rcases (Play.ensures_play_of_fresh fresh starts).of_ok ran with freshLeft | finished
        · refine (ih freshLeft rest).imp_left fun ⟨freshAfter, noStart⟩ => ⟨freshAfter, ?_⟩
          exact fun member => (List.mem_cons.mp member).elim (fun same => starts same.symm) noStart
        · have goes : left.Goes False := .inl finished
          obtain ⟨goesAfter, noStart⟩ := goes.of_runs rest
          rw [eq_false (not_losesAmong noStart)]
          exact .inr goesAfter

/-- After calls that succeed a duel is coherent, unless one of them was a start that lost a
discovery and the match is not over yet. -/
theorem coherent_iff_of_runs {settings : Settings} {catalogue : Catalogue}
    (created : Duel.create settings catalogue = .ok duel)
    (runs : duel.Runs allowance calls after) :
    after.Coherent ↔ after.isOver = true ∨ ¬ duel.LosesAmong allowance calls := by
  rcases (fresh_of_created created).of_runs runs with ⟨fresh, noStart⟩ | goes
  · exact iff_of_true (coherent_of_clear fresh.1 fresh.2) (.inr (not_losesAmong noStart))
  · exact goes.coherent_iff

/-- Two mages with a minion each, through a turn that ends. -/
theorem coherent_iff_of_runs_mages :
    ∃ duel after, Duel.create Settings.mages Catalogue.mages = .ok duel ∧
      duel.Runs 100 [.start, .take .zero .endTurn] after ∧
        (after.Coherent ↔
          after.isOver = true ∨ ¬ duel.LosesAmong 100 [.start, .take .zero .endTurn]) := by
  obtain ⟨duel, after, created, runs, -⟩ := exists_of_outcome Settings.mages Catalogue.mages 100
    [.start, .take .zero .endTurn] (fun _ => true) (by decide +kernel)
  exact ⟨duel, after, created, runs, coherent_iff_of_runs created runs⟩

/-- A list that waits while both players have the mulligan to answer is not coherent. -/
theorem not_coherent_of_mulligans (waits : duel.suspended.isSome = true)
    (mulligans : ∀ player, (duel.choice? player).map Choice.kind = some .mulligan) :
    ¬ duel.Coherent := by
  intro coherent
  obtain ⟨player, ⟨options, pending⟩, -⟩ := coherent.linked.mp waits
  have mulligan := mulligans player
  rw [pending] at mulligan
  cases mulligan

end Duel

/-- A mage that discovers a minion when the first card is drawn, its hero power and a minion. -/
def Catalogue.seekers : Catalogue :=
  .ofEntries
    [⟨Card.hero ⟨1⟩ "HERO" "" .mage 30 "POWER",
        { Behaviour.none with
          trigger := some ⟨.drawCard, .everyone, [.discover .minion .unset], none, true, .play⟩ }⟩,
      ⟨Card.power ⟨2⟩ "POWER" "" 2, Behaviour.none⟩,
      ⟨{ Card.minion ⟨3⟩ "WISP" "" 0 1 1 with collectible := true }, Behaviour.none⟩]
    [(.mage, ⟨1⟩)] (by decide) (by decide)

/-- Two seekers with six minions each, in order. -/
def Settings.seekers : Settings :=
  { Settings.standard with
    decks := [List.replicate 6 "WISP", List.replicate 6 "WISP"]
    shuffleDecks := false }

/-- When seekers are offered the mulligan, it takes the place of their discoveries. -/
theorem Duel.not_coherent_seekers :
    ∃ duel after,
      Duel.create { Settings.seekers with skipMulligan := false } Catalogue.seekers = .ok duel ∧
        duel.Runs 100 [.start] after ∧ ¬ after.Coherent := by
  obtain ⟨duel, after, created, runs, comes⟩ :=
    exists_of_outcome { Settings.seekers with skipMulligan := false } Catalogue.seekers 100
      [.start] (fun after => after.suspended.isSome && Player.both.all fun player =>
        decide ((after.choice? player).map Choice.kind = some .mulligan)) (by decide +kernel)
  rw [Bool.and_eq_true, List.all_eq_true] at comes
  refine ⟨duel, after, created, runs, not_coherent_of_mulligans comes.1 fun player => ?_⟩
  exact of_decide_eq_true (comes.2 player player.mem_both)

end CardDuel
