import CardDuel.Proofs.Finality
import CardDuel.Proofs.Interruptions

/-!
# The way on after an action that is broken off

A card can break an action off at any point, and the match stays where it was then.  In the cycle
of a turn it can be advanced from there to the next decision as long as the work of its steps comes
to an end: a step whose work is broken off again has been entered all the same.  An opening whose
last answer is broken off has no way on.
-/

namespace CardDuel

open Relation

namespace Step

theorem distance_le (step : Step) : step.distance ≤ 8 := by
  cases step <;> decide

end Step

namespace Duel

variable {duel after left : Duel} {allowance later : Nat} {player : Player} {action : Action}

/-- Some player can do something else than give up. -/
def Playable (duel : Duel) : Prop :=
  ∃ player action, action ≠ .concede ∧ duel.check player action = .ok ()

/-- Only a choice or the action phase lets somebody do something else than give up. -/
theorem Playable.decides (playable : duel.Playable) :
    duel.hasChoice = true ∨ duel.step = .mainAction := by
  obtain ⟨player, action, plays, accepted⟩ := playable
  rcases check_spec accepted with
    concedes | ⟨_, options, _, pending⟩ | ⟨_, options, _, pending⟩ | ⟨_, _, _, acting⟩
  · exact absurd concedes plays
  · exact .inl (hasChoice_iff.mpr ⟨player, _, pending⟩)
  · exact .inl (hasChoice_iff.mpr ⟨player, _, pending⟩)
  · exact .inr acting

/-- Replacing nothing answers every mulligan, and a discovery offers something to take. -/
theorem playable_iff (ongoing : duel.Ongoing) :
    duel.Playable ↔ duel.hasChoice = true ∨ duel.step = .mainAction := by
  constructor
  · exact Playable.decides
  · intro decides
    by_cases choosing : duel.hasChoice = true
    · obtain ⟨player, ⟨kind, options⟩, pending⟩ := hasChoice_iff.mp choosing
      cases kind with
      | mulligan =>
          have plays : Action.mulligan [] ≠ .concede := by simp
          refine ⟨player, .mulligan [], plays, ?_⟩
          rw [check_answer pending plays]
          rfl
      | discover =>
          obtain ⟨pick, rest, rfl⟩ :=
            List.exists_cons_of_ne_nil (ongoing.1.offered player options pending)
          have plays : Action.choose pick ≠ .concede := by simp
          refine ⟨player, .choose pick, plays, ?_⟩
          rw [check_answer pending plays]
          simp [checkAnswer]
    · have acting : duel.step = .mainAction := decides.resolve_left choosing
      have noChoice : duel.choice? duel.current = none := by
        cases pending : duel.choice? duel.current with
        | none => rfl
        | some choice => exact absurd (hasChoice_iff.mpr ⟨_, choice, pending⟩) choosing
      refine ⟨duel.current, .endTurn, by simp, ?_⟩
      unfold check
      rw [noChoice]
      exact checkTurn_iff.mpr ⟨Bool.eq_false_iff.mpr choosing, rfl, acting⟩

/-- How a match comes out of an advance that enters a step: over, or in that step. -/
def Arrives (step : Step) (left : Duel) : Prop :=
  left.isOver = true ∨ left.Ongoing ∧ left.step = step

/-- An advance that enters the next step and comes back, also if a card breaks it off there. -/
def AdvancesTo (duel : Duel) (allowance : Nat) (left : Duel) : Prop :=
  Play.advance allowance duel = .ok true left ∨
    ∃ cause, Play.advance allowance duel = .error (.violation cause) left

/-- An advance whose work does not come to an end within the allowance. -/
def Hangs (duel : Duel) (allowance : Nat) : Prop :=
  ∃ left, Play.advance allowance duel = .error .unsettled left

/-- So many advances that come back, one after the other. -/
inductive AdvancesOn (allowance : Nat) : Nat → Duel → Duel → Prop
  | none (duel : Duel) : AdvancesOn allowance 0 duel duel
  | next {count : Nat} {duel middle left : Duel} (first : duel.AdvancesTo allowance middle)
      (rest : AdvancesOn allowance count middle left) : AdvancesOn allowance (count + 1) duel left

/-- From a step of a turn where nobody can act, the next step is entered, even if its work is
broken off, or does not come to an end. -/
theorem Ongoing.advances (ongoing : duel.Ongoing) (turn : duel.step.isTurn = true)
    (stuck : ¬ duel.Playable) :
    (∃ left, duel.AdvancesTo later left ∧ left.Arrives duel.step.next) ∨ duel.Hangs later := by
  rw [playable_iff ongoing, not_or] at stuck
  obtain ⟨begun, -, -, past⟩ := Step.away_of_isTurn turn
  have next : duel.step.next.isFinal = false := Step.isFinal_next ongoing.2
  have arrives : (Play.enter later duel.step.next).Yields duel
      (fun _ => Duel.Concludes (fun _ => False) { duel with step := duel.step.next })
      (Duel.Continues (fun _ => False) { duel with step := duel.step.next }) :=
    Play.yields_enter ongoing.1 next
  unfold AdvancesTo Hangs
  rw [Play.advance_eq, if_neg (by simp [ongoing.isOver, stuck.1, stuck.2]),
    if_neg (by simp [begun, past])]
  unfold Play.Yields at arrives
  cases ran : Play.enter later duel.step.next duel with
  | ok value left =>
      rw [ran] at arrives
      refine .inl ⟨left, .inl rfl, ?_⟩
      cases arrives with
      | continues goesOn => exact .inr ⟨goesOn.1, goesOn.2.elim id False.elim⟩
      | ends goesOn dead => exact .inl rfl
  | error fault left =>
      rw [ran] at arrives
      have interrupts : fault.Interrupts := Play.willing_enter duel fault left ran
      cases fault with
      | violation cause =>
          exact .inl ⟨left, .inr ⟨cause, rfl⟩, .inr ⟨arrives.1, arrives.2.elim id False.elim⟩⟩
      | unsettled => exact .inr ⟨left, rfl⟩
      | rejected | gameOver | setup => exact interrupts.elim

/-- From a step of a turn, advancing leads to a decision or to the end, whatever is broken off on
the way, unless the work of a step does not come to an end. -/
theorem Ongoing.exists_playable (ongoing : duel.Ongoing) (turn : duel.step.isTurn = true) :
    ∃ count ≤ duel.step.distance, ∃ last, AdvancesOn later count duel last ∧
      (last.isOver = true ∨ last.Playable ∨ last.Hangs later) := by
  generalize far : duel.step.distance = distance
  induction distance generalizing duel with
  | zero =>
      refine ⟨0, Nat.le_refl _, duel, .none duel, .inr (.inl ?_)⟩
      refine (playable_iff ongoing).mpr (.inr ?_)
      exact Decidable.byContradiction fun away => Step.distance_ne_zero turn away far
  | succ distance ih =>
      by_cases able : duel.Playable
      · exact ⟨0, Nat.zero_le _, duel, .none duel, .inr (.inl able)⟩
      obtain ⟨left, advanced, arrives⟩ | hangs :
          (∃ left, duel.AdvancesTo later left ∧ left.Arrives duel.step.next) ∨ duel.Hangs later :=
        ongoing.advances turn able
      · rcases arrives with finished | ⟨going, entered⟩
        · exact ⟨1, Nat.succ_le_succ (Nat.zero_le _), left, .next advanced (.none left),
            .inl finished⟩
        · have away : duel.step.distance ≠ 0 := by
            rw [far]
            exact Nat.succ_ne_zero distance
          have closer : left.step.distance = distance := by
            have step := Step.distance_next away
            rw [entered]
            omega
          have turnNext : left.step.isTurn = true := by
            rw [entered]
            exact Step.isTurn_next turn
          obtain ⟨count, within, last, advances, comes⟩ := ih going turnNext closer
          exact ⟨count + 1, Nat.succ_le_succ within, last, .next advanced advances, comes⟩
      · exact ⟨0, Nat.zero_le _, duel, .none duel, .inr (.inr hangs)⟩

/-- Whatever was done to a match that is not over, an action that a card breaks off leaves it not
over.  In the cycle of a turn, or with a choice pending, some player can act then, or an advance
comes back from the next step; and in at most eight advances that come back the match is over or
some player can act.  That the work of an advance does not come to an end is the only exception. -/
theorem recovers_of_violation {settings : Settings} {catalogue : Catalogue} {deeds : List Deed}
    {cause : Violation} (created : Duel.create settings catalogue = .ok duel)
    (did : duel.afterDeeds allowance deeds = after) (running : after.isOver = false)
    (broken : Play.take allowance player action after = .error (.violation cause) left) :
    left.isOver = false ∧ (left.step = after.step ∨ left.step.isTurn = true) ∧
      (left.step.isTurn = true ∨ left.hasChoice = true →
        (left.Playable ∨
          (∃ further, left.AdvancesTo later further ∧ further.Arrives left.step.next) ∨
            left.Hangs later) ∧
        ∃ count ≤ 8, ∃ last, AdvancesOn later count left last ∧
          (last.isOver = true ∨ last.Playable ∨ last.Hangs later)) := by
  have ongoing : after.Ongoing := by
    refine Or.resolve_right ?_ fun closed : after.Closed => ?_
    · exact did ▸ proper_afterDeeds created allowance deeds
    · exact Bool.noConfusion (running.symm.trans closed.isOver)
  have plays : action ≠ .concede := by
    rintro rfl
    cases (Play.take_concede ongoing).symm.trans broken
  have goesOn : after.Continues (fun step => step.isTurn = true) left := by
    have concludes : Play.Concludes (fun step => step.isTurn = true) after
        (Play.take allowance player action) := Play.concludes_take (fun _ => id) plays ongoing
    unfold Play.Concludes Play.Yields at concludes
    rwa [broken] at concludes
  refine ⟨goesOn.1.isOver, goesOn.2, fun open' => ?_⟩
  by_cases able : left.Playable
  · exact ⟨.inl able, 0, Nat.zero_le 8, left, .none left, .inr (.inl able)⟩
  have turn : left.step.isTurn = true := open'.resolve_right fun choosing =>
    able ((playable_iff goesOn.1).mpr (.inl choosing))
  obtain ⟨count, within, comes⟩ := goesOn.1.exists_playable turn
  exact ⟨.inr (goesOn.1.advances turn able), count,
    Nat.le_trans within left.step.distance_le, comes⟩

end Duel

/-- A mage, its hero power and a minion that hurts itself when its player's turn ends.  The card
that it asks for then, and once more when it dies, is not in the catalogue. -/
def Catalogue.bombers : Catalogue :=
  .ofEntries
    [⟨Card.hero ⟨1⟩ "HERO" "" .mage 30 "POWER", Behaviour.none⟩,
      ⟨Card.power ⟨2⟩ "POWER" "" 2, Behaviour.none⟩,
      ⟨Card.minion ⟨3⟩ "BOMBER" "" 0 1 1,
        { Behaviour.none with
          deathrattle := [.addCards "NOWHERE" .hand 1 false]
          trigger := some ⟨.turnEnd, .friendly,
            [.damage .source 1 false, .addCards "NOWHERE" .hand 1 false], none, false, .play⟩ }⟩]
    [(.mage, ⟨1⟩)] (by decide) (by decide)

/-- Player zero draws a bomber. -/
def Settings.bombers : Settings :=
  { Settings.standard with decks := [["BOMBER"], []], shuffleDecks := false }

namespace Duel

/-- Whether the end of the first player's turn is broken off in the end triggers, and the advance
after it too. -/
def breaksOffTwice (duel : Duel) : Bool :=
  match Play.take 100 .zero .endTurn duel with
  | .error (.violation _) left => left.step = .mainEndTriggers && !left.hasChoice &&
    match Play.advance 100 left with
    | .error (.violation _) _ => true
    | _ => false
  | _ => false

/-- The bomber is played and the turn ended: the trigger is broken off when the bomber has hurt
itself, and the death that is left over is broken off in the next step. -/
theorem broken_bombers :
    ∃ duel after cause left, Duel.create Settings.bombers Catalogue.bombers = .ok duel ∧
      duel.afterDeeds 100 [.call .start, .call (.take .zero (.play ⟨4⟩))] = after ∧
        after.isOver = false ∧
          Play.take 100 .zero .endTurn after = .error (.violation cause) left ∧
            left.step = .mainEndTriggers ∧ left.hasChoice = false ∧
              ∃ fault further, Play.advance 100 left = .error (.violation fault) further := by
  obtain ⟨duel, after, created, runs, comes⟩ := exists_of_outcome Settings.bombers
    Catalogue.bombers 100 [.start, .take .zero (.play ⟨4⟩)]
    (fun after => !after.isOver && after.breaksOffTwice) (by decide +kernel)
  have did : duel.afterDeeds 100 [.call .start, .call (.take .zero (.play ⟨4⟩))] = after :=
    afterDeeds_of_runs runs
  obtain ⟨running, comes⟩ := Bool.and_eq_true_iff.mp comes
  unfold breaksOffTwice at comes
  split at comes
  next cause left broken =>
    obtain ⟨stays, comes⟩ := Bool.and_eq_true_iff.mp comes
    obtain ⟨entered, noChoice⟩ := Bool.and_eq_true_iff.mp stays
    split at comes
    next fault further again =>
      exact ⟨duel, after, cause, left, created, did, by simpa using running, broken,
        of_decide_eq_true entered, by simpa using noChoice, fault, further, again⟩
    · cases comes
  · cases comes

/-- The bomber breaks off the end of the turn, and the match is advanced all the same. -/
theorem recovers_of_violation_bombers :
    ∃ duel after cause left, Duel.create Settings.bombers Catalogue.bombers = .ok duel ∧
      duel.afterDeeds 100 [.call .start, .call (.take .zero (.play ⟨4⟩))] = after ∧
        after.isOver = false ∧
          Play.take 100 .zero .endTurn after = .error (.violation cause) left ∧
            left.step.isTurn = true ∧ (∃ further, left.AdvancesTo 100 further) ∧
              ∃ count ≤ 8, ∃ last, AdvancesOn 100 count left last ∧
                (last.isOver = true ∨ last.Playable ∨ last.Hangs 100) := by
  obtain ⟨duel, after, cause, left, created, did, running, broken, entered, -, fault, further,
    again⟩ := broken_bombers
  have turn : left.step.isTurn = true := by
    rw [entered]
    rfl
  exact ⟨duel, after, cause, left, created, did, running, broken, turn,
    ⟨further, .inr ⟨fault, again⟩⟩,
    ((recovers_of_violation created did running broken).2.2 (.inl turn)).2⟩

/-! ## An opening that is broken off -/

/-- In the mulligan step without a choice nobody can do anything but give up, and no advance
changes anything. -/
theorem stuck_of_beginMulligan (running : duel.isOver = false) (step : duel.step = .beginMulligan)
    (noChoice : duel.hasChoice = false) : ¬ duel.Playable ∧
      Play.advance later duel = .error (.violation .openingNotOver) duel := by
  refine ⟨fun playable => ?_, ?_⟩
  · rcases playable.decides with choosing | acting
    · exact Bool.noConfusion (noChoice.symm.trans choosing)
    · cases step.symm.trans acting
  · rw [Play.advance_eq, if_neg (by simp [running, noChoice, step]), if_pos (by rw [step]; rfl)]

end Duel

/-- A mage, its hero power, a minion and another one that asks for a card that is not in the
catalogue when it is drawn. -/
def Catalogue.greeters : Catalogue :=
  .ofEntries
    [⟨Card.hero ⟨1⟩ "HERO" "" .mage 30 "POWER", Behaviour.none⟩,
      ⟨Card.power ⟨2⟩ "POWER" "" 2, Behaviour.none⟩,
      ⟨Card.minion ⟨3⟩ "WISP" "" 0 1 1, Behaviour.none⟩,
      ⟨Card.minion ⟨4⟩ "GREETER" "" 0 1 1,
        { Behaviour.none with
          trigger := some
            ⟨.drawCard, .self, [.addCards "NOWHERE" .hand 1 false], none, false, .hand⟩ }⟩]
    [(.mage, ⟨1⟩)] (by decide) (by decide)

/-- Player zero draws three wisps and may replace them, with a greeter left in the deck. -/
def Settings.greeters : Settings :=
  { Settings.standard with
    decks := [["GREETER", "WISP", "WISP", "WISP"], List.replicate 4 "WISP"]
    shuffleDecks := false
    skipMulligan := false }

namespace Duel

/-- Whether the last answer to the mulligan is broken off in the mulligan step. -/
def breaksOffOpening (duel : Duel) : Bool :=
  match Play.take 100 .zero (.mulligan [⟨7⟩]) duel with
  | .error (.violation _) left =>
    !left.isOver && left.step = .beginMulligan && !left.hasChoice
  | _ => false

/-- After the bomber nobody can do anything but give up, and the advance fails too.  After the
greeter, nobody can do anything but give up, and no advance changes anything. -/
theorem not_resumed :
    (∃ duel after cause left fault further,
      Duel.create Settings.bombers Catalogue.bombers = .ok duel ∧
        duel.afterDeeds 100 [.call .start, .call (.take .zero (.play ⟨4⟩))] = after ∧
          after.isOver = false ∧
            Play.take 100 .zero .endTurn after = .error (.violation cause) left ∧
              ¬ left.Playable ∧ Play.advance 100 left = .error (.violation fault) further) ∧
    ∃ duel after cause left, Duel.create Settings.greeters Catalogue.greeters = .ok duel ∧
      duel.afterDeeds 100 [.call .start, .call (.take .one (.mulligan []))] = after ∧
        after.isOver = false ∧
          Play.take 100 .zero (.mulligan [⟨7⟩]) after = .error (.violation cause) left ∧
            ¬ left.Playable ∧
              ∀ later, Play.advance later left = .error (.violation .openingNotOver) left := by
  constructor
  · obtain ⟨duel, after, cause, left, created, did, running, broken, entered, noChoice, fault,
      further, again⟩ := broken_bombers
    refine ⟨duel, after, cause, left, fault, further, created, did, running, broken,
      fun playable => ?_, again⟩
    rcases playable.decides with choosing | acting
    · exact Bool.noConfusion (noChoice.symm.trans choosing)
    · cases entered.symm.trans acting
  · obtain ⟨duel, after, created, runs, comes⟩ := exists_of_outcome Settings.greeters
      Catalogue.greeters 100 [.start, .take .one (.mulligan [])]
      (fun after => !after.isOver && after.breaksOffOpening) (by decide +kernel)
    have did : duel.afterDeeds 100 [.call .start, .call (.take .one (.mulligan []))] = after :=
      afterDeeds_of_runs runs
    obtain ⟨running, comes⟩ := Bool.and_eq_true_iff.mp comes
    unfold breaksOffOpening at comes
    split at comes
    next cause left broken =>
      simp only [Bool.and_eq_true, decide_eq_true_eq, Bool.not_eq_true'] at comes
      obtain ⟨⟨going, step⟩, noChoice⟩ := comes
      have stuck (later : Nat) : ¬ left.Playable ∧
          Play.advance later left = .error (.violation .openingNotOver) left :=
        stuck_of_beginMulligan going step noChoice
      exact ⟨duel, after, cause, left, created, did, by simpa using running, broken, (stuck 0).1,
        fun later => (stuck later).2⟩
    · cases comes

end Duel

end CardDuel
