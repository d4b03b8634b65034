import CardDuel.Proofs.Coherence

/-!
# Who can act

While a match goes on by itself to the next decision, some player can act whenever it is
not over.  The answer to a discovery in the mulligan step is the one place where that
fails: the turns are begun by the last answer to the mulligan alone.
-/

namespace CardDuel

open Relation

namespace Duel

variable {duel after : Duel} {lost : Prop} {allowance : Nat} {player : Player}

/-- The match is over, or a player can act. -/
def Alive (duel : Duel) : Prop :=
  duel.isOver = true ∨ ∃ player, duel.legalActions player ≠ []

/-- Actions of players as calls. -/
def takes (actions : List (Player × Action)) : List Call :=
  actions.map fun action => .take action.1 action.2

theorem turnActions_ne_nil : duel.turnActions player ≠ [] :=
  List.append_ne_nil_of_right_ne_nil _ (List.cons_ne_nil _ _)

theorem answers_ne_nil {choice : Choice} (offered : choice.kind = .discover → choice.options ≠ []) :
    answers choice ≠ [] := by
  obtain ⟨kind, options⟩ := choice
  cases kind with
  | mulligan => exact List.cons_ne_nil _ _
  | discover =>
      intro empty
      exact offered rfl (List.map_eq_nil_iff.mp empty)

theorem Alive.halted (alive : duel.Alive) : duel.Halted := by
  rcases alive with ended | ⟨player, able⟩
  · exact .inl ended
  unfold legalActions at able
  split at able
  · exact absurd rfl able
  split at able
  next choice pending => exact .inr (.inl (hasChoice_iff.mpr ⟨player, choice, pending⟩))
  next =>
    by_cases acting : duel.step = .mainAction
    · exact .inr (.inr acting)
    · rw [if_pos (by simp [acting])] at able
      exact absurd rfl able

/-- Where a match waits for a decision there is one to take. -/
theorem Goes.alive (goes : duel.Goes lost) (halted : duel.Halted) : duel.Alive := by
  by_cases ended : duel.isOver = true
  · exact .inl ended
  have running : duel.Running lost := goes.resolve_left fun finished => ended finished.isOver
  refine .inr ?_
  by_cases choosing : duel.hasChoice = true
  · obtain ⟨player, choice, pending⟩ := hasChoice_iff.mp choosing
    refine ⟨player, ?_⟩
    unfold legalActions
    rw [if_neg ended, show duel.choice? player = some choice from pending]
    apply answers_ne_nil
    intro discovers
    apply running.sound.offered player choice.options
    rw [pending, ← discovers]
  · have acting : duel.step = .mainAction :=
      (halted.resolve_left ended).resolve_left choosing
    refine ⟨duel.current, ?_⟩
    have noChoice : duel.choice? duel.current = none := by
      cases pending : duel.choice? duel.current with
      | none => rfl
      | some choice => exact absurd (hasChoice_iff.mpr ⟨_, choice, pending⟩) choosing
    unfold legalActions
    rw [if_neg ended, noChoice]
    change (if _ then _ else _) ≠ []
    rw [if_neg (by simp [choosing, acting])]
    exact turnActions_ne_nil

/-- In the mulligan step only the end and a choice give someone something to do. -/
theorem halted_iff_of_mulligan (early : duel.isOver = true ∨ duel.step = .beginMulligan) :
    duel.Halted ↔ duel.isOver = true ∨ duel.hasChoice = true := by
  constructor
  · rintro (ended | choosing | acting)
    · exact .inl ended
    · exact .inr choosing
    · apply early.imp_right
      intro mulligan
      cases mulligan.symm.trans acting
  · rintro (ended | choosing)
    · exact .inl ended
    · exact .inr (.inl choosing)

/-- A match stalls when a discovery is answered in the mulligan step and nobody has a choice left. -/
def StallsAfter (duel : Duel) (allowance : Nat) (actions : List (Player × Action)) : Prop :=
  ∃ earlier player pick before after, actions = earlier ++ [(player, .choose pick)] ∧
    duel.Runs allowance (.start :: takes earlier) before ∧ before.step = .beginMulligan ∧
      Play.take allowance player (.choose pick) before = .ok () after ∧
        after.isOver = false ∧ after.hasChoice = false

theorem takes_concat (actions : List (Player × Action)) (player : Player) (action : Action) :
    takes (actions ++ [(player, action)]) = takes actions ++ [.take player action] :=
  List.map_append

/-- When actions run on by themselves, a match that is started and goes through actions that
succeed is over or can go on, unless it has just stalled. -/
theorem alive_iff_of_takes {settings : Settings} {catalogue : Catalogue}
    {actions : List (Player × Action)} (created : Duel.create settings catalogue = .ok duel)
    (runsOn : settings.autoRun = true)
    (runs : duel.Runs allowance (.start :: takes actions) after) :
    after.Alive ↔ ¬ duel.StallsAfter allowance actions := by
  have goes : after.Goes (duel.LosesAmong allowance (.start :: takes actions)) :=
    ((fresh_of_created created).of_runs runs).resolve_left fun both =>
      both.2 List.mem_cons_self
  have alive : after.Alive ↔ after.Halted := ⟨Alive.halted, goes.alive⟩
  rw [alive]
  rw [← (fixed_of_created created).1] at runsOn
  rcases List.eq_nil_or_concat actions with rfl | ⟨earlier, ⟨player, action⟩, rfl⟩
  · obtain ⟨started, ran, rest⟩ := runs_cons.mp runs
    obtain rfl := runs_nil.mp rest
    refine iff_of_true ?_ ?_
    · exact ((Play.ensures_start (fresh_of_created created).1).of_ok ran).2 runsOn
    · rintro ⟨earlier, player, pick, before, left, split, -⟩
      exact List.append_ne_nil_of_right_ne_nil _ (List.cons_ne_nil _ _) split.symm
  · rw [List.concat_eq_append] at *
    rw [takes_concat] at runs
    have runs : duel.Runs allowance ((.start :: takes earlier) ++ [.take player action]) after := runs
    obtain ⟨before, runsBefore, last⟩ := runs_append.mp runs
    obtain ⟨left, ran, rest⟩ := runs_cons.mp last
    obtain rfl := runs_nil.mp rest
    have goesBefore : before.Goes (duel.LosesAmong allowance (.start :: takes earlier)) :=
      ((fresh_of_created created).of_runs runsBefore).resolve_left fun both =>
        both.2 List.mem_cons_self
    have settings : before.settings = duel.settings :=
      (Change.fixed_of_reaches (reaches_of_runs runsBefore)).1
    have stalls : duel.StallsAfter allowance (earlier ++ [(player, action)]) ↔
        ((∃ pick, action = .choose pick) ∧ before.step = .beginMulligan) ∧
          after.isOver = false ∧ after.hasChoice = false := by
      constructor
      · rintro ⟨others, other, pick, middle, final, split, runsMiddle, early, ranLast, stuck⟩
        obtain ⟨rfl, same⟩ := List.append_inj' split rfl
        cases same
        obtain rfl := runs_functional runsBefore runsMiddle
        cases ran.symm.trans ranLast
        exact ⟨⟨⟨pick, rfl⟩, early⟩, stuck⟩
      · rintro ⟨⟨⟨pick, rfl⟩, early⟩, stuck⟩
        exact ⟨earlier, player, pick, before, after, rfl, runsBefore, early, ran, stuck⟩
    rw [stalls]
    rcases ((Play.ensures_take goesBefore).of_ok ran).2 with
      ⟨picks, early, waits⟩ | ⟨other, halted⟩
    · rw [halted_iff_of_mulligan waits]
      simp only [picks, early, true_and, not_and, Bool.not_eq_false]
      rcases Bool.eq_false_or_eq_true after.isOver with ended | running
      · simp [ended]
      · simp [running]
    · refine iff_of_true (halted ?_) fun both => other both.1
      rw [settings]
      exact runsOn

/-- Two mages with a minion each, whose first turn ends. -/
theorem alive_iff_of_takes_mages :
    ∃ duel after, Duel.create Settings.mages Catalogue.mages = .ok duel ∧
      Settings.mages.autoRun = true ∧
        duel.Runs 100 (.start :: takes [(.zero, .endTurn)]) after ∧
          (after.Alive ↔ ¬ duel.StallsAfter 100 [(.zero, .endTurn)]) := by
  obtain ⟨duel, after, created, runs, -⟩ := exists_of_outcome Settings.mages Catalogue.mages 100
    (.start :: takes [(.zero, .endTurn)]) (fun _ => true) (by decide +kernel)
  exact ⟨duel, after, created, rfl, runs, alive_iff_of_takes created rfl runs⟩

/-- When both seekers have answered their discoveries of the opening draw, nobody can act. -/
theorem not_alive_seekers :
    ∃ duel after, Duel.create Settings.seekers Catalogue.seekers = .ok duel ∧
      Settings.seekers.autoRun = true ∧
        duel.Runs 100 (.start :: takes [(.zero, .choose ⟨18⟩), (.one, .choose ⟨19⟩)]) after ∧
          ¬ after.Alive := by
  obtain ⟨duel, after, created, runs, comes⟩ :=
    exists_of_outcome Settings.seekers Catalogue.seekers 100
      (.start :: takes [(.zero, .choose ⟨18⟩), (.one, .choose ⟨19⟩)])
      (fun after => !after.isOver && Player.both.all fun player =>
        (after.legalActions player).isEmpty) (by decide +kernel)
  rw [Bool.and_eq_true, List.all_eq_true, Bool.not_eq_true'] at comes
  refine ⟨duel, after, created, rfl, runs, ?_⟩
  rintro (ended | ⟨player, able⟩)
  · cases comes.1.symm.trans ended
  · exact able (List.isEmpty_iff.mp (comes.2 player player.mem_both))

end Duel

end CardDuel
