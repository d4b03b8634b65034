import CardDuel.Proofs.Consistency
import CardDuel.Proofs.Requests

/-!
# Listed and accepted actions

A player's legal actions are listed from candidates, and a request is checked on its own.
The two agree on every action that is meant to be listed, with two exceptions: a hero
power that wants a target is only listed with one, and only the hero in its slot is looked
at for attacks.
-/

namespace CardDuel

namespace Action

/-- Whether an action is listed one by one where it can be taken: giving up never is, a card is
only listed at its default place, and of the answers to the opening choice only two are. -/
def IsEnumerable : Action → Prop
  | .playCard _ _ position => position = none
  | .mulligan _ | .concede => False
  | .attack _ _ | .heroPower _ | .endTurn | .choose _ => True

end Action

namespace Duel

variable {duel : Duel} {player : Player} {action : Action}

/-- The actions that are never listed: a hero power without a target that wants one where there is
one, and an attack by a hero that does not stand in the slot of its player. -/
def Overlooks (duel : Duel) (player : Player) : Action → Prop
  | .heroPower none => (duel.requirements (duel.player player).heroPower).takesTarget = true
  | .attack attacker _ => attacker ≠ duel.hero player ∧
      ∃ entity, duel.entity? attacker = some entity ∧ entity.kind = .hero
  | _ => False

/-! ## Turns and answers -/

theorem mem_answers_iff {choice : Choice} (enumerable : action.IsEnumerable) :
    action ∈ answers choice ↔ checkAnswer choice action = .ok () := by
  obtain ⟨kind, options⟩ := choice
  cases action with
  | mulligan replace => exact enumerable.elim
  | choose pick =>
      cases kind with
      | mulligan => simp [answers, checkAnswer]
      | discover => simp [answers, checkAnswer]
  | _ => cases kind <;> simp [answers, checkAnswer]

/-- Without a choice of its own a player can act in its turn. -/
theorem mem_legalActions_iff_turn (running : duel.isOver = false)
    (free : duel.choice? player = none) :
    action ∈ duel.legalActions player ↔
      duel.checkTurn player = .ok () ∧ action ∈ duel.turnActions player := by
  unfold legalActions
  rw [if_neg (by simp [running]), free, checkTurn_iff]
  by_cases able : duel.hasChoice = false ∧ player = duel.current ∧ duel.step = .mainAction
  · obtain ⟨quiet, rfl, acting⟩ := able
    simp [quiet, acting]
  · have barred : (duel.hasChoice || player ≠ duel.current || duel.step ≠ .mainAction) = true := by
      simp only [Bool.or_eq_true, decide_eq_true_eq]
      by_contra free
      simp only [not_or, Bool.not_eq_true, ne_eq, Decidable.not_not] at free
      exact able ⟨free.1.1, free.1.2, free.2⟩
    rw [if_pos barred]
    exact iff_of_false List.not_mem_nil fun both => able both.1

theorem accepts_iff : duel.accepts player action = true ↔ duel.check player action = .ok () := by
  unfold accepts
  cases duel.check player action with
  | ok value => simp
  | error reason => simp

theorem mem_turnActions_iff : action ∈ duel.turnActions player ↔
    (((∃ card ∈ duel.hand player, action ∈ duel.playsOf player card) ∨
        action ∈ duel.powerUses player) ∧ duel.check player action = .ok ()) ∨
      (∃ attacker ∈ duel.side player, action ∈ duel.attacksOf attacker) ∨ action = .endTurn := by
  unfold turnActions
  simp only [List.mem_append, List.mem_filter, List.mem_flatMap, List.mem_singleton, accepts_iff,
    or_assoc]

/-! ## Plays and hero powers -/

/-- Whether a play from a source may come with a target, or without one. -/
def Suits (duel : Duel) (player : Player) (source : EntityId) : Option EntityId → Prop
  | some target => (duel.requirements source).takesTarget = true ∧
      target ∈ duel.validTargets player source
  | none => (duel.requirements source).takesTarget = true → duel.validTargets player source = []

theorem suits_of_checkTarget {source : EntityId} {target : Option EntityId}
    (accepted : duel.checkTarget player source target = .ok ()) :
    duel.Suits player source target := by
  unfold checkTarget at accepted
  by_cases takes : (duel.requirements source).takesTarget = true
  · rw [if_pos takes] at accepted
    cases target with
    | some target =>
        refine ⟨takes, ?_⟩
        by_contra absent
        simp [absent] at accepted
    | none =>
        intro _
        by_contra some'
        simp [some'] at accepted
  · rw [if_neg takes] at accepted
    cases target with
    | some target => cases accepted
    | none => exact fun takesTarget => absurd takesTarget takes

theorem suits_of_checkPlay {source : EntityId} {target : Option EntityId}
    (accepted : duel.checkPlay player source target = .ok ()) :
    duel.Suits player source target := by
  obtain ⟨_, aimed, -⟩ := ok_of_bind accepted
  exact suits_of_checkTarget aimed

theorem known_of_suits {source target : EntityId}
    (suits : duel.Suits player source (some target)) : duel.entity? target ≠ none := by
  intro unknown
  have allowed := suits.2
  unfold validTargets at allowed
  rw [if_pos suits.1, List.mem_filter] at allowed
  simp [isAllowedTarget, unknown] at allowed

theorem checkCard_spec {card : EntityId} {target : Option EntityId}
    (accepted : duel.checkCard player card target = .ok ()) :
    ∃ entity, duel.entity? card = some entity ∧ entity.owner = player ∧ entity.zone = .hand ∧
      duel.checkCost player entity.cost = .ok () ∧ duel.checkRoom player entity = .ok () ∧
        duel.checkPlay player card target = .ok () := by
  unfold checkCard at accepted
  cases known : duel.entity? card with
  | none =>
      rw [known] at accepted
      cases accepted
  | some entity =>
      rw [known] at accepted
      by_cases own : entity.owner = player ∧ entity.zone = .hand
      · obtain ⟨owner, zone⟩ := own
        simp only [owner, zone, ne_eq, not_true_eq_false, decide_false, Bool.or_self,
          Bool.false_eq_true, if_false] at accepted
        obtain ⟨_, paid, accepted⟩ := ok_of_bind accepted
        obtain ⟨_, room, accepted⟩ := ok_of_bind accepted
        exact ⟨entity, rfl, owner, zone, paid, room, accepted⟩
      · have away : (entity.owner ≠ player || entity.zone ≠ .hand) = true := by
          simpa [or_iff_not_and_not] using own
        simp only [away, if_true] at accepted
        cases accepted

theorem mem_hand (sound : duel.WellPlaced) {card : EntityId} {entity : Entity}
    (known : duel.entity? card = some entity) (owner : entity.owner = player)
    (zone : entity.zone = .hand) : card ∈ duel.hand player := by
  have held := sound.consistent.held card entity known (.inl (by rw [zone]; decide))
  rw [owner, zone] at held
  exact List.mem_of_getElem? held

theorem mem_playsOf_iff {card : EntityId} : action ∈ duel.playsOf player card ↔
    ∃ target, action = .playCard card target none ∧ duel.Suits player card target := by
  unfold playsOf
  rw [Option.exists]
  by_cases takes : (duel.requirements card).takesTarget = true
  · have bare : duel.Suits player card none ↔ (duel.validTargets player card).isEmpty = true := by
      simp [Suits, takes]
    rw [if_pos takes, bare, List.mem_append, List.mem_map]
    apply or_congr
    · by_cases noTarget : (duel.validTargets player card).isEmpty = true
      · simp [noTarget, Action.play]
      · simp [noTarget]
    · apply exists_congr
      intro target
      rw [and_comm]
      exact and_congr eq_comm (and_iff_right takes).symm
  · simp [takes, Suits, Action.play]

theorem mem_powerUses_iff : action ∈ duel.powerUses player ↔
    ∃ target, action = .heroPower target ∧
      duel.Suits player (duel.player player).heroPower target ∧
        ¬ duel.Overlooks player (.heroPower target) := by
  unfold powerUses
  rw [Option.exists]
  by_cases takes : (duel.requirements (duel.player player).heroPower).takesTarget = true
  · simp only [takes, if_true, List.mem_map, Suits, Overlooks, not_true_eq_false, and_false,
      false_or, not_false_eq_true, and_true, true_and]
    apply exists_congr
    intro target
    rw [and_comm]
    exact and_congr_left' eq_comm
  · simp [takes, Suits, Overlooks]

theorem checkHeroPower_spec {target : Option EntityId}
    (accepted : duel.checkHeroPower player target = .ok ()) :
    ∃ entity, duel.entity? (duel.player player).heroPower = some entity ∧
      duel.checkCost player entity.cost = .ok () ∧
        duel.checkPlay player (duel.player player).heroPower target = .ok () := by
  unfold checkHeroPower at accepted
  dsimp only at accepted
  split at accepted
  next => cases accepted
  next entity known =>
    split at accepted
    · cases accepted
    obtain ⟨_, paid, accepted⟩ := ok_of_bind accepted
    exact ⟨entity, known, paid, accepted⟩

/-! ## Attacks -/

/-- Whoever can attack is a character in play of the player whose turn it is. -/
theorem canAttack_spec {attacker : EntityId} (able : duel.canAttack attacker = true) :
    ∃ entity, duel.entity? attacker = some entity ∧ entity.zone = .play ∧
      entity.kind.isCharacter = true ∧ entity.owner = duel.current := by
  unfold canAttack passes at able
  cases known : duel.entity? attacker with
  | none => simp [known] at able
  | some entity =>
      simp only [known, Bool.and_eq_true, decide_eq_true_eq] at able
      obtain ⟨⟨⟨⟨⟨inPlay, character⟩, -⟩, owner⟩, -⟩, -⟩ := able
      exact ⟨entity, rfl, by simpa [Entity.inPlay] using inPlay, character, owner⟩

theorem mem_attacksOf_iff {attacker : EntityId} : action ∈ duel.attacksOf attacker ↔
    ∃ defender, action = .attack attacker defender ∧ duel.canAttack attacker = true ∧
      defender ∈ duel.attackTargets attacker := by
  unfold attacksOf
  by_cases able : duel.canAttack attacker = true
  · simp [able, and_comm, eq_comm]
  · simp [able]

theorem known_of_mem_attackTargets {attacker defender : EntityId}
    (exposed : defender ∈ duel.attackTargets attacker) : (duel.entity? defender).isSome = true := by
  have seen : duel.passes Entity.isExposed defender = true := by
    unfold attackTargets at exposed
    dsimp only at exposed
    split at exposed
    next => cases exposed
    split at exposed
    on_goal 1 => replace exposed := List.mem_of_mem_filter exposed
    all_goals
      split at exposed
      on_goal 2 => replace exposed := List.mem_of_mem_filter exposed
      all_goals exact (List.mem_filter.mp exposed).2
  unfold passes at seen
  cases known : duel.entity? defender with
  | none => simp [known] at seen
  | some entity => rfl

theorem checkAttack_iff {attacker defender : EntityId} (turn : player = duel.current) :
    duel.checkAttack player attacker defender = .ok () ↔
      duel.canAttack attacker = true ∧ defender ∈ duel.attackTargets attacker := by
  unfold checkAttack
  cases known : duel.entity? attacker with
  | none =>
      refine iff_of_false nofun fun ⟨able, _⟩ => ?_
      obtain ⟨entity, known', -⟩ := canAttack_spec able
      cases known.symm.trans known'
  | some entity =>
      by_cases able : duel.canAttack attacker = true
      · obtain ⟨same, known', -, -, owner⟩ := canAttack_spec able
        cases known.symm.trans known'
        by_cases exposed : defender ∈ duel.attackTargets attacker
        · have seen := known_of_mem_attackTargets exposed
          simp [able, owner, turn, exposed, Option.isSome_iff_ne_none.mp seen]
        · refine iff_of_false ?_ fun both => exposed both.2
          by_cases absent : (duel.entity? defender).isNone = true
          · simp [able, owner, turn, absent]
          · simp [able, owner, turn, exposed, absent]
      · simp [able]

/-- Whoever can attack is looked at for attacks, but for a hero outside its slot. -/
theorem mem_side_iff (sound : duel.WellPlaced) {attacker defender : EntityId}
    (able : duel.canAttack attacker = true) (turn : player = duel.current) :
    attacker ∈ duel.side player ↔ ¬ duel.Overlooks player (.attack attacker defender) := by
  obtain ⟨entity, known, inPlay, character, owner⟩ := canAttack_spec able
  subst turn
  change attacker ∈ duel.hero duel.current :: duel.field duel.current ↔ ¬ (_ ∧ _)
  rw [List.mem_cons, not_and]
  constructor
  · rintro (rfl | fielded) other ⟨same, known', hero⟩
    · exact other rfl
    · obtain ⟨-, seat, seated, contained, -, zone⟩ :=
        (sound.placed.mem_iff duel.current .play attacker).mp fielded
      rw [seat?_of_entity? known'] at seated
      cases seated
      cases hero.symm.trans (contained.2 zone)
  · intro slotted
    by_cases own : attacker = duel.hero duel.current
    · exact .inl own
    have minion : entity.kind = .minion := by
      have notHero : entity.kind ≠ .hero := fun hero => slotted own ⟨entity, known, hero⟩
      cases kind : entity.kind with
      | minion => rfl
      | hero => exact absurd kind notHero
      | _ =>
          rw [kind] at character
          cases character
    have held := sound.consistent.held attacker entity known (.inr ⟨inPlay, minion⟩)
    rw [owner, inPlay] at held
    exact .inr (List.mem_of_getElem? held)

/-! ## Agreement -/

/-- An accepted play names a card of the hand and a target that suits it. -/
theorem check_playCard_spec (sound : duel.WellPlaced) {card : EntityId}
    {target : Option EntityId} {position : Option Nat}
    (accepted : duel.check player (.playCard card target position) = .ok ()) :
    card ∈ duel.hand player ∧ duel.Suits player card target := by
  obtain ⟨-, checked⟩ := check_playCard accepted
  obtain ⟨entity, known, owner, zone, -, -, playable⟩ := checkCard_spec checked
  exact ⟨mem_hand sound known owner zone, suits_of_checkPlay playable⟩

theorem check_heroPower_spec {target : Option EntityId}
    (accepted : duel.check player (.heroPower target) = .ok ()) :
    duel.Suits player (duel.player player).heroPower target := by
  obtain ⟨-, checked⟩ := check_heroPower accepted
  obtain ⟨entity, -, -, playable⟩ := checkHeroPower_spec checked
  exact suits_of_checkPlay playable

theorem check_attack_iff {attacker defender : EntityId} (free : duel.choice? player = none)
    (turn : duel.checkTurn player = .ok ()) :
    duel.check player (.attack attacker defender) = .ok () ↔
      duel.canAttack attacker = true ∧ defender ∈ duel.attackTargets attacker := by
  have reduced : duel.check player (.attack attacker defender) =
      duel.checkAttack player attacker defender := by
    unfold check
    rw [free]
    change (duel.checkTurn player >>= fun _ => _) = _
    rw [turn]
    rfl
  rw [reduced, checkAttack_iff (checkTurn_iff.mp turn).2.1]

theorem mem_turnActions_iff_check (sound : duel.WellPlaced) (enumerable : action.IsEnumerable)
    (free : duel.choice? player = none) (turn : duel.checkTurn player = .ok ()) :
    action ∈ duel.turnActions player ↔
      duel.check player action = .ok () ∧ ¬ duel.Overlooks player action := by
  have acting : player = duel.current := (checkTurn_iff.mp turn).2.1
  rw [mem_turnActions_iff]
  simp only [mem_playsOf_iff, mem_powerUses_iff, mem_attacksOf_iff]
  cases action with
  | mulligan replace => exact enumerable.elim
  | concede => exact enumerable.elim
  | endTurn => simp [check, free, turn, Overlooks]
  | choose pick => simp [check, free]
  | playCard card target position =>
      obtain rfl : position = none := enumerable
      have named (accepted : duel.check player (.playCard card target none) = .ok ()) :=
        check_playCard_spec sound accepted
      simpa [Overlooks] using named
  | heroPower target =>
      have suits (accepted : duel.check player (.heroPower target) = .ok ()) :=
        check_heroPower_spec accepted
      simp only [Action.heroPower.injEq, reduceCtorEq, false_and, exists_false, and_false, or_false,
        false_or, exists_eq_left', and_assoc]
      exact ⟨fun ⟨_, listed, accepted⟩ => ⟨accepted, listed⟩,
        fun ⟨accepted, listed⟩ => ⟨suits accepted, listed, accepted⟩⟩
  | attack attacker defender =>
      rw [check_attack_iff free turn]
      simp only [Action.attack.injEq, reduceCtorEq, false_and, exists_false, and_false, or_false,
        false_or]
      constructor
      · rintro ⟨other, sided, target, ⟨rfl, rfl⟩, able, exposed⟩
        exact ⟨⟨able, exposed⟩, (mem_side_iff sound able acting).mp sided⟩
      · rintro ⟨⟨able, exposed⟩, slotted⟩
        exact ⟨attacker, (mem_side_iff sound able acting).mpr slotted, defender, ⟨rfl, rfl⟩, able,
          exposed⟩

/-- Outside its turn a player without a choice is refused whatever could be listed. -/
theorem check_ne_ok (enumerable : action.IsEnumerable) (free : duel.choice? player = none)
    (barred : duel.checkTurn player ≠ .ok ()) : duel.check player action ≠ .ok () := by
  intro accepted
  unfold check at accepted
  rw [free] at accepted
  cases action with
  | mulligan replace => exact enumerable
  | concede => exact enumerable
  | choose pick => cases accepted
  | endTurn => exact barred accepted
  | _ =>
      obtain ⟨_, turn, -⟩ := ok_of_bind accepted
      exact barred turn

/-- Answers to a choice are never among the overlooked actions. -/
theorem not_overlooks_of_answer {choice : Choice} (answer : checkAnswer choice action = .ok ()) :
    ¬ duel.Overlooks player action := by
  cases action with
  | choose pick => exact id
  | mulligan replace => exact id
  | _ => cases answer

/-- While a well-placed match goes on, an action that is meant to be listed is listed exactly when
it is accepted and not overlooked. -/
theorem WellPlaced.mem_legalActions_iff (sound : duel.WellPlaced) (running : duel.isOver = false)
    (enumerable : action.IsEnumerable) :
    action ∈ duel.legalActions player ↔
      duel.check player action = .ok () ∧ ¬ duel.Overlooks player action := by
  cases pending : duel.choice? player with
  | some choice =>
      have plays : action ≠ .concede := by
        rintro rfl
        exact enumerable
      rw [check_answer pending plays]
      unfold legalActions
      rw [if_neg (by simp [running]), pending]
      change action ∈ answers choice ↔ _
      rw [mem_answers_iff enumerable]
      exact (and_iff_left_of_imp not_overlooks_of_answer).symm
  | none =>
      rw [mem_legalActions_iff_turn running pending]
      by_cases turn : duel.checkTurn player = .ok ()
      · rw [and_iff_right turn, mem_turnActions_iff_check sound enumerable pending turn]
      · exact iff_of_false (fun both => turn both.1) fun both =>
          check_ne_ok enumerable pending turn both.1

/-- After any calls, whether or not they failed, listed and accepted actions agree but for those
that are overlooked. -/
theorem mem_legalActions_iff_check {settings : Settings} {catalogue : Catalogue}
    (created : Duel.create settings catalogue = .ok duel) (allowance : Nat) (calls : List Call)
    (running : (duel.afterCalls allowance calls).isOver = false)
    (enumerable : action.IsEnumerable) :
    action ∈ (duel.afterCalls allowance calls).legalActions player ↔
      (duel.afterCalls allowance calls).check player action = .ok () ∧
        ¬ (duel.afterCalls allowance calls).Overlooks player action :=
  (Change.wellPlaced_of_reaches (duel.reaches_afterCalls allowance calls)
    (created_wellPlaced created)).mem_legalActions_iff running enumerable

/-- A wisp that was played a turn ago may attack the other mage. -/
theorem mem_legalActions_iff_check_mages :
    ∃ duel calls, Duel.create Settings.mages Catalogue.mages = .ok duel ∧
      (duel.afterCalls 100 calls).isOver = false ∧ (Action.attack ⟨4⟩ ⟨5⟩).IsEnumerable ∧
        .attack ⟨4⟩ ⟨5⟩ ∈ (duel.afterCalls 100 calls).legalActions .zero ∧
          (duel.afterCalls 100 calls).check .zero (.attack ⟨4⟩ ⟨5⟩) = .ok () ∧
            ¬ (duel.afterCalls 100 calls).Overlooks .zero (.attack ⟨4⟩ ⟨5⟩) := by
  let calls : List Call := [.start, .take .zero (.play ⟨4⟩), .take .zero .endTurn,
    .take .one .endTurn]
  obtain ⟨duel, after, created, runs, comes⟩ := exists_of_outcome Settings.mages Catalogue.mages 100
    calls (fun after => !after.isOver && after.isLegal .zero (.attack ⟨4⟩ ⟨5⟩)) (by decide +kernel)
  rw [← afterCalls_of_runs runs, Bool.and_eq_true, Bool.not_eq_true'] at comes
  obtain ⟨running, legal⟩ := comes
  have listed : .attack ⟨4⟩ ⟨5⟩ ∈ (duel.afterCalls 100 calls).legalActions .zero :=
    List.contains_iff_mem.mp legal
  have enumerable : (Action.attack ⟨4⟩ ⟨5⟩).IsEnumerable := trivial
  exact ⟨duel, calls, created, running, enumerable, listed,
    (mem_legalActions_iff_check created 100 calls running enumerable).mp listed⟩

end Duel

/-! ## A power with an optional target -/

/-- A hero power that is free and aimed at a minion where there is one. -/
def Catalogue.marksmen : Catalogue :=
  .ofEntries
    [⟨Card.hero ⟨1⟩ "HERO" "" .mage 30 "POWER", Behaviour.none⟩,
      ⟨{ Card.power ⟨2⟩ "POWER" "" 0 with
          requirements := Requirements.ofList [(.targetIfAvailable, 0), (.minionTarget, 0)] },
        Behaviour.none⟩]
    [(.mage, ⟨1⟩)] (by decide) (by decide)

/-- With nothing to aim at the hero power is accepted without a target, and not listed. -/
theorem Duel.not_mem_legalActions_marksmen :
    ∃ duel after, Duel.create Settings.standard Catalogue.marksmen = .ok duel ∧
      duel.Runs 100 [.start] after ∧ after.isOver = false ∧
        after.check .zero (.heroPower none) = .ok () ∧
          .heroPower none ∉ after.legalActions .zero := by
  obtain ⟨duel, after, created, runs, comes⟩ :=
    exists_of_outcome Settings.standard Catalogue.marksmen 100 [.start]
      (fun after => !after.isOver && after.accepts .zero (.heroPower none) &&
        !after.isLegal .zero (.heroPower none)) (by decide +kernel)
  simp only [Bool.and_eq_true, Bool.not_eq_true'] at comes
  obtain ⟨⟨running, accepted⟩, unlisted⟩ := comes
  refine ⟨duel, after, created, runs, running, accepts_iff.mp accepted, ?_⟩
  simpa [isLegal] using unlisted

end CardDuel
