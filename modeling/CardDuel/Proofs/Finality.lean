import CardDuel.Proofs.Alerts
import CardDuel.Proofs.Closure
import CardDuel.Proofs.Quiescence
import CardDuel.Proofs.Steadiness

/-!
# The end of a match is final

What a call does is laid out here in the order of the program: rounds of settling with pieces of
scheduled work between them, and steps that are entered one after the other.  No work is done and
no step is entered in a match that is over, so all that still happens to it is that the auras come
up to date.  Starting is the exception: the opening goes on whatever the match has come to.
-/

namespace CardDuel

open Relation

namespace Duel

variable {duel left : Duel} {allowance : Nat} {player : Player}

/-- What settling comes to: a round, and then, unless the match is over, a piece of scheduled work
and more of the same. -/
inductive WorksOff : Duel → EStateM.Result Fault Duel Unit → Prop
  | spent (duel : Duel) : WorksOff duel (.error .unsettled duel)
  | unburied {duel left : Duel} {fault : Fault}
      (broken : Play.processDeaths duel = .error fault left) : WorksOff duel (.error fault left)
  | rests {duel left : Duel} (round : duel.Rounds left) : WorksOff duel (.ok () left)
  | breaks {duel middle left : Duel} {work : Work} {rest : Agenda} {fault : Fault}
      (round : duel.Rounds middle) (running : middle.isOver = false)
      (next : middle.agenda.next? = some (work, rest))
      (broken : Play.doWork work { middle with agenda := rest } = .error fault left) :
      WorksOff duel (.error fault left.clearAgenda)
  | works {duel middle left : Duel} {work : Work} {rest : Agenda}
      {result : EStateM.Result Fault Duel Unit} (round : duel.Rounds middle)
      (running : middle.isOver = false) (next : middle.agenda.next? = some (work, rest))
      (worked : Play.doWork work { middle with agenda := rest } = .ok () left)
      (further : WorksOff left result) : WorksOff duel result

/-- What going on comes to: each time the next step is entered, in a match that is not over. -/
inductive Marches (allowance : Nat) : Duel → EStateM.Result Fault Duel Unit → Prop
  | stops (duel : Duel) : Marches allowance duel (.ok () duel)
  | refuses {duel : Duel} (running : duel.isOver = false) (fault : Fault) :
      Marches allowance duel (.error fault duel)
  | breaks {duel left : Duel} {fault : Fault} (running : duel.isOver = false)
      (broken : Play.enter allowance duel.step.next duel = .error fault left) :
      Marches allowance duel (.error fault left)
  | enters {duel middle : Duel} {result : EStateM.Result Fault Duel Unit}
      (running : duel.isOver = false)
      (entered : Play.enter allowance duel.step.next duel = .ok () middle)
      (further : Marches allowance middle result) : Marches allowance duel result

/-- A play is a first part, and then it goes on step by step. -/
def MarchesAfter (allowance : Nat) (duel : Duel) (first whole : Play Unit) : Prop :=
  (∀ fault left, first duel = .error fault left → whole duel = .error fault left) ∧
    ∀ left, first duel = .ok () left → left.Marches allowance (whole duel)

/-- A duel whose match has just been ended: heroes were found dead, or a player gave up. -/
inductive Ended : Duel → Prop
  | fallen {last : Duel} (running : last.isOver = false) (dead : last.defeated ≠ []) :
      Ended (last.finish last.defeated)
  | conceded {last : Duel} (running : last.isOver = false) (player : Player) :
      Ended (last.concede player)

/-- Nothing but the auras, and the damage that they move, is not as it was. -/
structure Preserves (before after : Duel) : Prop where
  state : after = { before with arena := after.arena }
  tags : ∀ id tag, tag ≠ .damage →
    (after.entity? id).map (fun entity => entity.tags.get tag) =
      (before.entity? id).map fun entity => entity.tags.get tag

theorem Preserves.refl (duel : Duel) : duel.Preserves duel :=
  ⟨rfl, fun _ _ _ => rfl⟩

theorem preserves_updateAuras (duel : Duel) : duel.Preserves duel.updateAuras where
  state := rfl
  tags id tag other := by
    rw [entity?_updateAuras, Option.map_map]
    congr 1
    funext entity
    exact Entity.get_withAura _ _ other

/-- A play that ends the match leaves it as it was ended, but for the auras. -/
def EndsFinally (duel : Duel) (action : Play Unit) : Prop :=
  ∀ left, action duel = .ok () left → left.isOver = true →
    ∃ ended : Duel, ended.Ended ∧ ended.Preserves left

theorem Concludes.preserves {enters : Step → Prop} (concludes : duel.Concludes enters left)
    (finished : left.isOver = true) : ∃ ended : Duel, ended.Ended ∧ ended.Preserves left := by
  cases concludes with
  | continues goesOn => exact Bool.noConfusion (goesOn.1.isOver.symm.trans finished)
  | @ends last goesOn dead =>
      exact ⟨last.finish last.defeated, .fallen goesOn.1.isOver dead, preserves_updateAuras _⟩

end Duel

namespace Play

open Duel

variable {duel left : Duel} {allowance : Nat} {player : Player}

theorem Concludes.endsFinally {enters : Step → Prop} {action : Play Unit}
    (concludes : Concludes enters duel action) : duel.EndsFinally action :=
  fun _ ran finished => (Yields.of_ok concludes ran).preserves finished

/-! ## Settling -/

theorem worksOff_settle (allowance : Nat) (duel : Duel) :
    duel.WorksOff (settle allowance duel) := by
  obtain ⟨taken, through⟩ := exists_goesThrough allowance duel
  generalize settle allowance duel = result at through
  induction through with
  | spent duel => exact .spent duel
  | unburied broken => exact .unburied broken
  | rests round _ => exact .rests round
  | breaks picks broken => exact .breaks picks.round picks.running picks.next broken
  | works picks worked _ ih => exact .works picks.round picks.running picks.next worked ih

/-! ## Going on -/

theorem advance_eq (allowance : Nat) (duel : Duel) :
    advance allowance duel =
      if duel.isOver || duel.hasChoice || duel.step = .mainAction then .ok false duel
      else if duel.step = .unstarted || duel.step.isOpening then
        .error (.violation .openingNotOver) duel
      else
        match enter allowance duel.step.next duel with
        | .ok _ left => .ok true left
        | .error fault left => .error fault left := by
  change (if duel.isOver || duel.hasChoice || duel.step = .mainAction then _
    else if _ then _ else _ : Play Bool) duel = _
  split
  · rfl
  split
  · rfl
  · change EStateM.bind (enter allowance duel.step.next) _ duel = _
    unfold EStateM.bind
    cases enter allowance duel.step.next duel <;> rfl

/-- What comes after an advance goes on where the advance led, if it led anywhere. -/
theorem marches_advance_bind {next : Bool → Play Unit}
    (stays : next false duel = .ok () duel)
    (further : ∀ left : Duel, left.Marches allowance (next true left)) :
    duel.Marches allowance ((advance allowance >>= next) duel) := by
  change duel.Marches allowance (EStateM.bind (advance allowance) next duel)
  unfold EStateM.bind
  rw [advance_eq]
  by_cases waits : (duel.isOver || duel.hasChoice || decide (duel.step = .mainAction)) = true
  · rw [if_pos waits]
    dsimp only
    rw [stays]
    exact .stops duel
  have running : duel.isOver = false := by
    cases finished : duel.isOver with
    | false => rfl
    | true => exact absurd (by rw [finished]; rfl) waits
  rw [if_neg waits]
  split
  next value middle ran =>
    split at ran
    · cases ran
    split at ran
    next entered =>
      cases ran
      exact .enters running entered (further middle)
    · cases ran
  next fault middle ran =>
    split at ran
    · cases ran
      exact .refuses running _
    split at ran
    · cases ran
    next broken =>
      cases ran
      exact .breaks running broken

theorem marches_advance : duel.Marches allowance (discard (advance allowance) duel) := by
  have same : discard (advance allowance) duel = (advance allowance >>= fun _ => pure ()) duel := by
    rw [discard_apply]
    change _ = EStateM.bind (advance allowance) _ duel
    unfold EStateM.bind
    cases advance allowance duel <;> rfl
  rw [same]
  exact marches_advance_bind rfl fun left => .stops left

theorem marches_advanceWhile {goal : Step → Bool} {count : Nat} :
    duel.Marches allowance (advanceWhile allowance goal count duel) := by
  induction count generalizing duel with
  | zero => exact .stops duel
  | succ count ih =>
      unfold advanceWhile
      change duel.Marches allowance ((if goal duel.step then _ else _ : Play Unit) duel)
      split
      · exact .stops duel
      · exact marches_advance_bind rfl fun left => ih

theorem marches_runToDecision : duel.Marches allowance (runToDecision allowance duel) :=
  marches_advanceWhile

/-- Entering the next step and then going on is going on. -/
theorem marches_enter_bind {step : Step} {next : PUnit → Play Unit} (running : duel.isOver = false)
    (follows : duel.step.next = step)
    (further : ∀ left, enter allowance step duel = .ok () left →
      left.Marches allowance (next () left)) :
    duel.Marches allowance ((enter allowance step >>= next) duel) := by
  change duel.Marches allowance (EStateM.bind (enter allowance step) next duel)
  unfold EStateM.bind
  subst follows
  cases ran : enter allowance duel.step.next duel with
  | error fault left => exact .breaks running ran
  | ok value left => exact .enters running ran (further left ran)

theorem marches_runOn {condition : Duel → Bool} :
    duel.Marches allowance ((do
      let left ← get
      if condition left then
        runToDecision allowance : Play Unit) duel) := by
  change duel.Marches allowance ((if condition duel then _ else _ : Play Unit) duel)
  split
  · exact marches_runToDecision
  · exact .stops duel

theorem marches_beginTurns (running : duel.isOver = false) (last : duel.step = .beginMulligan) :
    duel.Marches allowance (beginTurns allowance duel) := by
  refine marches_enter_bind running ?_ fun left _ => marches_runOn
  rw [last]
  rfl

/-- An accepted action is its own part, and then it goes on step by step. -/
theorem marches_carryOut {action : Action} (running : duel.isOver = false)
    (accepted : duel.check player action = .ok ()) :
    duel.MarchesAfter allowance (acting allowance player action)
      (carryOut allowance player action) := by
  have alone {whole : Play Unit} : duel.MarchesAfter allowance whole whole := by
    refine ⟨fun _ _ broken => broken, fun left ran => ?_⟩
    rw [ran]
    exact .stops left
  have parts {first : Play Unit} {next : PUnit → Play Unit}
      (further : ∀ left : Duel, left.Marches allowance (next () left)) :
      duel.MarchesAfter allowance first (first >>= next) := by
    constructor
    · intro fault left broken
      exact bind_of_error broken
    · intro left ran
      rw [bind_of_ok ran]
      exact further left
  cases action with
  | playCard | attack | heroPower | concede => exact alone
  | endTurn =>
      refine ⟨fun _ _ => nofun, fun left ran => ?_⟩
      cases ran
      refine marches_enter_bind running ?_ fun left _ => marches_runOn
      rcases check_spec accepted with concedes | answers | chooses | ⟨-, -, -, acting⟩
      · cases concedes
      · obtain ⟨_, _, answers, -⟩ := answers
        cases answers
      · obtain ⟨_, _, chooses, -⟩ := chooses
        cases chooses
      · rw [acting]
        rfl
  | mulligan replace =>
      change duel.MarchesAfter allowance _ (mulligan allowance player replace)
      rw [mulligan_eq]
      refine parts fun left => ?_
      change left.Marches allowance
        ((if !left.hasChoice && left.step = .beginMulligan then _ else _ : Play Unit) left)
      split
      next begins =>
        have last : left.step = .beginMulligan := by
          rw [Bool.and_eq_true] at begins
          exact of_decide_eq_true begins.2
        refine marches_beginTurns ?_ last
        unfold isOver
        rw [last]
        decide
      · exact .stops left
  | choose pick =>
      change duel.MarchesAfter allowance _ (choose allowance player pick)
      rw [choose_eq_acting]
      exact parts fun left => marches_runOn

end Play

namespace Duel

variable {duel left ended : Duel} {allowance : Nat}

/-- In a match that is over nothing goes on. -/
theorem Marches.of_isOver {result : EStateM.Result Fault Duel Unit}
    (marches : duel.Marches allowance result) (finished : duel.isOver = true) :
    result = .ok () duel := by
  cases marches with
  | stops => rfl
  | refuses running => exact Bool.noConfusion (running.symm.trans finished)
  | breaks running => exact Bool.noConfusion (running.symm.trans finished)
  | enters running => exact Bool.noConfusion (running.symm.trans finished)

/-- A match that goes on step by step is ended by fallen heroes, if at all. -/
theorem Marches.concludes {result : EStateM.Result Fault Duel Unit}
    (marches : duel.Marches allowance result) (ongoing : duel.Ongoing) (ran : result = .ok () left) :
    duel.Concludes (fun _ => True) left := by
  induction marches with
  | stops duel =>
      cases ran
      exact .continues ongoing.continues
  | refuses => cases ran
  | breaks => cases ran
  | @enters duel middle result running entered further ih =>
      have entering : Play.Concludes (fun _ => True) duel (Play.enter allowance duel.step.next) :=
        Play.concludes_enter ongoing (Step.isFinal_next ongoing.2) trivial
      cases entering.of_ok entered with
      | continues goesOn => exact (ih goesOn.1 ran).trans goesOn
      | ends goesOn dead =>
          cases (further.of_isOver rfl).symm.trans ran
          exact .ends goesOn dead

/-! ## Starting -/

/-- When a match is started, some steps of the opening end it. -/
def EndsEarly (allowance : Nat) (duel ended : Duel) : Prop :=
  ∃ earlier later, Step.opening = earlier ++ later ∧
    earlier.forM (Play.enter allowance) duel = .ok () ended ∧ ended.isOver = true

theorem Change.turn_le {before after : Duel} (change : Change before after) :
    before.turn ≤ after.turn := by
  cases change with
  | shift shift => exact Nat.le_of_eq (congrArg Control.turn shift.control).symm
  | count => exact Nat.le_succ _
  | _ => exact Nat.le_refl _

theorem Change.turn_le_of_reaches {before after : Duel}
    (reaches : ReflTransGen Change before after) : before.turn ≤ after.turn := by
  induction reaches with
  | refl => exact Nat.le_refl _
  | tail _ last ih => exact Nat.le_trans ih last.turn_le

end Duel

namespace Play

open Duel

variable {duel left ended : Duel} {allowance : Nat}

/-- A step that is entered and does not end the match is the step the match is in. -/
theorem ongoing_enter {step : Step} (tenable : duel.Tenable) (open' : step.isFinal = false)
    (entered : enter allowance step duel = .ok () left) (running : left.isOver = false) :
    left.Ongoing ∧ left.step = step := by
  have ends : (enter allowance step).Yields duel
      (fun _ => Duel.Concludes (fun _ => False) { duel with step := step })
      (Duel.Continues (fun _ => False) { duel with step := step }) := yields_enter tenable open'
  cases ends.of_ok entered with
  | continues goesOn => exact ⟨goesOn.1, goesOn.2.elim id False.elim⟩
  | ends goesOn dead => cases running

/-- Steps that follow each other are entered one after the other, if the match is over after none
of them. -/
theorem marches_steps {steps : List Step} {next : Play Unit} (ongoing : duel.Ongoing)
    (chain : (duel.step :: steps).IsChain fun step other => step.next = other)
    (open' : ∀ step ∈ steps, step.isFinal = false)
    (never : ∀ earlier later ended, steps = earlier ++ later →
      earlier.forM (enter allowance) duel = .ok () ended → ended.isOver = false)
    (further : ∀ left : Duel, left.Ongoing → (duel.step :: steps).getLast? = some left.step →
      left.Marches allowance (next left)) :
    duel.Marches allowance ((do steps.forM (enter allowance); next) duel) := by
  induction steps generalizing duel with
  | nil => exact further duel ongoing rfl
  | cons step steps ih =>
      obtain ⟨follows, chain⟩ := List.isChain_cons_cons.mp chain
      have split : ((step :: steps).forM (enter allowance) >>= fun _ => next) =
          (enter allowance step >>= fun _ => steps.forM (enter allowance) >>= fun _ => next) :=
        bind_assoc ..
      change duel.Marches allowance (((step :: steps).forM (enter allowance) >>= fun _ => next) duel)
      rw [split]
      refine marches_enter_bind ongoing.isOver follows fun left entered => ?_
      have running : left.isOver = false := by
        refine never [step] steps left rfl ?_
        exact bind_of_ok entered
      obtain ⟨going, same⟩ := ongoing_enter ongoing.1 (open' step List.mem_cons_self) entered running
      refine ih going ?_ (fun other member => open' other (List.mem_cons_of_mem step member))
        (fun earlier later ended parts ran => ?_) fun last lasts at' => further last lasts ?_
      · rw [same]
        exact chain
      · refine never (step :: earlier) later ended (by rw [parts]; rfl) ?_
        exact (bind_of_ok entered).trans ran
      · rw [List.getLast?_cons_cons, ← same]
        exact at'

theorem start_eq (unstarted : duel.step = .unstarted) :
    start allowance duel = (do
      Step.opening.forM (enter allowance)
      unless (← get).hasChoice do
        beginTurns allowance : Play Unit) duel := by
  unfold start
  change (if duel.step ≠ .unstarted then _ else _ : Play Unit) duel = _
  rw [if_neg (not_not_intro unstarted)]

/-- A match that no step of the opening ends is started step by step. -/
theorem marches_start (ongoing : duel.Ongoing)
    (never : ∀ ended, ¬ duel.EndsEarly allowance ended) :
    duel.Marches allowance (start allowance duel) := by
  by_cases unstarted : duel.step = .unstarted
  · rw [start_eq unstarted]
    refine marches_steps ongoing ?_ (by decide) (fun earlier later ended parts ran => ?_)
      fun left going last => ?_
    · rw [unstarted]
      decide
    · refine Bool.eq_false_iff.mpr fun finished => never ended ⟨earlier, later, parts, ran, finished⟩
    · change left.Marches allowance ((if left.hasChoice then _ else _ : Play Unit) left)
      split
      · exact .stops left
      · exact marches_beginTurns going.isOver (Option.some.inj last).symm
  · unfold start
    change duel.Marches allowance ((if duel.step ≠ .unstarted then _ else _ : Play Unit) duel)
    rw [if_pos unstarted]
    exact .refuses ongoing.isOver _

theorem turn_lt_readyTurn {player : Player} :
    (readyTurn player).Ensures duel fun _ left => duel.turn < left.turn := by
  exact ensures_modify_bind.mpr (follows_readying.ensures.mono fun _ left shifts =>
    Nat.lt_of_succ_le (Change.turn_le_of_reaches (Shift.changes shifts)))

/-- The first turn that begins is counted. -/
theorem turn_lt_beginTurns :
    (beginTurns allowance).Ensures duel fun _ left => duel.turn < left.turn := by
  have later {α : Type} {action : Play α} (follows : Follows Change action) {begun : Duel}
      (counted : duel.turn < begun.turn) :
      action.Ensures begun fun _ left => duel.turn < left.turn :=
    follows.ensures.mono fun _ left reaches =>
      Nat.lt_of_lt_of_le counted (Change.turn_le_of_reaches reaches)
  have enters : (enter allowance .mainReady).Ensures duel fun _ left => duel.turn < left.turn := by
    unfold enter
    rw [ensures_modify_bind, ensures_get_bind]
    exact Ensures.bind turn_lt_readyTurn fun _ left => later follows_settle
  refine enters.bind fun _ left counted => later ?_ counted
  refine follows_get.bind fun left => ?_
  split
  · exact follows_runToDecision
  · exact follows_pure

/-- A match that the opening ends is not left so: it goes on after all, or turns begin and it is
ended once more. -/
theorem reopens_start (ongoing : duel.Ongoing) (unstarted : duel.step = .unstarted)
    (early : duel.EndsEarly allowance ended) :
    (start allowance).Yields duel (fun _ left => left.isOver = false ∨ ended.turn < left.turn)
      fun left => left.isOver = false := by
  obtain ⟨earlier, later, parts, ran, -⟩ := early
  have opening {step : Step} (member : step ∈ earlier ∨ step ∈ later) : step.isFinal = false := by
    have all : ∀ step ∈ Step.opening, step.isFinal = false := by decide
    refine all step ?_
    rw [parts]
    exact List.mem_append.mpr member
  have begun : ended.Tenable ∧ ended.Proper :=
    (yields_opening (fun _ member => opening (.inl member)) ongoing.1 (.inl ongoing)).of_ok ran
  have same : start allowance duel = (do
      later.forM (enter allowance)
      unless (← get).hasChoice do
        beginTurns allowance : Play Unit) ended := by
    have splits : (earlier ++ later).forM (enter allowance) =
        (do earlier.forM (enter allowance); later.forM (enter allowance)) := List.forM_append
    rw [start_eq unstarted, parts, splits, bind_assoc]
    exact bind_of_ok ran
  have opens : Follows Change (later.forM (enter allowance)) := follows_forM (fun _ => follows_enter) _
  have counts : (later.forM (enter allowance)).Ensures ended fun _ left => ended.turn ≤ left.turn :=
    opens.ensures.mono fun _ _ reaches => Change.turn_le_of_reaches reaches
  unfold Yields
  rw [same]
  change Yields (do
    later.forM (enter allowance)
    unless (← get).hasChoice do
      beginTurns allowance) ended _ _
  rw [yields_bind]
  refine Yields.mono (Yields.and (yields_opening (fun _ member => opening (.inr member)) begun.1
    begun.2) counts) (fun _ left opened => ?_) fun _ going => going.isOver
  obtain ⟨⟨tenable, proper⟩, counted⟩ := opened
  rw [yields_bind, yields_get]
  split
  next choosing =>
    refine .inl (proper.elim Ongoing.isOver fun closed => ?_)
    rw [hasChoice_of_clear closed.finished.1] at choosing
    cases choosing
  · have begins : (beginTurns allowance).Yields left
        (fun _ => Duel.Concludes (fun _ => True) { left with step := .mainReady })
        (Duel.Continues (fun _ => True) { left with step := .mainReady }) :=
      yields_beginTurns (fun _ _ => trivial) tenable
    exact Yields.mono (begins.and turn_lt_beginTurns)
      (fun _ last begun => .inr (Nat.lt_of_le_of_lt counted begun.2)) fun _ goesOn => goesOn.1.isOver

end Play

namespace Duel

variable {duel after : Duel} {allowance granted : Nat}

/-- How calls treat the end of a match that is not over when they are made. -/
structure EndsOnce (allowance : Nat) (duel : Duel) : Prop where
  /-- Settling does no work after the end. -/
  settling : ∀ begun : Duel, begun.WorksOff (Play.settle allowance begun)
  /-- What an action does itself breaks off before anything has settled, or settles last. -/
  acting : ∀ player action, duel.check player action = .ok () → action ≠ .endTurn →
    action ≠ .concede → Play.Settles allowance (Play.record player action duel)
      (Play.acting allowance player action)
  /-- After that no step is entered in a match that is over. -/
  taking : ∀ player action, duel.check player action = .ok () →
    (Play.record player action duel).MarchesAfter allowance (Play.acting allowance player action)
      (Play.carryOut allowance player action)
  advancing : duel.Marches allowance (discard (Play.advance allowance) duel)
  starting : (∀ ended, ¬ duel.EndsEarly allowance ended) →
    duel.Marches allowance (Play.start allowance duel)
  /-- A call that comes back with the match over leaves it as it was ended, but for the auras. -/
  kept : ∀ call : Call, call.CarriesOn →
    (call = .start → ∀ ended, ¬ duel.EndsEarly allowance ended) →
      duel.EndsFinally (call.play allowance)
  /-- A call that fails has not ended the match. -/
  broken : ∀ (call : Call) (fault : Fault) (left : Duel),
    call.play allowance duel = .error fault left → left.isOver = false
  /-- A match that the opening ends is started on: it goes on after all, or turns begin. -/
  reopened : ∀ ended, duel.step = .unstarted → duel.EndsEarly allowance ended →
    (∃ fault left, Play.start allowance duel = .error fault left ∧ left.isOver = false) ∨
      ∃ left, Play.start allowance duel = .ok () left ∧
        (left.isOver = false ∨ ended.turn < left.turn)

theorem Ongoing.endsOnce (ongoing : duel.Ongoing) : duel.EndsOnce allowance where
  settling begun := Play.worksOff_settle allowance begun
  acting player action _ turns plays :=
    have recorded : (Play.record player action duel).Ongoing :=
      ⟨⟨ongoing.1.unconceded, ongoing.1.offered⟩, ongoing.2⟩
    Play.settles_acting turns plays recorded
  taking player action accepted :=
    have same : (Play.record player action duel).check player action = .ok () := accepted
    Play.marches_carryOut ongoing.isOver same
  advancing := Play.marches_advance
  starting never := Play.marches_start ongoing never
  kept call carries never := by
    have turns : ∀ step : Step, step.isTurn = true → True := fun _ _ => trivial
    cases call with
    | start =>
        intro left ran finished
        have started := Play.marches_start ongoing (never rfl)
        exact (started.concludes ongoing ran).preserves finished
    | take player action =>
        by_cases plays : action = .concede
        · intro left ran finished
          rw [plays] at ran
          cases (Play.take_concede ongoing).symm.trans ran
          have running : (Play.record player .concede duel).isOver = false := ongoing.isOver
          exact ⟨_, .conceded running player, .refl _⟩
        · exact (Play.concludes_take turns plays ongoing).endsFinally
    | advance =>
        intro left ran finished
        have advanced : duel.Marches allowance (discard (Play.advance allowance) duel) :=
          Play.marches_advance
        exact (advanced.concludes ongoing ran).preserves finished
    | _ => exact carries.elim
  broken call fault left ran := by
    have ended : (call.play allowance).Yields duel (fun _ => Proper) Ongoing :=
      Play.proper_play ongoing
    unfold Play.Yields at ended
    rw [ran] at ended
    exact ended.isOver
  reopened ended unstarted early := by
    have reopens := Play.reopens_start ongoing unstarted early
    unfold Play.Yields at reopens
    cases ran : Play.start allowance duel with
    | error fault left =>
        rw [ran] at reopens
        exact .inl ⟨fault, left, rfl, reopens⟩
    | ok value left =>
        rw [ran] at reopens
        exact .inr ⟨left, rfl, reopens⟩

/-- Whatever has been done to a match that is not over, its end is final in every call that may
bring it about, except for a start whose opening brings it about. -/
theorem endsOnce_of_running {settings : Settings} {catalogue : Catalogue} {deeds : List Deed}
    (created : Duel.create settings catalogue = .ok duel)
    (did : duel.afterDeeds allowance deeds = after) (running : after.isOver = false) :
    after.EndsOnce granted := by
  refine Ongoing.endsOnce (Or.resolve_right ?_ fun closed : after.Closed => ?_)
  · exact did ▸ proper_afterDeeds created allowance deeds
  · exact Bool.noConfusion (running.symm.trans closed.isOver)

/-- Two mages with a minion each, in their first turn. -/
theorem endsOnce_of_running_mages :
    ∃ duel after, Duel.create Settings.mages Catalogue.mages = .ok duel ∧
      duel.afterDeeds 100 [.call .start] = after ∧ after.isOver = false ∧ after.EndsOnce 100 := by
  obtain ⟨duel, after, created, runs, comes⟩ := exists_of_outcome Settings.mages Catalogue.mages 100
    [.start] (fun after => !after.isOver) (by decide +kernel)
  have running : after.isOver = false := by simpa using comes
  have did : duel.afterDeeds 100 [.call .start] = after :=
    afterDeeds_of_runs runs
  exact ⟨duel, after, created, did, running, endsOnce_of_running created did running⟩

end Duel

/-- A mage of eight health and its hero power. -/
def Catalogue.frail : Catalogue :=
  .ofEntries
    [⟨Card.hero ⟨1⟩ "HERO" "" .mage 8 "POWER", Behaviour.none⟩,
      ⟨Card.power ⟨2⟩ "POWER" "" 2, Behaviour.none⟩]
    [(.mage, ⟨1⟩)] (by decide) (by decide)

/-- Two mages without cards. -/
def Settings.frail : Settings :=
  { Settings.standard with decks := [[], []], shuffleDecks := false }

/-- Whether dealing the hands ends a match in turn zero, and starting it hands it back over in turn
one. -/
def Duel.endsTwice (duel : Duel) : Bool :=
  match Play.draws 100 duel, Play.start 100 duel with
  | .ok _ ended, .ok _ after => ended.isOver && ended.turn == 0 && after.isOver && after.turn == 1
  | _, _ => false

/-- The second player is dead of fatigue when the hands are dealt, before any turn, and the match
comes back from its start in turn one. -/
theorem Duel.not_final_frail :
    ∃ duel ended after, Duel.create Settings.frail Catalogue.frail = .ok duel ∧
      Play.draws 100 duel = .ok () ended ∧ ended.isOver = true ∧ ended.turn = 0 ∧
        Play.start 100 duel = .ok () after ∧ after.isOver = true ∧ after.turn = 1 := by
  obtain ⟨duel, begun, created, runs, comes⟩ := exists_of_outcome Settings.frail Catalogue.frail
    100 [] Duel.endsTwice (by decide +kernel)
  obtain rfl := runs_nil.mp runs
  unfold endsTwice at comes
  split at comes
  next _ ended _ after drawn started =>
    simp only [Bool.and_eq_true, beq_iff_eq] at comes
    obtain ⟨⟨⟨early, before⟩, finished⟩, later⟩ := comes
    exact ⟨_, ended, after, created, drawn, early, before, started, finished, later⟩
  · cases comes

end CardDuel
