import CardDuel.Proofs.Steadiness

/-!
# Effect lists by recursion

`Play.resolve` keeps nested lists as frames, so that a list can be put aside at any depth.
`Play.interpret` runs an effect list by recursion instead: a control effect runs its nested list on
the same scratch values, and the list goes on when that has ended.  Both come to the same, and what
the one puts aside is what the other has left to run, if the aura pass of a control effect runs
before its nested list.
-/

namespace CardDuel

open Relation

namespace Effect

/-- The list that a control effect runs, if it is one. -/
def nested? (scratch : Scratch) : Effect → Option (List Effect)
  | .whenFlag value effects => some (if scratch.flag = value then effects else [])
  | .sequence effects => some effects
  | .repeated times effects => some (List.replicate times effects).flatten
  | _ => none

theorem listWeight_replicate (times : Nat) (effects : List Effect) :
    listWeight (List.replicate times effects).flatten = times * listWeight effects := by
  induction times with
  | zero => rw [Nat.zero_mul, List.replicate_zero, List.flatten_nil, listWeight]
  | succ times ih =>
      rw [List.replicate_succ, List.flatten_cons, listWeight_append, ih, Nat.succ_mul, Nat.add_comm]

theorem weight_nested {effect : Effect} {scratch : Scratch} {inner : List Effect}
    (nested : effect.nested? scratch = some inner) : listWeight inner + 2 ≤ effect.weight := by
  cases effect with
  | whenFlag value effects =>
      obtain rfl := Option.some.inj nested
      rw [weight]
      split
      · omega
      · rw [listWeight]
        omega
  | sequence effects =>
      obtain rfl := Option.some.inj nested
      rw [weight]
      omega
  | repeated times effects =>
      obtain rfl := Option.some.inj nested
      rw [weight, listWeight_replicate]
      omega
  | _ => cases nested

theorem weight_pos (effect : Effect) : 0 < effect.weight := by
  cases effect <;> simp only [weight] <;> omega

end Effect

/-- How running a list ends. -/
inductive Ending
  | ended (scratch : Scratch)
  /-- A choice has to be made before the remaining lists go on, the innermost first. -/
  | waits (rest : List (List Effect)) (scratch : Scratch)
deriving Inhabited

/-- When the aura pass of a control effect runs. -/
inductive ControlPass
  /-- Before its nested list. -/
  | onEntry
  /-- When its nested list has ended. -/
  | onExit
deriving DecidableEq

namespace Play

open Duel

def enterNested : ControlPass → Play Unit
  | .onEntry => modify Duel.updateAuras
  | .onExit => pure ()

def leaveNested : ControlPass → Play Unit
  | .onEntry => pure ()
  | .onExit => modify Duel.updateAuras

def interpret (pass : ControlPass) (context : EffectContext) (effects : List Effect)
    (scratch : Scratch) : Play Ending :=
  match effects with
  | [] => return .ended scratch
  | effect :: rest =>
    match _ : effect.nested? scratch with
    | some inner => do
      enterNested pass
      match ← interpret pass context inner scratch with
      | .ended later =>
        leaveNested pass
        interpret pass context rest later
      | .waits left later => return .waits (left ++ [rest]) later
    | none => do
      let (outcome, after) ← perform ⟨[], context, scratch⟩ effect
      modify Duel.updateAuras
      match outcome with
      | .complete => interpret pass context rest after.scratch
      | .stop => return .ended after.scratch
      | .suspended => return .waits [rest] after.scratch
termination_by Effect.listWeight effects
decreasing_by
  · have weight := Effect.weight_nested ‹effect.nested? scratch = some inner›
    rw [Effect.listWeight]
    omega
  · have weight := Effect.weight_nested ‹effect.nested? scratch = some inner›
    rw [Effect.listWeight]
    omega
  · have weight := effect.weight_pos
    rw [Effect.listWeight]
    omega

/-- Run lists one after the other, the innermost first. -/
def interpretAll (pass : ControlPass) (context : EffectContext) :
    List (List Effect) → Scratch → Play Ending
  | [], scratch => return .ended scratch
  | effects :: outer, scratch => do
    match ← interpret pass context effects scratch with
    | .ended later =>
      unless outer.isEmpty do
        leaveNested pass
      interpretAll pass context outer later
    | .waits left later => return .waits (left ++ outer) later

/-- An ending as the outcome of a resolution, which is put aside if it waits. -/
def conclude (context : EffectContext) : Ending → Play Outcome
  | .ended _ => return .complete
  | .waits rest scratch => do
    modify fun duel => { duel with suspended := some ⟨rest, context, scratch⟩ }
    return .suspended

/-! ## Single effects and frames -/

section Frames

variable {frames : List (List Effect)} {context : EffectContext} {scratch : Scratch}

theorem perform_nested {resolution : Resolution} {effect : Effect} {inner : List Effect}
    (nested : effect.nested? resolution.scratch = some inner) :
    perform resolution effect = pure (.complete, resolution.enter inner) := by
  cases effect with
  | whenFlag value effects =>
      obtain rfl := Option.some.inj nested
      rw [perform]
      split <;> rfl
  | sequence effects =>
      obtain rfl := Option.some.inj nested
      rfl
  | repeated times effects =>
      obtain rfl := Option.some.inj nested
      rfl
  | _ => cases nested

/-- The answers of two plays that differ in the frames alone. -/
def Reframes (frames : List (List Effect)) (first second : Play (Outcome × Resolution)) : Prop :=
  first = (fun answer => (answer.1, { answer.2 with frames := frames })) <$> second

theorem Reframes.bind {α : Type} {action : Play α} {first second : α → Play (Outcome × Resolution)}
    (reframes : ∀ value, Reframes frames (first value) (second value)) :
    Reframes frames (action >>= first) (action >>= second) := by
  unfold Reframes
  rw [map_bind]
  exact congrArg (action >>= ·) (funext reframes)

theorem reframes_pure {outcome : Outcome} :
    Reframes frames (pure (outcome, ⟨frames, context, scratch⟩))
      (pure (outcome, ⟨[], context, scratch⟩)) :=
  rfl

theorem reframes_violate {cause : Violation} :
    Reframes frames (violate cause) (violate cause) :=
  rfl

theorem reframes_act {action : Play Unit} :
    Reframes frames (act ⟨frames, context, scratch⟩ action) (act ⟨[], context, scratch⟩ action) :=
  .bind fun _ => reframes_pure

/-- An effect that runs no nested list pays no regard to the lists around it. -/
theorem reframes_perform {effect : Effect} (leaf : effect.nested? scratch = none) :
    Reframes frames (perform ⟨frames, context, scratch⟩ effect)
      (perform ⟨[], context, scratch⟩ effect) := by
  cases effect with
  | whenFlag value effects => cases leaf
  | sequence effects => cases leaf
  | repeated times effects => cases leaf
  | test selector condition => exact .bind fun _ => reframes_pure
  | guard selector condition => exact .bind fun _ => reframes_pure
  | collect selector => exact .bind fun _ => reframes_pure
  | keep condition => exact .bind fun _ => reframes_pure
  | pickRandom count =>
      rw [perform, perform]
      split
      · exact reframes_pure
      · exact .bind fun _ => reframes_pure
  | readTag selector tag =>
      refine .bind fun ids => ?_
      cases ids with
      | nil => exact reframes_pure
      | cons id ids => exact .bind fun _ => .bind fun _ => reframes_pure
  | addNumber operand => exact reframes_pure
  | multiplyNumber operand => exact reframes_pure
  | attack =>
      rw [perform, perform]
      dsimp only [perform.context]
      split
      · exact reframes_violate
      · exact .bind fun _ => reframes_pure
  | makeRandom selector cardType cardClass race opposite =>
      refine .bind fun chosen => .bind fun duel => .bind fun picked => ?_
      cases picked with
      | none => exact reframes_pure
      | some card => exact .bind fun _ => reframes_pure
  | makeEntourage count absentOnly =>
      refine .bind fun entity => .bind fun duel => .bind fun pool => ?_
      split
      · exact reframes_pure
      · exact .bind fun _ => .bind fun _ => reframes_pure
  | placeMade selector => exact .bind fun _ => reframes_pure
  | discover cardType race =>
      refine .bind fun duel => ?_
      dsimp only [perform.context]
      split
      · exact reframes_pure
      · exact .bind fun _ => .bind fun _ => .bind fun _ => reframes_pure
  | _ => exact reframes_act

/-- An effect keeps the context and does not end a match. -/
theorem ensures_perform {resolution : Resolution} {effect : Effect} {duel : Duel} :
    (perform resolution effect).Ensures duel fun answer left =>
      answer.2.context = resolution.context ∧ left.isOver = duel.isOver := by
  have running {left : Duel} (shifts : ReflTransGen Shift duel left) :
      left.isOver = duel.isOver := by
    unfold isOver
    rw [show left.step = duel.step from congrArg Control.step (Shift.controls shifts)]
  cases plain : effect.isDiscovery with
  | false =>
      have answers : Answers Shift (perform resolution effect)
          (resolution.Proceeds fun _ => True) :=
        answers_perform plain resolution.fits_true trivial
      exact Yields.mono (answers duel) (fun _ _ both => ⟨both.1.1.2, running both.2⟩)
        fun _ _ => trivial
  | true =>
      cases effect with
      | discover cardType race =>
          refine Yields.mono yields_discover (fun answer left both => ?_) fun _ _ => trivial
          rcases both with ⟨rfl, rfl⟩ | ⟨rfl, table, options, shifts, -, rfl⟩
          · exact ⟨rfl, rfl⟩
          · exact ⟨rfl, (running shifts : table.isOver = duel.isOver)⟩
      | _ => cases plain

end Frames

/-! ## Lists and frames -/

section Lists

variable {pass : ControlPass} {context : EffectContext} {scratch : Scratch} {effect : Effect}
variable {inner rest : List Effect} {outer : List (List Effect)}

theorem interpret_nested (nested : effect.nested? scratch = some inner) :
    interpret pass context (effect :: rest) scratch = (do
      enterNested pass
      match ← interpret pass context inner scratch with
      | .ended later =>
        leaveNested pass
        interpret pass context rest later
      | .waits left later => return .waits (left ++ [rest]) later) := by
  rw [interpret]
  split
  next same =>
    cases nested.symm.trans same
    rfl
  next leaf => cases nested.symm.trans leaf

theorem interpret_leaf (leaf : effect.nested? scratch = none) :
    interpret pass context (effect :: rest) scratch = (do
      let (outcome, after) ← perform ⟨[], context, scratch⟩ effect
      modify Duel.updateAuras
      match outcome with
      | .complete => interpret pass context rest after.scratch
      | .stop => return .ended after.scratch
      | .suspended => return .waits [rest] after.scratch) := by
  rw [interpret]
  split
  next nested => cases leaf.symm.trans nested
  · rfl

theorem interpretAll_nil_cons :
    interpretAll .onEntry context ([] :: outer) scratch =
      interpretAll .onEntry context outer scratch := by
  rw [interpretAll, interpret, pure_bind]
  cases outer <;> rfl

/-- A nested list is one list more to run. -/
theorem interpretAll_nested (nested : effect.nested? scratch = some inner) :
    interpretAll .onEntry context ((effect :: rest) :: outer) scratch = (do
      modify Duel.updateAuras
      interpretAll .onEntry context (inner :: rest :: outer) scratch) := by
  simp only [interpretAll, interpret_nested nested, bind_assoc]
  refine congrArg (modify Duel.updateAuras >>= ·) (funext fun _ => ?_)
  refine congrArg (interpret .onEntry context inner scratch >>= ·) (funext fun ending => ?_)
  cases ending with
  | ended later => rfl
  | waits left later =>
      rw [pure_bind]
      dsimp only
      rw [List.append_assoc]
      rfl

theorem interpretAll_leaf (leaf : effect.nested? scratch = none) :
    interpretAll .onEntry context ((effect :: rest) :: outer) scratch = (do
      let (outcome, after) ← perform ⟨[], context, scratch⟩ effect
      modify Duel.updateAuras
      match outcome with
      | .complete => interpretAll .onEntry context (rest :: outer) after.scratch
      | .stop => interpretAll .onEntry context outer after.scratch
      | .suspended => return .waits (rest :: outer) after.scratch) := by
  simp only [interpretAll, interpret_leaf leaf, bind_assoc]
  refine congrArg (perform _ effect >>= ·) (funext fun answer => ?_)
  refine congrArg (modify Duel.updateAuras >>= ·) (funext fun _ => ?_)
  cases answer.1 with
  | complete => rfl
  | stop =>
      rw [pure_bind]
      cases outer <;> rfl
  | suspended => rfl

end Lists

/-! ## The frame machine -/

section Machine

variable {context : EffectContext} {scratch : Scratch} {frames : List (List Effect)}
variable {duel : Duel} {steps : Nat}

theorem framesWeight_cons (effects : List Effect) (frames : List (List Effect)) :
    Resolution.framesWeight (effects :: frames) =
      Effect.listWeight effects + 1 + Resolution.framesWeight frames :=
  rfl

/-- With enough steps, running frames is running the lists in them one after the other. -/
theorem resolveWithin_eq (enough : Resolution.framesWeight frames < steps)
    (running : duel.isOver = false) :
    resolveWithin steps ⟨frames, context, scratch⟩ duel =
      (interpretAll .onEntry context frames scratch >>= conclude context) duel := by
  -- Every step takes weight off the frames: a nested list weighs less than the effect that runs it.
  induction steps generalizing frames scratch duel with
  | zero => cases enough
  | succ steps ih =>
      rw [resolveWithin]
      change (if duel.isOver = true then _ else _ : Play Outcome) duel = _
      rw [if_neg (Bool.eq_false_iff.mp running)]
      cases frames with
      | nil => rfl
      | cons frame outer =>
          cases frame with
          | nil =>
              have left : Resolution.framesWeight outer < steps := by
                rw [framesWeight_cons] at enough
                omega
              rw [interpretAll_nil_cons]
              exact ih left running
          | cons effect rest =>
              rw [framesWeight_cons, Effect.listWeight] at enough
              cases nested : effect.nested? scratch with
              | some inner =>
                  have weight := Effect.weight_nested nested
                  dsimp only
                  rw [perform_nested nested, interpretAll_nested nested]
                  change resolveWithin steps (Resolution.enter ⟨rest :: outer, context, scratch⟩ inner)
                    duel.updateAuras =
                      (interpretAll .onEntry context (inner :: rest :: outer) scratch >>=
                        conclude context) duel.updateAuras
                  unfold Resolution.enter
                  split
                  next empty =>
                    rw [List.isEmpty_iff.mp empty, interpretAll_nil_cons]
                    refine ih ?_ running
                    rw [framesWeight_cons]
                    omega
                  · refine ih ?_ running
                    rw [framesWeight_cons, framesWeight_cons]
                    omega
              | none =>
                  have weight := effect.weight_pos
                  have reframes : perform ⟨rest :: outer, context, scratch⟩ effect = _ :=
                    reframes_perform nested
                  dsimp only
                  rw [reframes, interpretAll_leaf nested, bind_map_left, bind_assoc]
                  refine ensures_perform.bind_eq fun answer left kept => ?_
                  obtain ⟨outcome, after⟩ := answer
                  obtain ⟨rfl, same⟩ := kept
                  have running : left.updateAuras.isOver = false := same.trans running
                  cases outcome with
                  | complete =>
                      refine ih ?_ running
                      rw [framesWeight_cons]
                      omega
                  | stop =>
                      have left : Resolution.framesWeight outer < steps := by omega
                      exact ih left running
                  | suspended => rfl

theorem resolve_eq (running : duel.isOver = false) :
    resolve ⟨frames, context, scratch⟩ duel =
      (interpretAll .onEntry context frames scratch >>= conclude context) duel :=
  resolveWithin_eq (Nat.lt_succ_self _) running

theorem interpretAll_singleton {pass : ControlPass} {effects : List Effect} :
    interpretAll pass context [effects] scratch = interpret pass context effects scratch := by
  unfold interpretAll
  refine Eq.trans (congrArg (interpret pass context effects scratch >>= ·) ?_) (bind_pure _)
  funext ending
  cases ending with
  | ended later => rfl
  | waits left later =>
      dsimp only
      rw [List.append_nil]

/-! ## Taking a list up again -/

variable {player : Player} {pick : EntityId} {allowance : Nat} {choice : Choice}

/-- Make a choice, go on with something, and settle. -/
def goOnAfter (allowance : Nat) (player : Player) (pick : EntityId) (choice : Choice)
    (goOn : Play Unit) : Play Unit := do
  modify fun duel => duel.setChoice player none
  settleOptions pick choice.options
  goOn
  settle allowance
  let duel ← get
  if duel.settings.autoRun && duel.step ≠ .unstarted && !duel.step.isOpening then
    runToDecision allowance

/-- Run by recursion what was put aside. -/
def interpretRest (context : EffectContext) (rest : List (List Effect)) (scratch : Scratch) :
    Play Unit := do
  modify fun duel => { duel with suspended := none }
  discard (interpretAll .onEntry context rest scratch >>= conclude context)

theorem bind_eq_of_eq {α β : Type} {first second : Play α} {next : α → Play β}
    (same : first duel = second duel) : (first >>= next) duel = (second >>= next) duel := by
  change EStateM.bind first next duel = EStateM.bind second next duel
  unfold EStateM.bind
  rw [same]

theorem resume_eq {rest : List (List Effect)} (running : duel.isOver = false)
    (parked : duel.suspended = some ⟨rest, context, scratch⟩) :
    resume duel = interpretRest context rest scratch duel := by
  have resumed : resolve ⟨rest, context, scratch⟩ { duel with suspended := none } = _ :=
    resolve_eq running
  unfold resume
  rw [get_bind, parked]
  change EStateM.map _ (resolve ⟨rest, context, scratch⟩) { duel with suspended := none } =
    EStateM.map _ (interpretAll .onEntry context rest scratch >>= conclude context)
      { duel with suspended := none }
  unfold EStateM.map
  rw [resumed]

/-- A choice takes up what was put aside for it. -/
theorem choose_eq {rest : List (List Effect)} (running : duel.isOver = false)
    (pending : duel.choice? player = some choice)
    (parked : duel.suspended = some ⟨rest, context, scratch⟩) :
    choose allowance player pick duel =
      goOnAfter allowance player pick choice (interpretRest context rest scratch) duel := by
  have sorting : Follows Shift (settleOptions pick choice.options) := follows_settleOptions
  unfold choose
  rw [get_bind, pending]
  change (settleOptions pick choice.options >>= _) (duel.setChoice player none) =
    (settleOptions pick choice.options >>= _) (duel.setChoice player none)
  refine sorting.ensures.bind_eq fun _ sorted shifts => bind_eq_of_eq ?_
  have same := Shift.controls shifts
  have running : sorted.isOver = false :=
    (congrArg (fun control : Control => decide (control.step = .finalGameOver)) same).trans running
  exact resume_eq running ((congrArg Control.suspended same).trans parked)

/-- Running a list as frames ends like running it by recursion, and a choice takes up exactly what
recursion has left to run, on the same scratch values. -/
theorem resolve_interprets (running : duel.isOver = false) (context : EffectContext)
    (effects : List Effect) (scratch : Scratch) :
    match interpret .onEntry context effects scratch duel with
    | .ok (.ended _) left => resolve ⟨[effects], context, scratch⟩ duel = .ok .complete left
    | .ok (.waits rest later) left =>
      resolve ⟨[effects], context, scratch⟩ duel =
          .ok .suspended { left with suspended := some ⟨rest, context, later⟩ } ∧
        ∀ (waiting : Duel) (allowance : Nat) (player : Player) (pick : EntityId) (choice : Choice),
          waiting.isOver = false → waiting.suspended = some ⟨rest, context, later⟩ →
            waiting.choice? player = some choice →
              choose allowance player pick waiting =
                goOnAfter allowance player pick choice (interpretRest context rest later) waiting
    | .error fault left => resolve ⟨[effects], context, scratch⟩ duel = .error fault left := by
  have whole : resolve ⟨[effects], context, scratch⟩ duel =
      EStateM.bind (interpret .onEntry context effects scratch) (conclude context) duel := by
    rw [resolve_eq running, interpretAll_singleton]
    rfl
  unfold EStateM.bind at whole
  cases result : interpret .onEntry context effects scratch duel with
  | error fault left =>
      rw [result] at whole
      exact whole
  | ok ending left =>
      rw [result] at whole
      cases ending with
      | ended later => exact whole
      | waits rest later => exact ⟨whole, fun _ _ _ _ _ => fun running parked pending =>
          choose_eq running pending parked⟩

end Machine

/-! ## A pass too many -/

/-- What an imp of player zero causes. -/
def impishContext : EffectContext :=
  ⟨.zero, ⟨4⟩, none, none⟩

/-- A list that reads the attack of the friendly minions and deals as much to the other hero, as a
nested list. -/
def impishList : List Effect :=
  [.sequence [.readTag .minions .attack, .damageByNumber .enemyHero false]]

/-- A list that waits for a discovery within a nested list. -/
def searchingList : List Effect :=
  [.sequence [.discover .minion .unset, .gainArmor 1], .draw 1]

/-- Whether one list ends and another one waits for a choice of player zero. -/
def endsAndWaits (duel : Duel) : Bool :=
  match interpret .onEntry impishContext impishList .initial duel,
    interpret .onEntry impishContext searchingList .initial duel with
  | .ok (.ended _) _, .ok (.waits _ _) left => !left.isOver && (left.choice? .zero).isSome
  | _, _ => false

/-- With an imp on the field, one list ends and another one waits. -/
theorem resolve_interprets_imps :
    ∃ duel after,
      Duel.create Settings.imps (Catalogue.imps (.attackAtMost 1)) = .ok duel ∧
        duel.Runs 100 [.start, .take .zero (.play ⟨4⟩)] after ∧ after.isOver = false ∧
          (∃ later left,
            interpret .onEntry impishContext impishList .initial after = .ok (.ended later) left ∧
              resolve ⟨[impishList], impishContext, .initial⟩ after = .ok .complete left) ∧
          ∃ rest later left waiting choice,
            interpret .onEntry impishContext searchingList .initial after =
                .ok (.waits rest later) left ∧
              waiting = { left with suspended := some ⟨rest, impishContext, later⟩ } ∧
              resolve ⟨[searchingList], impishContext, .initial⟩ after = .ok .suspended waiting ∧
              waiting.isOver = false ∧ waiting.choice? .zero = some choice ∧
              choose 100 .zero ⟨7⟩ waiting = goOnAfter 100 .zero ⟨7⟩ choice
                (interpretRest impishContext rest later) waiting := by
  obtain ⟨duel, after, created, runs, comes⟩ :=
    exists_of_outcome Settings.imps (Catalogue.imps (.attackAtMost 1)) 100
      [.start, .take .zero (.play ⟨4⟩)] (fun after => !after.isOver && endsAndWaits after)
      (by decide +kernel)
  obtain ⟨running, endings⟩ := Bool.and_eq_true_iff.mp comes
  have running : after.isOver = false := by simpa using running
  have ends := resolve_interprets running impishContext impishList .initial
  have suspends := resolve_interprets running impishContext searchingList .initial
  refine ⟨duel, after, created, runs, running, ?_⟩
  unfold endsAndWaits at endings
  split at endings
  next later left rest parked waiting ended waits =>
    rw [ended] at ends
    rw [waits] at suspends
    obtain ⟨going, chooses⟩ := Bool.and_eq_true_iff.mp endings
    have going : waiting.isOver = false := by simpa using going
    obtain ⟨choice, offered⟩ := Option.isSome_iff_exists.mp chooses
    exact ⟨⟨later, left, ended, ends⟩, rest, parked, waiting, _, choice, waits, rfl, suspends.1,
      going, offered, suspends.2 _ 100 .zero ⟨7⟩ choice going rfl offered⟩
  · cases endings

/-- Whether a list hurts the minion otherwise than it would if the aura pass of a control effect ran
after its nested list. -/
def readsOtherwise (duel : Duel) : Bool :=
  match interpret .onExit impishContext impishList .initial duel,
    resolve ⟨[impishList], impishContext, .initial⟩ duel with
  | .ok (.ended _) left, .ok _ final =>
    (left.entity? ⟨5⟩).map Entity.damage ≠ (final.entity? ⟨5⟩).map Entity.damage
  | _, _ => false

/-- If the aura pass of a control effect ran after its nested list, the list would read another
attack of the imp than it does. -/
theorem not_interprets_onExit_imps :
    ∃ duel after later left,
      Duel.create Settings.imps (Catalogue.imps (.attackAtMost 1)) = .ok duel ∧
        duel.Runs 100 [.start, .take .zero (.play ⟨4⟩)] after ∧ after.isOver = false ∧
          interpret .onExit impishContext impishList .initial after = .ok (.ended later) left ∧
            resolve ⟨[impishList], impishContext, .initial⟩ after ≠ .ok .complete left := by
  obtain ⟨duel, after, created, runs, comes⟩ :=
    exists_of_outcome Settings.imps (Catalogue.imps (.attackAtMost 1)) 100
      [.start, .take .zero (.play ⟨4⟩)] (fun after => !after.isOver && readsOtherwise after)
      (by decide +kernel)
  obtain ⟨running, differs⟩ := Bool.and_eq_true_iff.mp comes
  have running : after.isOver = false := by simpa using running
  unfold readsOtherwise at differs
  split at differs
  next later left outcome final interpreted resolved =>
    refine ⟨duel, after, later, left, created, runs, running, interpreted, fun same => ?_⟩
    cases resolved.symm.trans same
    exact of_decide_eq_true differs rfl
  · cases differs

end Play
end CardDuel
