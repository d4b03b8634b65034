import CardDuel.Proofs.Cycle
import CardDuel.Proofs.Fates

/-!
# Enchantments that end with the turn

The cleanup of a turn sweeps all enchantments away that are for one turn only, and settles then.
Whatever that sets off may attach new ones, and no other sweep comes before the next turn.  So all
that is still carried when the turn passes was attached after the sweep.
-/

namespace CardDuel

open Relation

/-- An enchantment but for the keywords that it grants, which a lost shield takes away. -/
def Enchantment.ungranted (enchantment : Enchantment) : Enchantment :=
  { enchantment with effect := { enchantment.effect with grants := [] } }

namespace Entity

variable {entity : Entity}

theorem enchantments_keepHealth (entity before : Entity) :
    (entity.keepHealth before).enchantments = entity.enchantments := by
  unfold keepHealth
  split <;> rfl

theorem enchantments_takeHit (entity : Entity) (amount : Int) (poisonous freezing : Bool) :
    (entity.takeHit amount poisonous freezing).enchantments = entity.enchantments := by
  unfold takeHit
  simp only [apply_ite Entity.enchantments, setTag, addTag, ite_self]

theorem enchantments_enchant (entity : Entity) (enchantment : Enchantment) :
    (entity.enchant enchantment).enchantments = entity.enchantments ++ [enchantment] :=
  enchantments_keepHealth _ entity

theorem enchantments_expire (entity : Entity) :
    entity.expire.enchantments = entity.enchantments.filter fun e => !e.effect.oneTurn := by
  unfold expire
  split
  · exact enchantments_keepHealth _ entity
  next none =>
    refine (List.filter_eq_self.mpr fun e member => ?_).symm
    rw [List.any_eq_true] at none
    simpa using fun lasts => none ⟨e, member, lasts⟩

/-- A revision attaches an enchantment, or it leaves at most those that there were. -/
theorem Revision.enchantments {change : Entity → Entity} (revision : Revision change)
    {mark : Enchantment} (carries : mark ∈ (change entity).enchantments) :
    (∃ old ∈ entity.enchantments, old.ungranted = mark.ungranted) ∨
      ∃ attached : Enchantment, change entity = entity.enchant attached ∧
        attached.ungranted = mark.ungranted := by
  cases revision with
  | hit amount poisonous freezing =>
      rw [enchantments_takeHit] at carries
      exact .inl ⟨mark, carries, rfl⟩
  | loseShield =>
      obtain ⟨old, member, rfl⟩ := List.mem_map.mp carries
      exact .inl ⟨old, member, rfl⟩
  | refresh =>
      unfold Entity.refresh at carries
      dsimp only at carries
      split at carries <;> exact .inl ⟨mark, carries, rfl⟩
  | thaw =>
      unfold Entity.thaw at carries
      split at carries <;> exact .inl ⟨mark, carries, rfl⟩
  | enchant attached =>
      rw [enchantments_enchant] at carries
      rcases List.mem_append.mp carries with old | new
      · exact .inl ⟨mark, old, rfl⟩
      · exact .inr ⟨attached, rfl, by rw [List.mem_singleton.mp new]⟩
  | _ => exact .inl ⟨mark, carries, rfl⟩

end Entity

namespace Duel

variable {start past before after now duel : Duel} {id : EntityId} {entity later : Entity}
variable {mark : Enchantment} {allowance : Nat} {player : Player}

/-- Leaving play drops all enchantments. -/
theorem enchantments_partedBody {goal : ZoneKind}
    (carries : mark ∈ (duel.partedBody goal entity).enchantments) : mark ∈ entity.enchantments := by
  unfold partedBody afterPlay at carries
  dsimp only at carries
  split at carries
  · split at carries
    · split at carries <;> cases carries
    · cases carries
  · exact carries

/-- What an entity carries after a change it carried before, or it was attached by the change. -/
theorem Fate.enchantments (fate : Fate before id entity after later)
    (carries : mark ∈ later.enchantments) :
    (∃ old ∈ entity.enchantments, old.ungranted = mark.ungranted) ∨
      ∃ attached : Enchantment, later = entity.enchant attached ∧
        attached.ungranted = mark.ungranted := by
  have same {body : Entity} (kept : later.body = body)
      (held : mark ∈ body.enchantments → mark ∈ entity.enchantments) :
      (∃ old ∈ entity.enchantments, old.ungranted = mark.ungranted) ∨
        ∃ attached : Enchantment, later = entity.enchant attached ∧
          attached.ungranted = mark.ungranted := by
    have enchantments : later.enchantments = body.enchantments :=
      (congrArg Entity.enchantments kept :)
    exact .inl ⟨mark, held (enchantments ▸ carries), rfl⟩
  cases fate with
  | stays kept => exact same kept fun member => member
  | revised revision => exact revision.enchantments carries
  | healed amount => exact .inl ⟨mark, carries, rfl⟩
  | silenced =>
      rw [Entity.silence, Entity.enchantments_keepHealth] at carries
      cases carries
  | transformed listed kind => cases carries
  | shone total =>
      rw [Entity.enchantments_withAura] at carries
      exact .inl ⟨mark, carries, rfl⟩
  | expired =>
      rw [Entity.enchantments_expire] at carries
      exact .inl ⟨mark, (List.mem_filter.mp carries).1, rfl⟩
  | fell kept =>
      have enchantments : later.enchantments = entity.enchantments :=
        (congrArg Entity.enchantments kept :)
      exact .inl ⟨mark, enchantments ▸ carries, rfl⟩
  | bereft creator kept => exact same kept fun member => (List.mem_filter.mp member).1
  | moved placement kept => exact same kept enchantments_partedBody
  | handedOver owner kept => exact same kept enchantments_partedBody

/-- Nobody carries an enchantment that ends with the turn. -/
def Swept (duel : Duel) : Prop :=
  ∀ id entity, duel.entity? id = some entity → ∀ mark ∈ entity.enchantments,
    mark.effect.oneTurn = false

/-- An enchantment is attached to an entity on the way from one duel to another. -/
def Attached (id : EntityId) (mark : Enchantment) (past now : Duel) : Prop :=
  ∃ before after entity attached, ReflTransGen Change past before ∧ Change before after ∧
    ReflTransGen Change after now ∧ before.entity? id = some entity ∧
      after.entity? id = some (entity.enchant attached) ∧ attached.ungranted = mark.ungranted

/-- What an entity carries it has carried all the time, or it was attached on the way. -/
theorem carried_or_attached (reaches : ReflTransGen Change past now)
    (known : now.entity? id = some entity) (carries : mark ∈ entity.enchantments) :
    (∃ earlier old, past.entity? id = some earlier ∧ old ∈ earlier.enchantments ∧
        old.ungranted = mark.ungranted) ∨ Attached id mark past now := by
  induction reaches generalizing entity mark with
  | refl => exact .inl ⟨entity, mark, known, carries, rfl⟩
  | @tail before after reached change ih =>
      cases unknown : before.entity? id with
      | none =>
          obtain ⟨_, owner, card, kind, -, rfl⟩ := change.origin unknown known
          cases carries
      | some held =>
          obtain ⟨later, knownLater, fate⟩ := change.fate unknown
          cases known.symm.trans knownLater
          rcases fate.enchantments carries with ⟨old, member, same⟩ | ⟨attached, rfl, same⟩
          · rcases ih unknown member with ⟨earlier, older, knownToo, held, alike⟩ | since
            · exact .inl ⟨earlier, older, knownToo, held, alike.trans same⟩
            · obtain ⟨left, right, bearer, attached, there, attaches, onwards, parts⟩ := since
              obtain ⟨knownLeft, knownRight, alike⟩ := parts
              exact .inr ⟨left, right, bearer, attached, there, attaches, onwards.tail change,
                knownLeft, knownRight, alike.trans same⟩
          · exact .inr ⟨before, after, held, attached, reached, change, .refl, unknown, known, same⟩

end Duel

/-! ## The sweep -/

namespace Duel

variable {duel start before now : Duel} {allowance : Nat} {player : Player} {id : EntityId}

theorem swept_expireEnchantments (duel : Duel) : duel.expireEnchantments.Swept := by
  intro id entity known mark carries
  rw [entity?, expireEnchantments, Arena.get?_updateAll] at known
  obtain ⟨held, -, rfl⟩ := Option.map_eq_some_iff.mp known
  rw [Entity.enchantments_expire] at carries
  simpa using (List.mem_filter.mp carries).2

theorem Swept.updateEntity (swept : duel.Swept) {change : Entity → Entity}
    (kept : ∀ entity, (change entity).enchantments = entity.enchantments) :
    (duel.updateEntity id change).Swept := by
  intro other entity known mark carries
  rw [entity?_updateEntity] at known
  split at known
  · obtain ⟨held, knownHeld, rfl⟩ := Option.map_eq_some_iff.mp known
    rw [kept] at carries
    exact swept other held knownHeld mark carries
  · exact swept other entity known mark carries

/-- What is carried in spite of a sweep was attached after it. -/
theorem Swept.attached {entity : Entity} {mark : Enchantment} (swept : duel.Swept)
    (reaches : ReflTransGen Change duel now) (known : now.entity? id = some entity)
    (carries : mark ∈ entity.enchantments) (expires : mark.effect.oneTurn = true) :
    Attached id mark duel now := by
  refine (carried_or_attached reaches known carries).resolve_left ?_
  rintro ⟨earlier, old, knownToo, member, same⟩
  have lasts := swept id earlier knownToo old member
  have alike : old.effect.oneTurn = mark.effect.oneTurn :=
    (congrArg (fun mark : Enchantment => mark.effect.oneTurn) same :)
  cases lasts.symm.trans (alike.trans expires)

end Duel

namespace Play

open Duel

variable {duel left : Duel} {allowance : Nat} {player : Player}

theorem ensures_thaws (ids : List EntityId) (swept : duel.Swept) :
    (ids.forM fun id => change id Entity.thaw).Ensures duel fun _ left => left.Swept := by
  induction ids generalizing duel with
  | nil => exact swept
  | cons id ids ih =>
      refine Ensures.bind (yields_bind.mpr (yields_lookup.mpr ⟨fun entity known => ?_,
        fun _ => trivial⟩)) fun _ left => ih
      refine swept.updateEntity fun entity => ?_
      unfold Entity.thaw
      split <;> rfl

/-- Nobody carries an enchantment that ends with the turn right after the sweep. -/
theorem ensures_cleanUpTurn : (cleanUpTurn player).Ensures duel fun _ left => left.Swept := by
  unfold cleanUpTurn
  rw [ensures_modify_bind, ensures_get_bind]
  exact ensures_thaws _ duel.swept_expireEnchantments

/-- The sweep, and what comes of it before the next step is entered. -/
theorem ensures_enter_cleanup : (enter allowance .mainCleanup).Ensures duel fun _ left =>
    ∃ swept, cleanUpTurn duel.current { duel with step := .mainCleanup } = .ok () swept ∧
      ReflTransGen Change swept left ∧ swept.Timeless left := by
  change (cleanUpTurn duel.current >>= fun _ => settle allowance).Ensures
    { duel with step := .mainCleanup } _
  have cleans : (cleanUpTurn duel.current).Ensures { duel with step := .mainCleanup }
      fun _ left => left.Swept := ensures_cleanUpTurn
  have settles : Follows Change (settle allowance) := follows_settle
  have stands : Follows Timeless (settle allowance) := follows_settle
  refine cleans.ran.bind fun _ swept cleaned => ?_
  exact (settles.ensures.and stands.ensures).mono fun _ left both =>
    ⟨swept, cleaned.2, both.1, .of_reaches both.2⟩

end Play

namespace Duel

variable {start duel before left now : Duel} {allowance : Nat} {player : Player} {id : EntityId}

/-- The duels that a run of calls passes through when all of them succeed: before and after each
step that is entered, and where an action has done its own part.  A step is entered after the one
before it, or it belongs to the opening or begins the first turn. -/
inductive Passes (allowance : Nat) (start : Duel) : Duel → Prop
  | start : Passes allowance start start
  | enters {before left : Duel} {target : Step} (passes : Passes allowance start before)
      (turns : target = before.step.next ∨ target ∈ Step.opening ∨ target = .mainReady)
      (entered : Play.enter allowance target before = .ok () left) : Passes allowance start left
  | acts {before left : Duel} {player : Player} {action : Action}
      (passes : Passes allowance start before) (accepted : before.check player action = .ok ())
      (acted : Play.acting allowance player action (Play.record player action before) =
        .ok () left) : Passes allowance start left
  | gives {before left : Duel} {player : Player} {code : String} {id : EntityId}
      (passes : Passes allowance start before)
      (given : Play.give player code before = .ok id left) :
      Passes allowance start left
  | refills {before : Duel} (player : Player) (total : Int)
      (passes : Passes allowance start before) :
      Passes allowance start (before.updatePlayer player fun state => state.refillMana total)

/-- The turn's sweep is done, and the clock has stood still since. -/
def Cleaned (allowance : Nat) (start now : Duel) : Prop :=
  ∃ before swept, Passes allowance start before ∧
    Play.cleanUpTurn before.current { before with step := .mainCleanup } = .ok () swept ∧
      ReflTransGen Change swept now ∧ swept.Timeless now

/-- The cleanup step is never left to do without the sweep. -/
theorem Passes.cleaned {settings : Settings} {catalogue : Catalogue}
    (created : Duel.create settings catalogue = .ok start) (passes : Passes allowance start now)
    (cleanup : now.step = .mainCleanup) : Cleaned allowance start now := by
  have still {before now : Duel}
      (cleaned : before.step = .mainCleanup → Cleaned allowance start before)
      (reaches : ReflTransGen Change before now) (timeless : before.Timeless now)
      (cleanup : now.step = .mainCleanup) : Cleaned allowance start now := by
    have same : before.step = .mainCleanup := by
      rcases timeless.step with same | ended
      · exact same.symm.trans cleanup
      · cases cleanup.symm.trans (of_decide_eq_true ended)
    obtain ⟨earlier, swept, passes, sweeps, reached, stood⟩ := cleaned same
    exact ⟨earlier, swept, passes, sweeps, reached.trans reaches, stood.trans timeless⟩
  induction passes with
  | start =>
      have dawn : start.step = .unstarted := congrArg Docket.step (fresh_of_created created).1
      cases dawn.symm.trans cleanup
  | @enters before left target passes turns entered ih =>
      have target_eq : target = .mainCleanup := by
        rcases ((timeless_enter allowance before target).of_ok entered).step with same | ended
        · cases target <;> first | rfl | cases same.symm.trans cleanup
        · cases cleanup.symm.trans (of_decide_eq_true ended)
      subst target_eq
      obtain ⟨swept, sweeps, reaches, timeless⟩ := Play.ensures_enter_cleanup.of_ok entered
      exact ⟨before, swept, passes, sweeps, reaches, timeless⟩
  | @acts before left player action passes accepted acted ih =>
      have acting : Play.Follows Change (Play.acting allowance player action) :=
        follows_acting allowance player action
      have records : before.Timeless (Play.record player action before) :=
        ⟨rfl, rfl, rfl, .inl rfl⟩
      refine still ih (.head (.record before player action) (acting.ensures.of_ok acted))
        (records.trans ?_) cleanup
      exact (timeless_acting allowance player action _).of_ok acted
  | @gives before left player code id passes given ih =>
      have changes : Play.Follows Change (Play.give player code) := Play.follows_give
      have stands : Play.Follows Timeless (Play.give player code) := Play.follows_give
      exact still ih (changes.ensures.of_ok given) (.of_reaches (stands.ensures.of_ok given))
        cleanup
  | @refills before player total passes ih =>
      have call : Play.Follows Change ((Call.setMana player total).play allowance) :=
        Call.follows_play allowance _
      exact still ih (call before).reaches ⟨rfl, rfl, rfl, .inl rfl⟩ cleanup

/-- What goes on step by step passes through the steps. -/
theorem Passes.marches {result : EStateM.Result Fault Duel Unit}
    (marches : before.Marches allowance result) (passes : Passes allowance start before)
    (ran : result = .ok () now) : Passes allowance start now := by
  induction marches with
  | stops duel =>
      cases ran
      exact passes
  | refuses => cases ran
  | breaks => cases ran
  | enters running entered further ih => exact ih (passes.enters (.inl rfl) entered) ran

theorem Passes.ensures_enter {target : Step} (passes : Passes allowance start before)
    (turns : target = before.step.next ∨ target ∈ Step.opening ∨ target = .mainReady) :
    (Play.enter allowance target).Ensures before fun _ left => Passes allowance start left :=
  Play.ensures_of_ok fun _ _ entered => passes.enters turns entered

theorem Passes.ensures_start (passes : Passes allowance start before) :
    (Play.start allowance).Ensures before fun _ left => Passes allowance start left := by
  have opens {steps : List Step} (opening : ∀ step ∈ steps, step ∈ Step.opening) {before : Duel}
      (passes : Passes allowance start before) :
      (steps.forM (Play.enter allowance)).Ensures before fun _ left =>
        Passes allowance start left := by
    induction steps generalizing before with
    | nil => exact passes
    | cons step steps ih =>
        obtain ⟨first, later⟩ := List.forall_mem_cons.mp opening
        exact (passes.ensures_enter (.inr (.inl first))).bind fun _ left => ih later
  unfold Play.start
  rw [Play.ensures_get_bind]
  split
  · exact Play.ensures_violate
  refine (opens (fun step => id) passes).bind fun _ opened reached => ?_
  rw [Play.ensures_get_bind]
  split
  · exact reached
  · refine (reached.ensures_enter (.inr (.inr rfl))).bind fun _ left began => ?_
    exact Play.ensures_of_ok fun _ _ ran => began.marches Play.marches_runOn ran

theorem Passes.take {action : Action} (passes : Passes allowance start before)
    (took : Play.take allowance player action before = .ok () now) :
    Passes allowance start now := by
  rw [Play.take_eq] at took
  split at took
  · cases took
  next running =>
    split at took
    · cases took
    next accepted =>
      have carries : Play.carryOut allowance player action (Play.record player action before) =
          .ok () now := by
        unfold Play.onFault at took
        split at took
        next ran => exact ran.trans took
        next => cases took
      have goesOn : (Play.record player action before).isOver = false :=
        Bool.eq_false_iff.mpr running
      obtain ⟨breaks, marches⟩ : (Play.record player action before).MarchesAfter allowance
          (Play.acting allowance player action) (Play.carryOut allowance player action) :=
        Play.marches_carryOut goesOn accepted
      cases acted : Play.acting allowance player action (Play.record player action before) with
      | ok value left => exact (passes.acts accepted acted).marches (marches left acted) carries
      | error fault left => cases (breaks fault left acted).symm.trans carries

theorem Passes.play {call : Call} (passes : Passes allowance start before)
    (ran : call.play allowance before = .ok () now) : Passes allowance start now := by
  cases call with
  | start => exact passes.ensures_start.of_ok ran
  | take player action => exact passes.take ran
  | advance => exact passes.marches Play.marches_advance ran
  | advanceTo target => exact passes.marches Play.marches_advanceWhile ran
  | give player code =>
      change discard (Play.give player code) before = .ok () now at ran
      rw [Play.discard_apply] at ran
      split at ran
      next id left given =>
        cases ran
        exact passes.gives given
      next => cases ran
  | setMana player total =>
      cases ran
      exact passes.refills player total

/-- A run of calls that all succeed ends in a duel that it passes through. -/
theorem passes_of_runs {calls : List Call} (runs : start.Runs allowance calls now) :
    Passes allowance start now := by
  suffices goesOn : ∀ {before : Duel}, Passes allowance start before →
      before.Runs allowance calls now → Passes allowance start now from goesOn .start runs
  clear runs
  intro before passes runs
  induction calls generalizing before with
  | nil =>
      obtain rfl := runs_nil.mp runs
      exact passes
  | cons call calls ih =>
      obtain ⟨left, ran, rest⟩ := runs_cons.mp runs
      exact ih (passes.play ran) rest

/-- When the turn is about to pass, its sweep is done.  Nobody carried an enchantment for one turn
right after it, and whoever carries one now was given it since, in what the cleanup set off. -/
theorem attached_of_next {settings : Settings} {catalogue : Catalogue}
    (created : Duel.create settings catalogue = .ok start) (passes : Passes allowance start now)
    (next : now.step.next = .mainNext) :
    ∃ before swept, Passes allowance start before ∧
      Play.cleanUpTurn before.current { before with step := .mainCleanup } = .ok () swept ∧
        swept.Swept ∧ ReflTransGen Change swept now ∧ swept.Timeless now ∧
          ∀ id entity mark, now.entity? id = some entity → mark ∈ entity.enchantments →
            mark.effect.oneTurn = true → Attached id mark swept now := by
  have cleanup : now.step = .mainCleanup := by
    revert next
    cases now.step <;> simp [Step.next]
  obtain ⟨before, swept, passesBefore, sweeps, reaches, timeless⟩ := passes.cleaned created cleanup
  have clean : swept.Swept := Play.ensures_cleanUpTurn.of_ok sweeps
  exact ⟨before, swept, passesBefore, sweeps, clean, reaches, timeless,
    fun id entity mark known carries => clean.attached reaches known carries⟩

end Duel

/-- A martyr that lives by a boon for one turn, and leaves another one to its hero. -/
def Catalogue.martyrs : Catalogue :=
  .ofEntries
    [⟨Card.hero ⟨1⟩ "HERO" "" .mage 30 "POWER", Behaviour.none⟩,
      ⟨Card.power ⟨2⟩ "POWER" "" 2, Behaviour.none⟩,
      ⟨Card.minion ⟨3⟩ "MARTYR" "" 0 1 1,
        { Behaviour.none with
          effects := [.enchant "BOON" .source, .enchant "CURSE" .source]
          deathrattle := [.enchant "BOON" .hero] }⟩,
      ⟨Card.enchantment ⟨4⟩ "BOON" "",
        { Behaviour.none with
            enchant := some { Modifier.none with health := 1, oneTurn := true } }⟩,
      ⟨Card.enchantment ⟨5⟩ "CURSE" "",
        { Behaviour.none with enchant := some { Modifier.none with health := -1 } }⟩]
    [(.mage, ⟨1⟩)] (by decide) (by decide)

/-- Player zero draws the martyr, and the steps are entered one by one. -/
def Settings.martyrs : Settings :=
  { Settings.standard with
    decks := [["MARTYR"], []]
    shuffleDecks := false
    autoRun := false }

namespace Duel

/-- The turn in which the martyr is played, up to some step. -/
theorem exists_martyrdom (calls : List Call) (reached : Step)
    (comes : (outcome? Settings.martyrs Catalogue.martyrs 100
      ([.start, .advanceTo .mainAction, .take .zero (.play ⟨4⟩), .take .zero .endTurn] ++
        calls)).any (fun now => now.step = reached && (now.entity? ⟨2⟩).any fun hero =>
          hero.enchantments.any fun mark => mark.effect.oneTurn) = true) :
    ∃ start now hero mark, Duel.create Settings.martyrs Catalogue.martyrs = .ok start ∧
      start.Runs 100 ([.start, .advanceTo .mainAction, .take .zero (.play ⟨4⟩),
        .take .zero .endTurn] ++ calls) now ∧ now.step = reached ∧ now.entity? ⟨2⟩ = some hero ∧
          mark ∈ hero.enchantments ∧ mark.effect.oneTurn = true := by
  obtain ⟨start, now, created, runs, carries⟩ := exists_of_outcome _ _ _ _ _ comes
  simp only [Bool.and_eq_true, decide_eq_true_eq, Option.any_eq_true, List.any_eq_true] at carries
  obtain ⟨step, hero, known, mark, member, expires⟩ := carries
  exact ⟨start, now, hero, mark, created, runs, step, known, member, expires⟩

/-- The martyr's boon for the hero was attached after the sweep. -/
theorem attached_of_next_martyrs :
    ∃ start now swept mark, Duel.create Settings.martyrs Catalogue.martyrs = .ok start ∧
      Passes 100 start now ∧ now.step.next = .mainNext ∧ swept.Swept ∧
        ReflTransGen Change swept now ∧ swept.Timeless now ∧ mark.effect.oneTurn = true ∧
          Attached ⟨2⟩ mark swept now := by
  obtain ⟨start, now, hero, mark, created, runs, step, known, member, expires⟩ :=
    exists_martyrdom [.advance] .mainCleanup (by decide +kernel)
  have passes := passes_of_runs runs
  have next : now.step.next = .mainNext := by
    rw [step]
    rfl
  obtain ⟨-, swept, -, -, clean, reaches, timeless, attached⟩ :=
    attached_of_next created passes next
  exact ⟨start, now, swept, mark, created, passes, next, clean, reaches, timeless, expires,
    attached ⟨2⟩ hero mark known member expires⟩

/-- The hero carries the martyr's boon when the turn passes. -/
theorem not_swept_martyrs :
    ∃ start now, Duel.create Settings.martyrs Catalogue.martyrs = .ok start ∧
      start.Runs 100 [.start, .advanceTo .mainAction, .take .zero (.play ⟨4⟩), .take .zero .endTurn,
        .advance, .advance] now ∧ now.step = .mainNext ∧ ¬ now.Swept := by
  obtain ⟨start, now, hero, mark, created, runs, step, known, member, expires⟩ :=
    exists_martyrdom [.advance, .advance] .mainNext (by decide +kernel)
  refine ⟨start, now, created, runs, step, fun swept => ?_⟩
  cases (swept ⟨2⟩ hero known mark member).symm.trans expires

end Duel

end CardDuel
