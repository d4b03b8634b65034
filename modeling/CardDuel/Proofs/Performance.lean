import CardDuel.Proofs.Shifts

/-!
# What running effects comes to

An effect shifts the table and goes on, or it is a discovery that offers a choice and
waits.  A list of effects does the same: it comes to an end, or it is put aside behind
the choice of its controller.
-/

namespace CardDuel

open Relation

/-- Whether an effect is a discovery. -/
def Effect.isDiscovery : Effect → Bool
  | .discover .. => true
  | _ => false

namespace Resolution

/-- The list goes on after an effect, in the same context. -/
def GoesOn (resolution : Resolution) (answer : Outcome × Resolution) : Prop :=
  answer.1 ≠ .suspended ∧ answer.2.context = resolution.context

/-- The list goes on after an effect, and what is left of it is allowed. -/
def Proceeds (fits : Effect → Prop) (resolution : Resolution) (answer : Outcome × Resolution) :
    Prop :=
  resolution.GoesOn answer ∧ answer.2.Fits fits

theorem context_enter (resolution : Resolution) (effects : List Effect) :
    (resolution.enter effects).context = resolution.context := by
  unfold enter
  split <;> rfl

end Resolution

namespace Play

open Duel

variable {step : Duel → Duel → Prop} {fits : Effect → Prop}
variable {resolution : Resolution} {controller owner : Player} {id : EntityId}

theorem follows_forSelected {selector : Selector} {action : EntityId → Play Unit}
    (follows : ∀ id, Follows step (action id)) :
    Follows step (forSelected resolution selector action) := by
  unfold forSelected
  exact follows_select.bind fun ids => follows_forM follows ids

theorem follows_randomClass {context : EffectContext} {selector : Selector}
    {cardClass : CardClass} :
    Follows step (randomClass context selector cardClass) := by
  unfold randomClass
  have known (chosen : CardClass) : Follows step
      (if chosen = .unset then violate .noClass else return chosen : Play CardClass) := by
    split
    · exact follows_violate
    · exact follows_pure
  apply follows_get.bind
  intro duel
  dsimp only
  split
  · exact follows_pure.bind known
  · exact follows_pure.bind known
  · exact follows_pure.bind known
  · exact follows_violate

theorem follows_entouragePool {absentOnly : Bool} {codes : List String} :
    Follows step (entouragePool controller absentOnly codes) := by
  induction codes with
  | nil => exact follows_pure
  | cons code codes ih =>
      exact follows_lookupCode.bind fun _ => follows_get.bind fun _ =>
        ih.bind fun _ => follows_pure

section Tables

variable [Shifting step]

theorem follows_addCopy {card : CardId} {zone : ZoneKind} :
    Follows step (addCopy owner card zone) := by
  unfold addCopy
  apply follows_create.bind
  intro id
  have orRemoved (placed : Bool) : Follows step (do unless placed do send id .removed) := by
    split
    · exact follows_pure
    · exact follows_send
  split
  · exact follows_summon.bind orRemoved
  · exact follows_shuffleIn.bind orRemoved
  · exact follows_move.bind orRemoved

theorem follows_setAside {card : CardId} : Follows step (setAside owner card) := by
  unfold setAside
  exact follows_create.bind fun _ => follows_send.bind fun _ => follows_pure

theorem answers_setAsideAll {cards : List CardId} :
    Answers step (setAsideAll owner cards) fun ids => ids.length = cards.length := by
  induction cards with
  | nil => exact answers_pure rfl
  | cons card cards ih =>
      refine follows_setAside.answers fun id => ih.bind fun ids length => answers_pure ?_
      rw [List.length_cons, List.length_cons, length]

theorem follows_placeMadeCard {selector : Selector} :
    Follows step (placeMadeCard controller selector id) := by
  unfold placeMadeCard
  have orRemoved (placed : Bool) : Follows step (do unless placed do send id .removed) := by
    split
    · exact follows_pure
    · exact follows_send
  dsimp only
  split
  · exact follows_giveTo.bind fun _ => follows_move.bind orRemoved
  · exact follows_giveTo.bind fun _ => follows_move.bind orRemoved
  · exact follows_giveTo.bind fun _ => follows_shuffleIn.bind orRemoved
  · refine follows_giveTo.bind fun _ => follows_lookup.bind fun entity => ?_
    split
    · exact follows_summon.bind orRemoved
    · exact follows_violate
  · exact follows_violate

end Tables

section Lists

theorem answers_on {outcome : Outcome} {next : Resolution} (on : outcome ≠ .suspended)
    (same : next.context = resolution.context) (allowed : next.Fits fits) :
    Answers step (pure (outcome, next) : Play (Outcome × Resolution)) (resolution.Proceeds fits) :=
  answers_pure ⟨⟨on, same⟩, allowed⟩

theorem answers_stop (allowed : resolution.Fits fits) :
    Answers step (pure (.stop, resolution) : Play (Outcome × Resolution))
      (resolution.Proceeds fits) :=
  answers_on (by decide) rfl allowed

theorem answers_goOn {scratch : Scratch} (allowed : resolution.Fits fits) :
    Answers step (pure (goOn resolution scratch) : Play (Outcome × Resolution))
      (resolution.Proceeds fits) :=
  answers_on (by decide) rfl allowed

theorem answers_enter {effects : List Effect} (allowed : resolution.Fits fits)
    (entered : ∀ effect ∈ effects, fits effect) :
    Answers step (pure (.complete, resolution.enter effects) : Play (Outcome × Resolution))
      (resolution.Proceeds fits) :=
  answers_on (by decide) (resolution.context_enter effects) (allowed.enter entered)

theorem answers_act {action : Play Unit} (allowed : resolution.Fits fits)
    (follows : Follows step action) :
    Answers step (act resolution action) (resolution.Proceeds fits) := by
  unfold act
  exact follows.answers fun _ => answers_on (by decide) rfl allowed

variable [Performing step fits]

theorem answers_hurt {selector : Selector} {amount : Int} {spellDamage : Bool}
    (allowed : resolution.Fits fits) :
    Answers step (perform.hurt resolution selector amount spellDamage)
      (resolution.Proceeds fits) := by
  unfold perform.hurt
  exact answers_act allowed (follows_select.bind fun ids => follows_get.bind fun duel =>
    follows_forM (fun _ => follows_damage) ids)

/-- Every effect but a discovery shifts the table and goes on. -/
theorem answers_perform {effect : Effect} (plain : effect.isDiscovery = false)
    (allowed : resolution.Fits fits) (fit : fits effect) :
    Answers step (perform resolution effect) (resolution.Proceeds fits) := by
  cases effect with
  | test selector condition =>
      exact follows_selectedSatisfy.answers fun _ => answers_goOn allowed
  | guard selector condition =>
      refine follows_selectedSatisfy.answers fun holds => answers_on ?_ rfl allowed
      cases holds <;> decide
  | whenFlag value effects =>
      by_cases taken : resolution.scratch.flag = value
      · rw [perform, if_pos taken]
        exact answers_enter allowed ((Performing.hereditary step).whenFlag fit)
      · rw [perform, if_neg taken]
        exact answers_on (by decide) rfl allowed
  | sequence effects => exact answers_enter allowed ((Performing.hereditary step).sequence fit)
  | repeated times effects =>
      refine answers_enter allowed fun effect member => ?_
      obtain ⟨list, replica, inside⟩ := List.mem_flatten.mp member
      rw [List.eq_of_mem_replicate replica] at inside
      exact (Performing.hereditary step).repeated fit effect inside
  | collect selector =>
      exact follows_select.answers fun _ => answers_goOn allowed
  | keep condition => exact follows_get.answers fun _ => answers_goOn allowed
  | pickRandom count =>
      rw [perform]
      split
      · exact answers_stop allowed
      · exact follows_roll.answers fun _ => answers_goOn allowed
  | readTag selector tag =>
      apply follows_select.answers
      intro ids
      split
      · exact answers_stop allowed
      · exact follows_lookup.answers fun _ => follows_get.answers fun _ =>
          answers_goOn allowed
  | addNumber operand => exact answers_goOn allowed
  | multiplyNumber operand => exact answers_goOn allowed
  | damage selector amount spellDamage => exact answers_hurt allowed
  | damageByNumber selector spellDamage => exact answers_hurt allowed
  | heal selector amount =>
      exact answers_act allowed (follows_forSelected fun _ => follows_heal)
  | healByNumber selector =>
      exact answers_act allowed (follows_forSelected fun _ => follows_heal)
  | gainArmor amount =>
      exact answers_act allowed (follows_get.bind fun _ => follows_change (.add amount (by decide)))
  | destroy selector =>
      exact answers_act allowed (follows_forSelected fun _ => (follows_change .destroy))
  | freeze selector =>
      exact answers_act allowed (follows_forSelected fun _ => follows_change (.write 1 (by decide)))
  | silence selector => exact answers_act allowed (follows_forSelected fun _ => follows_silence)
  | attack =>
      rw [perform]
      split
      · exact answers_violate
      · exact answers_fight.bind fun outcome on => answers_on on rfl allowed
  | draw count => exact answers_act allowed (follows_drawCard.times count)
  | addCards code zone count opposite =>
      exact answers_act allowed (follows_lookupCode.bind fun _ => follows_addCopy.times count)
  | summon code side =>
      refine answers_act allowed
        (follows_lookupCode.bind fun card => follows_get.bind fun duel => ?_)
      split
      · exact follows_pure
      · exact follows_create.bind fun _ => follows_summon.discard
  | returnToHand selector =>
      refine answers_act allowed
        (follows_forSelected fun id => follows_lookup.bind fun entity => ?_)
      split
      · exact follows_pure
      · exact follows_sendOrElse
  | moveTo selector zone => exact answers_act allowed (follows_forSelected fun _ => follows_send)
  | transform selector code =>
      exact answers_act allowed (follows_lookupCode.bind fun _ =>
        follows_forSelected fun _ => follows_transform)
  | makeRandom selector cardType cardClass race opposite =>
      refine follows_randomClass.answers fun chosen => follows_get.answers fun duel =>
        follows_roll.answers fun picked => ?_
      split
      · exact answers_stop allowed
      · exact follows_setAside.answers fun _ => answers_goOn allowed
  | makeEntourage count absentOnly =>
      refine follows_lookup.answers fun entity => follows_get.answers fun duel =>
        follows_entouragePool.answers fun pool => ?_
      split
      · exact answers_stop allowed
      · exact follows_roll.answers fun _ => answers_setAsideAll.follows.answers fun _ =>
          answers_goOn allowed
  | placeMade selector =>
      exact (follows_forM (fun _ => follows_placeMadeCard) _).answers fun _ =>
        answers_goOn allowed
  | discover cardType race => cases plain
  | equip code =>
      exact answers_act allowed (follows_lookupCode.bind fun _ => follows_create.bind fun _ =>
        follows_equip.bind fun _ => follows_announce (by nofun))
  | replaceHero hero power weapon =>
      have replaced (hero power : CardId) (weapon : Option CardId) : Follows step (do
          replaceHero resolution.context.controller hero power weapon
          let entity ← lookup resolution.context.source
          if entity.kind = .minion && entity.inPlay then
            send resolution.context.source .removed) := by
        refine follows_replaceHero.bind fun _ => follows_lookup.bind fun entity => ?_
        split
        · exact follows_send
        · exact follows_pure
      refine answers_act allowed
        (follows_lookupCode.bind fun hero => follows_lookupCode.bind fun power => ?_)
      split
      · exact follows_pure.bind fun _ => replaced hero power _
      · exact follows_lookupCode.map.bind fun _ => replaced hero power _
  | setTag selector tag value =>
      exact answers_act allowed (follows_forSelected fun id duel =>
        leads_change fun _ _ => Performing.write duel id fit)
  | setPlayerTag tag value =>
      exact answers_act allowed (follows_modify fun duel => Performing.award duel _ fit)
  | enchant code selector =>
      exact answers_act allowed (follows_lookupCode.bind fun _ =>
        follows_forSelected fun _ => follows_enchant)
  | gainCrystals amount filled =>
      exact answers_act allowed
        (follows_adjust fun _ => .crystals amount filled)
  | gainTemporaryMana amount =>
      exact answers_act allowed (follows_modify fun duel => Performing.lend duel _ fit)

end Lists

section Discoveries

variable [Working step fits]

theorem answers_discover {cardType : CardType} {race : Race} (allowed : resolution.Fits fits) :
    Answers step (perform resolution (.discover cardType race)) fun answer =>
      answer.2.Fits fits := by
  refine follows_get.answers fun duel => ?_
  dsimp only
  split
  · exact answers_pure allowed
  · exact follows_roll.answers fun cards => answers_setAsideAll.follows.answers fun options =>
      (follows_modify fun left => Working.choose left _ _).answers fun _ => answers_pure allowed

/-- What is left of a list after an effect is allowed if the effect and the list were. -/
theorem answers_fits {effect : Effect} (allowed : resolution.Fits fits) (fit : fits effect) :
    Answers step (perform resolution effect) fun answer => answer.2.Fits fits := by
  cases plain : effect.isDiscovery with
  | false =>
      exact fun duel => Yields.mono (answers_perform plain allowed fit duel)
        (fun _ _ both => ⟨both.1.2, both.2⟩) fun _ reaches => reaches
  | true =>
      cases effect with
      | discover cardType race => exact answers_discover allowed
      | _ => cases plain

theorem follows_resolveWithin {steps : Nat} (allowed : resolution.Fits fits) :
    Follows step (resolveWithin steps resolution) := by
  induction steps generalizing resolution with
  | zero => exact follows_pure
  | succ steps ih =>
      rw [resolveWithin]
      apply follows_get.bind
      intro duel
      split
      · exact follows_pure
      split
      · exact follows_pure
      · exact ih allowed.leave
      next effect rest outer frames =>
        have left : ({ resolution with frames := rest :: outer } : Resolution).Fits fits := by
          intro frame member
          rcases List.mem_cons.mp member with rfl | member
          · have whole : effect :: frame ∈ resolution.frames := frames ▸ List.mem_cons_self
            exact fun other inside => allowed _ whole other (List.mem_cons_of_mem effect inside)
          · exact allowed frame (frames ▸ List.mem_cons_of_mem _ member)
        have fit : fits effect :=
          allowed (effect :: rest) (frames ▸ List.mem_cons_self) effect List.mem_cons_self
        refine (answers_fits left fit).followed fun answer still => ?_
        obtain ⟨outcome, next⟩ := answer
        refine Follows.bind (follows_modify fun duel => Revising.auras duel) fun _ => ?_
        cases outcome with
        | complete => exact ih still
        | stop => exact ih still.leave
        | suspended =>
            refine Follows.bind (follows_modify fun duel => Working.suspend duel ?_)
              fun _ => follows_pure
            rintro _ ⟨⟩
            exact still

end Discoveries

/-- What a discovery comes to: without cards to offer its list stops, else its controller has a
choice between the cards that were set aside for it. -/
theorem yields_discover {duel : Duel} {cardType : CardType} {race : Race} :
    (perform resolution (.discover cardType race)).Yields duel
      (fun answer left =>
        answer = (.stop, resolution) ∧ left = duel ∨
          answer = (.suspended, resolution) ∧ ∃ middle options,
            ReflTransGen Shift duel middle ∧ options ≠ [] ∧
              left = middle.setChoice resolution.context.controller (some ⟨.discover, options⟩))
      (ReflTransGen Shift duel) := by
  rw [perform, yields_bind, yields_get]
  dsimp only
  split
  · exact .inl ⟨rfl, rfl⟩
  next offered =>
    rw [yields_bind, yields_roll, yields_bind]
    let pool := duel.catalogue.classPool duel.settings.format
      (duel.player resolution.context.controller).cardClass cardType race
    let sampled := duel.dice.sampleOf pool discoverOptions
    have rolled : Shift duel { duel with dice := sampled.2 } := .stir (.roll duel sampled.2)
    have inhabited : pool ≠ [] := fun empty => offered (List.isEmpty_iff.mpr empty)
    have cards : sampled.1 ≠ [] :=
      Dice.sampleOf_ne_nil duel.dice inhabited (by decide)
    refine Yields.mono (answers_setAsideAll _) (fun options middle both => ?_)
      (fun left shifts => .head rolled shifts)
    obtain ⟨length, shifts⟩ := both
    refine .inr ⟨rfl, middle, options, .head rolled shifts, fun empty => cards ?_, rfl⟩
    rw [empty, List.length_nil] at length
    exact List.length_eq_zero_iff.mp length.symm

end Play

namespace Duel

/-- How a list ends that a player controls: the table has shifted, and the list is over or put
aside behind a choice of the player. -/
inductive Ran (controller : Player) (before : Duel) : Duel → Prop
  | ended {after : Duel} (shifts : ReflTransGen Shift before after) : Ran controller before after
  | waits {middle : Duel} (options : List EntityId) {rest : Resolution}
      (shifts : ReflTransGen Shift before middle) (offered : options ≠ [])
      (own : rest.context.controller = controller) :
      Ran controller before
        { (middle.setChoice controller (some ⟨.discover, options⟩)).updateAuras with
          suspended := some rest }

theorem Ran.after {controller : Player} {before middle after : Duel}
    (shifts : ReflTransGen Shift before middle) (ran : Ran controller middle after) :
    Ran controller before after := by
  cases ran with
  | ended further => exact .ended (shifts.trans further)
  | waits options further offered own => exact .waits options (shifts.trans further) offered own

end Duel

namespace Play

open Duel

theorem yields_resolveWithin (steps : Nat) (resolution : Resolution) (duel : Duel) :
    (resolveWithin steps resolution).Yields duel
      (fun _ left => Ran resolution.context.controller duel left) (ReflTransGen Shift duel) := by
  induction steps generalizing resolution duel with
  | zero => exact .ended .refl
  | succ steps ih =>
      rw [resolveWithin, yields_bind, yields_get]
      split
      · exact .ended .refl
      split
      · exact .ended .refl
      · exact ih resolution.leave duel
      next effect rest outer frames =>
        let next : Resolution := { resolution with frames := rest :: outer }
        -- The effect, the auras and then the rest of the list.
        have goesOn {answer : Outcome × Resolution} {middle : Duel} (on : next.GoesOn answer)
            (shifts : ReflTransGen Shift duel middle) (further : Resolution)
            (same : further.context = answer.2.context) :
            (resolveWithin steps further).Yields middle.updateAuras
              (fun _ left => Ran resolution.context.controller duel left)
              (ReflTransGen Shift duel) := by
          have tidied : ReflTransGen Shift duel middle.updateAuras :=
            shifts.tail (.stir (.auras middle))
          have own : further.context = resolution.context := same.trans on.2
          refine Yields.mono (ih further middle.updateAuras) (fun _ left ran => ?_)
            (fun left failing => tidied.trans failing)
          rw [own] at ran
          exact ran.after tidied
        rw [yields_bind]
        cases plain : effect.isDiscovery with
        | false =>
            refine Yields.mono (answers_perform plain next.fits_true trivial duel)
              (fun answer middle both => ?_) (fun _ shifts => shifts)
            obtain ⟨⟨on, -⟩, shifts⟩ := both
            obtain ⟨outcome, further⟩ := answer
            rw [yields_bind, yields_modify]
            cases outcome with
            | complete => exact goesOn on shifts further rfl
            | stop => exact goesOn on shifts further.leave rfl
            | suspended => exact absurd rfl on.1
        | true =>
            cases effect with
            | discover cardType race =>
                refine Yields.mono yields_discover (fun answer middle both => ?_)
                  (fun _ shifts => shifts)
                rcases both with ⟨rfl, rfl⟩ | ⟨rfl, table, options, shifts, offered, rfl⟩
                · have stopped : next.GoesOn (.stop, next) := ⟨nofun, rfl⟩
                  exact goesOn stopped .refl next.leave rfl
                · exact .waits options shifts offered rfl
            | _ => cases plain

theorem yields_resolve (resolution : Resolution) (duel : Duel) :
    (resolve resolution).Yields duel
      (fun _ left => Ran resolution.context.controller duel left) (ReflTransGen Shift duel) :=
  yields_resolveWithin (resolution.weight + 1) resolution duel

end Play

end CardDuel
