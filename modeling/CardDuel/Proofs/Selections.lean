import CardDuel.Proofs.Guarding

/-!
# What selectors name

Nobody is in two containers, no hero is on a field and no known entity is in the slots of both
heroes, so a selector names nobody twice.  What a list collects is a selection, and filtering it and
drawing from it repeat nobody.  Nor does a selector name a card that the list has made: it is set
aside, it is in no slot, and it was not there yet when the list got its context.
-/

namespace CardDuel

open Relation

namespace Duel

variable {duel : Duel} {context : EffectContext} {scratch : Scratch} {player : Player}
variable {id : EntityId}

theorem contains_iff : duel.arena.contains id = true ↔ duel.entity? id ≠ none :=
  Option.isSome_iff_ne_none

theorem hero_not_mem_field (sound : duel.WellPlaced) (fits : duel.SlotsFit)
    (player other : Player) : duel.hero player ∉ duel.field other := fun stands => by
  cases fits.hero_kind ((sound.mem_field_iff other _).mp stands)

theorem nodup_side (sound : duel.WellPlaced) (fits : duel.SlotsFit) (player : Player) :
    (duel.side player).Nodup :=
  List.nodup_cons.mpr ⟨hero_not_mem_field sound fits player player,
    sound.placed.nodup player .play⟩

/-- No known entity is on both sides. -/
theorem not_mem_sides (sound : duel.WellPlaced) (fits : duel.SlotsFit) (loyal : duel.Loyal)
    (known : duel.entity? id ≠ none) (own : id ∈ duel.side player) :
    id ∉ duel.side player.opponent := fun others => by
  rcases List.mem_cons.mp own with hero | stands <;>
    rcases List.mem_cons.mp others with heroToo | standsToo
  · refine loyal.not_shared known fun side => ?_
    by_cases same : player = side
    · rw [← same, hero]
    · rw [← (Player.opponent_eq_iff player side).mpr same, heroToo]
  · rw [hero] at standsToo
    exact hero_not_mem_field sound fits _ _ standsToo
  · rw [heroToo] at stands
    exact hero_not_mem_field sound fits _ _ stands
  · exact List.disjoint_of_nodup_append (sound.nodup_fields player) stands standsToo

/-- A selector names no known entity twice. -/
theorem nodup_filter_named (sound : duel.WellPlaced) (fits : duel.SlotsFit) (loyal : duel.Loyal)
    (distinct : scratch.collected.Nodup) (selector : Selector) :
    ((duel.named context scratch selector).filter duel.arena.contains).Nodup := by
  have row (player : Player) (zone : ZoneKind) : (duel.members player zone).Nodup :=
    sound.placed.nodup player zone
  have atMost (found : Option EntityId) : found.toList.Nodup := by cases found <;> simp
  cases selector with
  | everyone =>
      change ((duel.side context.controller ++ duel.side context.controller.opponent).filter
        duel.arena.contains).Nodup
      rw [List.filter_append]
      refine ((nodup_side sound fits _).filter _).append ((nodup_side sound fits _).filter _)
        fun id own others => ?_
      obtain ⟨own, known⟩ := List.mem_filter.mp own
      exact not_mem_sides sound fits loyal (contains_iff.mp known) own
        (List.mem_of_mem_filter others)
  | source | hero | enemyHero | heroPower => exact (List.nodup_singleton _).filter _
  | target | weapon | enemyWeapon | eventSource | eventTarget => exact (atMost _).filter _
  | allMinions => exact (sound.nodup_fields _).filter _
  | allMinionsExceptSource => exact ((sound.nodup_fields _).filter _).filter _
  | minions | enemyMinions => exact (row _ .play).filter _
  | minionsExceptSource => exact ((row _ .play).filter _).filter _
  | enemies | friends => exact (nodup_side sound fits _).filter _
  | hand | enemyHand => exact (row _ .hand).filter _
  | deck => exact (row _ .deck).filter _
  | collected => exact distinct.filter _
  | nothing => exact List.nodup_nil

end Duel

/-! ## Lists in progress -/

/-- Whom a list in progress names: its context and what it has collected. -/
def Resolution.named (resolution : Resolution) : List EntityId :=
  resolution.context.names ++ resolution.scratch.collected

/-- A list in progress has its cards under guard.  It names none of them, and it has collected
nobody twice. -/
structure Resolution.Attends (held : Option Resolution) (resolution : Resolution) (duel : Duel) :
    Prop where
  guarded : duel.Guarded held resolution.scratch.made resolution.named
  apart : ∀ id ∈ resolution.named, id ∉ resolution.scratch.made
  distinct : resolution.scratch.collected.Nodup

namespace Resolution.Attends

variable {held : Option Resolution} {resolution next : Resolution} {duel left : Duel}
variable {ids : List EntityId} {id : EntityId} {selector : Selector}

theorem of_same (attends : resolution.Attends held duel) (context : next.context = resolution.context)
    (collected : next.scratch.collected = resolution.scratch.collected)
    (made : next.scratch.made = resolution.scratch.made) : next.Attends held duel where
  guarded := by
    unfold named
    rw [context, collected, made]
    exact attends.guarded
  apart := by
    unfold named
    rw [context, collected, made]
    exact attends.apart
  distinct := by
    rw [collected]
    exact attends.distinct

theorem enter (attends : resolution.Attends held duel) (effects : List Effect) :
    (resolution.enter effects).Attends held duel := by
  unfold Resolution.enter
  split
  · exact attends
  · exact attends.of_same rfl rfl rfl

theorem keep (attends : resolution.Attends held duel)
    (kept : left.Guarded held resolution.scratch.made resolution.named) :
    resolution.Attends held left :=
  { attends with guarded := kept }

/-- Known entities are collected anew. -/
theorem collect (attends : resolution.Attends held duel)
    (known : ∀ id ∈ ids, duel.entity? id ≠ none) (apart : ∀ id ∈ ids, id ∉ resolution.scratch.made)
    (distinct : ids.Nodup) :
    Attends held { resolution with scratch := { resolution.scratch with collected := ids } } duel where
  guarded := attends.guarded.naming fun id member => by
    rcases List.mem_append.mp member with context | here
    · exact attends.guarded.known id (List.mem_append_left _ context)
    · exact known id here
  apart id member := by
    rcases List.mem_append.mp member with context | here
    · exact attends.apart id (List.mem_append_left _ context)
    · exact apart id here
  distinct := distinct

theorem sift (attends : resolution.Attends held duel) (fewer : ids ⊆ resolution.scratch.collected)
    (distinct : ids.Nodup) :
    Attends held { resolution with scratch := { resolution.scratch with collected := ids } } duel :=
  attends.collect (fun id member => attends.guarded.known id (List.mem_append_right _ (fewer member)))
    (fun id member => attends.apart id (List.mem_append_right _ (fewer member))) distinct

/-- The list has made cards that were not there before. -/
theorem make (attends : resolution.Attends held duel) (fresh : ∀ id ∈ ids, duel.entity? id = none)
    (guarded : left.Guarded held (resolution.scratch.made ++ ids) resolution.named) :
    Attends held
      { resolution with scratch := { resolution.scratch with made := resolution.scratch.made ++ ids } }
      left where
  guarded := guarded
  apart id member made := by
    rcases List.mem_append.mp made with old | new
    · exact attends.apart id member old
    · exact attends.guarded.known id member (fresh id new)
  distinct := attends.distinct

/-- No selector names a card that the list has made. -/
theorem not_mem_of_named (attends : resolution.Attends held duel)
    (member : id ∈ duel.named resolution.context resolution.scratch selector) :
    id ∉ resolution.scratch.made := by
  have context (named : id ∈ resolution.context.names) : id ∉ resolution.scratch.made :=
    attends.apart id (List.mem_append_left _ named)
  have row {player : Player} {zone : ZoneKind} (away : zone ≠ .setAside)
      (member : id ∈ duel.members player zone) : id ∉ resolution.scratch.made :=
    attends.guarded.not_mem_of_mem member away
  have fields {player : Player} (member : id ∈ duel.field player ++ duel.field player.opponent) :
      id ∉ resolution.scratch.made :=
    (List.mem_append.mp member).elim (row (by decide)) (row (by decide))
  have slot {player : Player} (kind : EntityKind)
      (holds : (duel.table.slots player).holder? kind = some id) : id ∉ resolution.scratch.made :=
    attends.guarded.not_mem_of_held holds
  have side {player : Player} (member : id ∈ duel.side player) : id ∉ resolution.scratch.made := by
    rcases List.mem_cons.mp member with hero | stands
    · exact slot .hero (congrArg some hero.symm)
    · exact row (by decide) stands
  have event {event : Event} (here : resolution.context.event = some event)
      (named : id ∈ event.names) : id ∉ resolution.scratch.made := by
    refine context ?_
    simp [EffectContext.names, here, named]
  unfold Duel.named at member
  cases selector with
  | source => exact context (by simp_all [EffectContext.names])
  | target => exact context (by simp_all [EffectContext.names])
  | hero | enemyHero =>
      exact slot .hero (congrArg some (List.mem_singleton.mp member).symm)
  | heroPower => exact slot .heroPower (congrArg some (List.mem_singleton.mp member).symm)
  | weapon | enemyWeapon => exact slot .weapon (Option.mem_toList.mp member)
  | everyone => exact (List.mem_append.mp member).elim side side
  | enemies | friends => exact side member
  | allMinions => exact fields member
  | allMinionsExceptSource => exact fields (List.mem_of_mem_filter member)
  | minions | enemyMinions => exact row (by decide) member
  | minionsExceptSource => exact row (by decide) (List.mem_of_mem_filter member)
  | hand | enemyHand | deck => exact row (by decide) member
  | collected => exact attends.apart id (List.mem_append_right _ member)
  | eventSource =>
      obtain ⟨told, here, source⟩ := Option.bind_eq_some_iff.mp (Option.mem_toList.mp member)
      exact event here (by simp [Event.names, source])
  | eventTarget =>
      obtain ⟨told, here, target⟩ := Option.bind_eq_some_iff.mp (Option.mem_toList.mp member)
      exact event here (by simp [Event.names, target])
  | nothing => cases member

end Resolution.Attends

namespace Play

open Duel

variable {α : Type} {action : Play α} {next : α → Play (Outcome × Resolution)}
variable {held : Option Resolution} {resolution : Resolution} {effect : Effect} {duel : Duel}
variable {ids : List EntityId} {selector : Selector}

theorem select_eq (named : selector ≠ .nothing) (duel : Duel) :
    select resolution selector duel =
      .ok ((duel.named resolution.context resolution.scratch selector).filter
        duel.arena.contains) duel := by
  unfold select
  rw [if_neg named]
  rfl

/-- A list selects known entities, nobody twice, and none of the cards that it has made. -/
theorem yields_select (attends : resolution.Attends held duel) :
    (select resolution selector).Yields duel
      (fun ids left => left = duel ∧ ids.Nodup ∧ ∀ id ∈ ids, duel.entity? id ≠ none ∧
        id ∉ resolution.scratch.made)
      (fun left => left = duel) := by
  by_cases named : selector = .nothing
  · subst named
    exact rfl
  · unfold Yields
    rw [select_eq named]
    have guarded := attends.guarded
    refine ⟨rfl, nodup_filter_named guarded.arisen.sound guarded.arisen.slotsFit guarded.loyal
      attends.distinct selector, fun id member => ?_⟩
    obtain ⟨member, known⟩ := List.mem_filter.mp member
    exact ⟨contains_iff.mp known, attends.not_mem_of_named member⟩

/-- Whatever an effect does, its list has its cards under guard. -/
def Minds (held : Option Resolution) (duel : Duel) (action : Play (Outcome × Resolution)) : Prop :=
  action.Yields duel (fun answer left => answer.2.Attends held left) (Guarded held [] [])

theorem minds_bind (attends : resolution.Attends held duel)
    (first : Leads (Guarding held resolution.scratch.made resolution.named) duel action)
    (second : ∀ value left, resolution.Attends held left → Minds held left (next value)) :
    Minds held duel (action >>= next) := by
  unfold Minds
  rw [yields_bind]
  exact (first.keeps attends.guarded).mono
    (fun value left kept => second value left (attends.keep kept)) fun _ kept => kept.released

theorem minds_select {next : List EntityId → Play (Outcome × Resolution)}
    (attends : resolution.Attends held duel)
    (rest : ∀ ids, ids.Nodup → (∀ id ∈ ids, duel.entity? id ≠ none ∧ id ∉ resolution.scratch.made) →
      Minds held duel (next ids)) : Minds held duel (select resolution selector >>= next) := by
  unfold Minds
  rw [yields_bind]
  refine (yields_select attends).mono ?_ ?_
  · rintro ids _ ⟨rfl, distinct, apart⟩
    exact rest ids distinct apart
  · rintro _ rfl
    exact attends.guarded.released

theorem minds_act {action : Play Unit} (attends : resolution.Attends held duel)
    (leads : Leads (Guarding held resolution.scratch.made resolution.named) duel action) :
    Minds held duel (act resolution action) :=
  minds_bind attends leads fun _ _ kept => kept

theorem leads_select_bind {β : Type} {next : List EntityId → Play β}
    (attends : resolution.Attends held duel)
    (rest : ∀ ids, (∀ id ∈ ids, id ∉ resolution.scratch.made) →
      Leads (Guarding held resolution.scratch.made resolution.named) duel (next ids)) :
    Leads (Guarding held resolution.scratch.made resolution.named) duel
      (select resolution selector >>= next) := by
  unfold Leads
  rw [yields_bind]
  refine (yields_select attends).mono ?_ ?_
  · rintro ids _ ⟨rfl, -, apart⟩
    exact rest ids fun id member => (apart id member).2
  · rintro _ rfl
    exact .refl

theorem leads_forSelected_guarded {action : EntityId → Play Unit}
    (attends : resolution.Attends held duel)
    (follows : ∀ id, id ∉ resolution.scratch.made →
      Follows (Guarding held resolution.scratch.made resolution.named) (action id)) :
    Leads (Guarding held resolution.scratch.made resolution.named) duel
      (forSelected resolution selector action) := by
  unfold forSelected
  exact leads_select_bind attends fun ids apart =>
    follows_forM_of_mem (fun id member => follows id (apart id member)) duel

theorem minds_selected {action : EntityId → Play Unit} (attends : resolution.Attends held duel)
    (follows : ∀ id, id ∉ resolution.scratch.made →
      Follows (Guarding held resolution.scratch.made resolution.named) (action id)) :
    Minds held duel (act resolution (forSelected resolution selector action)) :=
  minds_act attends (leads_forSelected_guarded attends follows)

theorem minds_hurt {amount : Int} {spellDamage : Bool} (attends : resolution.Attends held duel) :
    Minds held duel (perform.hurt resolution selector amount spellDamage) := by
  have source : resolution.context.source ∈ resolution.named :=
    List.mem_append_left _ List.mem_cons_self
  unfold perform.hurt
  exact minds_act attends (leads_select_bind attends fun ids _ => (follows_get.bind fun _ =>
    follows_forM (fun _ => follows_damage_guarded (.inr source)) ids) duel)

/-- A discovery makes cards that nobody has named, and hands them over to the choice. -/
theorem minds_discover {cardType : CardType} {race : Race} (attends : resolution.Attends held duel) :
    Minds held duel (perform resolution (.discover cardType race)) := by
  rw [perform]
  refine minds_bind attends (follows_get duel) fun seen _ attends => ?_
  dsimp only
  split
  · exact attends
  refine minds_bind attends (follows_roll _) fun cards left attends => ?_
  unfold Minds
  rw [yields_bind]
  refine (yields_setAsideAll_guarded attends.guarded).mono (fun options made both => ?_)
    fun _ kept => kept.released
  obtain ⟨fresh, guarded⟩ := both
  refine attends.keep ((guarded.release (List.sublist_append_left ..)).choose ?_)
  rintro _ ⟨⟩ id option
  refine ⟨guarded.made_known (List.mem_append_right _ option), fun old => ?_⟩
  exact List.disjoint_of_nodup_append guarded.distinct old option

/-- Whatever an effect does, the list keeps to those it may name. -/
theorem minds_perform (attends : resolution.Attends held duel) :
    Minds held duel (perform resolution effect) := by
  have source : resolution.context.source ∈ resolution.named :=
    List.mem_append_left _ List.mem_cons_self
  cases effect with
  | test selector condition | guard selector condition =>
      exact minds_bind attends (follows_selectedSatisfy duel) fun holds left attends =>
        attends.of_same rfl rfl rfl
  | whenFlag value effects =>
      rw [perform]
      split
      · exact attends.enter effects
      · exact attends
  | sequence effects | repeated times effects => exact attends.enter _
  | collect selector =>
      exact minds_select attends fun ids distinct apart =>
        attends.collect (fun id member => (apart id member).1)
          (fun id member => (apart id member).2) distinct
  | keep condition =>
      exact attends.sift (List.filter_subset_self _) (attends.distinct.filter _)
  | pickRandom count =>
      rw [perform]
      split
      · exact attends
      · unfold Minds
        rw [yields_bind, yields_roll]
        have rolled := attends.keep (guarding_stir
          (.roll duel (duel.dice.sampleOf resolution.scratch.collected count).2) rfl attends.guarded)
        refine rolled.sift ?_ (duel.dice.nodup_sampleOf count attends.distinct)
        exact fun id member => Dice.mem_of_mem_sampleOf _ _ _ member
  | readTag selector tag =>
      refine minds_select attends fun ids _ _ => ?_
      split
      · exact attends
      · exact minds_bind attends (follows_lookup duel) fun _ _ attends => attends.of_same rfl rfl rfl
  | addNumber operand | multiplyNumber operand => exact attends.of_same rfl rfl rfl
  | damage selector amount spellDamage => exact minds_hurt attends
  | damageByNumber selector spellDamage => exact minds_hurt attends
  | heal selector amount => exact minds_selected attends fun _ _ => follows_heal_guarded source
  | healByNumber selector => exact minds_selected attends fun _ _ => follows_heal_guarded source
  | gainArmor amount =>
      exact minds_act attends ((follows_get.bind fun _ =>
        follows_change (.add amount (by decide))) duel)
  | destroy selector => exact minds_selected attends fun _ _ => follows_change .destroy
  | freeze selector =>
      exact minds_selected attends fun _ _ => follows_change (.write 1 (by decide))
  | silence selector => exact minds_selected attends fun _ _ => follows_silence
  | attack =>
      rw [perform]
      split
      · exact attends.guarded.released
      next defender aimed =>
        have here : resolution.context.target = some defender := aimed
        have target : defender ∈ resolution.named :=
          List.mem_append_left _ (by simp [EffectContext.names, here])
        exact minds_bind attends (follows_fight_guarded source target duel) fun _ _ attends => attends
  | draw count => exact minds_act attends (follows_drawCard_guarded.times count duel)
  | addCards code zone count opposite =>
      exact minds_act attends ((follows_lookupCode.bind fun _ =>
        follows_addCopy_guarded.times count) duel)
  | summon code side =>
      refine minds_act attends
        ((follows_lookupCode.bind fun card => follows_get.bind fun seen => ?_) duel)
      split
      · exact follows_pure
      · exact fun left => leads_create_bind fun id made apart _ =>
          (follows_summon_guarded apart).discard made
  | returnToHand selector =>
      refine minds_selected attends fun id apart => follows_lookup.bind fun entity => ?_
      split
      · exact follows_pure
      · exact follows_sendOrElse_guarded apart
  | moveTo selector zone => exact minds_selected attends fun _ => follows_send_guarded
  | transform selector code =>
      exact minds_act attends (leads_lookupCode_bind fun card =>
        leads_forSelected_guarded attends fun _ _ => follows_transform)
  | makeRandom selector cardType cardClass race opposite =>
      refine minds_bind attends (follows_randomClass duel) fun chosen _ attends =>
        minds_bind attends (follows_get _) fun seen _ attends =>
          minds_bind attends (follows_roll _) fun picked left attends => ?_
      split
      · exact attends
      · unfold Minds
        rw [yields_bind]
        exact (yields_setAside_guarded attends.guarded).mono
          (fun id _ both => attends.make both.1 both.2) fun _ kept => kept.released
  | makeEntourage count absentOnly =>
      refine minds_bind attends (follows_lookup duel) fun entity _ attends =>
        minds_bind attends (follows_get _) fun seen _ attends =>
          minds_bind attends (follows_entouragePool _) fun pool _ attends => ?_
      split
      · exact attends
      · refine minds_bind attends (follows_roll _) fun cards left attends => ?_
        unfold Minds
        rw [yields_bind]
        exact (yields_setAsideAll_guarded attends.guarded).mono
          (fun ids _ both => attends.make both.1 both.2) fun _ kept => kept.released
  | placeMade selector =>
      rw [perform]
      unfold Minds
      rw [yields_bind]
      exact (yields_placeMade_guarded attends.guarded).mono
        (fun _ left kept => ⟨kept, fun _ _ => List.not_mem_nil, attends.distinct⟩)
        fun _ kept => kept.released
  | discover cardType race => exact minds_discover attends
  | equip code =>
      refine minds_act attends ((follows_lookupCode.bind fun card left =>
        leads_create_bind fun id made apart own => ?_) duel)
      obtain ⟨kind, posted⟩ := own
      refine leads_naming (entity?_ne_none_of_post? posted)
        ((leads_equip_guarded apart ⟨kind, _, posted⟩).bind fun _ left _ =>
          follows_announce_guarded ?_ left)
      simp [Event.names, Event.caused]
  | replaceHero hero power weapon =>
      have apart := attends.apart _ source
      have replaced (hero power : CardId) (weapon : Option CardId) :
          Follows (Guarding held resolution.scratch.made resolution.named) (do
            replaceHero resolution.context.controller hero power weapon
            let entity ← lookup resolution.context.source
            if entity.kind = .minion && entity.inPlay then
              send resolution.context.source .removed) := by
        refine follows_replaceHero_guarded.bind fun _ => follows_lookup.bind fun entity => ?_
        split
        · exact follows_send_guarded apart
        · exact follows_pure
      refine minds_act attends
        ((follows_lookupCode.bind fun hero => follows_lookupCode.bind fun power => ?_) duel)
      split
      · exact follows_pure.bind fun _ => replaced hero power _
      · exact follows_lookupCode.map.bind fun _ => replaced hero power _
  | setTag selector tag value =>
      exact minds_selected attends fun _ _ => follows_revise (.write tag value)
  | setPlayerTag tag value =>
      exact minds_act attends (follows_modify
        (fun duel => guarding_stir (.adjust duel _ (.write tag value)) rfl) duel)
  | enchant code selector =>
      exact minds_act attends (leads_lookupCode_bind fun card =>
        leads_forSelected_guarded attends fun _ _ => follows_enchant)
  | gainCrystals amount filled =>
      exact minds_act attends (follows_adjust (fun _ => .crystals amount filled) duel)
  | gainTemporaryMana amount =>
      exact minds_act attends (follows_modify
        (fun duel => guarding_stir (.adjust duel _ (.temporary duel.settings.maxMana amount)) rfl) duel)

end Play

end CardDuel
