import CardDuel.Proofs.Draws
import CardDuel.Proofs.Relations

/-!
# Plays are made of shifts

Whatever a play does to the table, it does by stirs and shifts, up to the fault that
ends it if there is one.  Damage and healing only stir; drawing, summoning, equipping
and the effects of cards also shift.  So these plays follow every relation that contains
the stirs or the shifts in question.
-/

namespace CardDuel

namespace Play

open Duel Relation

variable {step : Duel → Duel → Prop} {duel : Duel} {id : EntityId}

theorem leads_change {change : Entity → Entity}
    (changed : ∀ entity, duel.entity? id = some entity → step duel (duel.updateEntity id change)) :
    Leads step duel (Play.change id change) := by
  unfold Play.change
  exact leads_lookup_bind fun entity known =>
    leads_modify (.single (changed entity known))

theorem follows_roll [Rolling step] {α : Type} {draw : Dice → α × Dice} :
    Follows step (roll draw) :=
  fun duel => .single (Rolling.roll duel (draw duel.dice).2)

theorem follows_select {resolution : Resolution} {selector : Selector} :
    Follows step (select resolution selector) := by
  unfold select
  dsimp only
  split
  · exact follows_violate
  · exact follows_get.bind fun _ => follows_pure

theorem follows_selectedSatisfy {resolution : Resolution} {selector : Selector}
    {condition : Condition} :
    Follows step (selectedSatisfy resolution selector condition) := by
  unfold selectedSatisfy
  exact follows_select.bind fun _ => follows_get.bind fun _ => follows_pure

/-! ## Damage and healing -/

section Harms

variable [Harming step]

theorem follows_report {event : Event}
    (told : event.kind = .heal ∨ event.kind = .takeDamage ∨ event.kind = .dealDamage) :
    Follows step (announce event) :=
  follows_modify fun duel => Harming.report duel told

theorem follows_heal {source target : EntityId} {amount : Int} :
    Follows step (heal source target amount) := fun duel => by
  unfold heal
  apply leads_lookup_bind
  intro entity known
  dsimp only
  split
  · exact leads_pure
  · exact (leads_change fun _ _ => Harming.heal duel amount known).bind fun _ left _ =>
      follows_report (.inl rfl) left

theorem follows_stealLife {source : EntityId} {origin : Option Entity} {amount : Int} :
    Follows step (stealLife source origin amount) := by
  unfold stealLife
  split
  · exact follows_pure
  · split
    · exact follows_get.bind fun _ => follows_heal
    · exact follows_pure

theorem follows_damage {source target : EntityId} {amount : Int} :
    Follows step (damage source target amount) := by
  unfold damage
  split
  · exact follows_pure
  refine follows_get.bind fun duel => follows_lookup.bind fun entity => ?_
  split
  · exact follows_pure
  split
  · exact fun duel => leads_change fun _ _ => Harming.loseShield duel target
  have hits (poisonous freezing : Bool) :
      Follows step (Play.change target fun entity => entity.takeHit amount poisonous freezing) :=
    fun duel => leads_change fun _ _ => Harming.hit duel target amount poisonous freezing
  refine (hits _ _).bind fun _ => follows_stealLife.bind fun _ => ?_
  dsimp only
  split
  · exact (follows_report (.inr (.inl rfl))).bind fun _ => follows_report (.inr (.inr rfl))
  · exact follows_pure

end Harms

/-! ## Revisions -/

section Revisions

variable [Revising step]

theorem follows_change {change : Entity → Entity} (peaceful : Entity.Peaceful change) :
    Follows step (Play.change id change) :=
  fun duel => leads_change fun _ _ => Revising.revise duel id peaceful

theorem follows_strike : Follows step (Play.change id fun entity =>
    (entity.addTag .attacksThisTurn 1).setTag .stealth 0) :=
  fun duel => leads_change fun _ known => Revising.strike duel known

theorem follows_adjust {player : Player} {change : Duel → PlayerState → PlayerState}
    (routine : ∀ duel : Duel, PlayerState.Routine duel.settings.maxMana (change duel)) :
    Follows step (modify fun duel => duel.updatePlayer player (change duel)) :=
  follows_modify fun duel => Revising.adjust duel player (routine duel)

theorem follows_silence : Follows step (silence id) := fun duel => by
  unfold silence Play.change
  simp only [bind_assoc]
  exact leads_lookup_bind fun entity known => .single (Revising.silence duel id)

theorem follows_transform {form : CardId} : Follows step (transform id form) := fun duel => by
  unfold transform
  apply leads_get_bind
  split
  · exact follows_violate duel
  next card listed =>
    split
    · exact follows_violate duel
    next kind formed =>
      apply leads_lookup_bind
      intro entity known
      split
      · exact follows_violate duel
      next same =>
        have kept : EntityKind.ofCardType? card.cardType = some entity.kind := by
          rw [formed, Decidable.not_not.mp same]
        exact .single (Revising.transform duel known listed kept)

theorem follows_enchant {target creator : EntityId} {card : CardId} :
    Follows step (enchant target card creator) := by
  unfold enchant
  apply follows_get.bind
  intro duel
  split
  · exact follows_violate
  split
  · exact follows_violate
  split
  · exact follows_violate
  · exact follows_change (.enchant _)

theorem follows_enlist {player : Player} {hero : CardId} : Follows step (modify fun duel =>
    match duel.catalogue.card? hero with
    | none => duel
    | some card => duel.updatePlayer player fun state =>
        { state with cardClass := card.cardClass }) := fun duel => by
  apply leads_modify
  split
  · exact .refl
  · exact .single (Revising.adjust duel player (.enlist _))

theorem follows_cleanUpTurn {player : Player} : Follows step (cleanUpTurn player) :=
  fun duel => by
    unfold cleanUpTurn
    refine leads_modify_bind ?_ ((follows_get.bind fun duel =>
      follows_forM (fun _ => follows_change .thaw) _) _)
    exact (ReflTransGen.single (Revising.expire duel)).tail
      (Revising.adjust _ player .forfeit)

end Revisions

/-! ## Stirs -/

section Stirs

variable [Stirring step]

theorem follows_announce {event : Event} (living : event.kind ≠ .death) :
    Follows step (announce event) :=
  follows_modify fun duel => Stirring.announce duel living

/-- As shifts go, any event may be announced. -/
theorem follows_announcing {event : Event} : Follows Shift (announce event) :=
  follows_modify fun duel => .stir (.announce duel event)

theorem follows_remind {event : Event} (living : event.kind ≠ .death) :
    Follows step (modify fun duel => duel.addReaction (.announce event)) :=
  follows_modify fun duel => Stirring.remind duel living

/-- A fight comes to its end or to nothing, and never waits. -/
theorem answers_fight {attacker defender : EntityId} :
    Answers step (fight attacker defender) (· ≠ .suspended) := by
  unfold fight
  apply follows_get.answers
  intro duel
  split
  · exact answers_pure (by decide)
  have blows (entity : Entity) (attack counter : Int) : Answers step (do
      damage attacker defender attack
      damage defender attacker counter
      announce (Event.aimed .afterAttack entity.owner attacker (some defender))
      return Outcome.complete) (· ≠ .suspended) :=
    follows_damage.answers fun _ => follows_damage.answers fun _ =>
      (follows_announce (by nofun)).answers fun _ => answers_pure (by decide)
  refine follows_lookup.answers fun target => follows_lookup.answers fun entity =>
    follows_strike.answers fun _ => ?_
  dsimp only
  split
  · split
    · exact blows entity _ _
    · exact (follows_change (.add (-1) (by decide))).answers fun _ => blows entity _ _
  · exact blows entity _ _

end Stirs

/-! ## Shifts -/

/-- The four endings of a move. -/
theorem yields_move {goal : ZoneKind} {placement : Placement} {done : Bool → Duel → Prop}
    {failed : Duel → Prop} :
    (move id goal placement).Yields duel done failed ↔
      (duel.entity? id = none → failed duel) ∧
        ∀ entity, duel.entity? id = some entity →
          (entity.kind = .spell ∧ goal = .play → failed duel) ∧
            (¬ (entity.kind = .spell ∧ goal = .play) →
              (duel.TurnsAway entity goal → done false duel) ∧
                (¬ duel.TurnsAway entity goal →
                  done true (duel.relocate id entity goal placement))) := by
  unfold move
  rw [yields_bind, yields_lookup, and_comm]
  refine and_congr_right fun _ => forall_congr' fun entity => imp_congr_right fun known => ?_
  by_cases spell : entity.kind = .spell ∧ goal = .play
  · rw [if_pos spell, yields_violate]
    simp [spell]
  · rw [if_neg spell, yields_bind, yields_get]
    by_cases away : duel.TurnsAway entity goal
    · have full : (!usesSlot entity.kind goal && entity.zone ≠ goal &&
          duel.zones.isFull entity.owner goal) = true := by
        simpa [TurnsAway, and_assoc] using away
      rw [if_pos full, yields_pure]
      simp [spell, away]
    · have room : ¬ (!usesSlot entity.kind goal && entity.zone ≠ goal &&
          duel.zones.isFull entity.owner goal) = true := by
        simpa [TurnsAway, and_assoc] using away
      rw [if_neg room, yields_bind, yields_set, yields_pure]
      simp [spell, away]

/-- A move that finds room succeeds. -/
theorem yields_move_of_room {entity : Entity} {goal : ZoneKind} {placement : Placement}
    {done : Bool → Duel → Prop} {failed : Duel → Prop} (known : duel.entity? id = some entity)
    (allowed : ¬ (entity.kind = .spell ∧ goal = .play))
    (room : usesSlot entity.kind goal = true ∨ entity.zone = goal ∨
      duel.zones.isFull entity.owner goal = false)
    (moved : done true (duel.relocate id entity goal placement)) :
    (move id goal placement).Yields duel done failed := by
  rw [yields_move]
  refine ⟨fun unknown => ?_, fun other known' => ?_⟩
  · cases known.symm.trans unknown
  · cases known.symm.trans known'
    exact ⟨fun barred => absurd barred allowed,
      fun _ => ⟨fun away => absurd away (not_turnsAway_iff.mpr room), fun _ => moved⟩⟩

/-- A move that finds room, as an equation. -/
theorem move_of_room {entity : Entity} {goal : ZoneKind} {placement : Placement}
    (known : duel.entity? id = some entity) (allowed : ¬ (entity.kind = .spell ∧ goal = .play))
    (room : usesSlot entity.kind goal = true ∨ entity.zone = goal ∨
      duel.zones.isFull entity.owner goal = false) :
    move id goal placement duel = .ok true (duel.relocate id entity goal placement) := by
  have yields : (move id goal placement).Yields duel
      (fun answer left => answer = true ∧ left = duel.relocate id entity goal placement)
      fun _ => False := yields_move_of_room known allowed room ⟨rfl, rfl⟩
  obtain ⟨answer, left, ran, rfl, rfl⟩ := yields.exists_ok
  exact ran

/-- A move that finds no room does nothing. -/
theorem move_of_turnsAway {entity : Entity} {goal : ZoneKind} {placement : Placement}
    (known : duel.entity? id = some entity) (allowed : ¬ (entity.kind = .spell ∧ goal = .play))
    (away : duel.TurnsAway entity goal) : move id goal placement duel = .ok false duel := by
  have yields : (move id goal placement).Yields duel
      (fun answer left => answer = false ∧ left = duel) fun _ => False := by
    rw [yields_move]
    refine ⟨fun unknown => (nomatch known.symm.trans unknown), fun other knownToo => ?_⟩
    cases known.symm.trans knownToo
    exact ⟨allowed, fun _ => ⟨fun _ => ⟨rfl, rfl⟩, fun stays => absurd away stays⟩⟩
  obtain ⟨answer, left, ran, rfl, rfl⟩ := yields.exists_ok
  exact ran

/-- What comes of a card that can become an entity. -/
theorem create_of_listed {owner : Player} {form : CardId} {card : Card} {kind : EntityKind}
    (listed : duel.catalogue.card? form = some card)
    (formed : EntityKind.ofCardType? card.cardType = some kind) :
    create owner form duel = .ok duel.arena.nextId
      { duel with arena := duel.arena.push (Entity.fresh owner card kind) } := by
  unfold create
  rw [get_bind, listed]
  dsimp only
  rw [formed]
  rfl

/-- The graveyard takes whatever is sent to it. -/
theorem yields_sendToGraveyard {done : Unit → Duel → Prop} {failed : Duel → Prop} :
    (send id .graveyard).Yields duel done failed ↔
      (duel.entity? id = none → failed duel) ∧
        ∀ entity, duel.entity? id = some entity → done () (duel.interred id entity) := by
  unfold send
  rw [yields_discard, yields_move]
  refine and_congr_right fun _ => forall_congr' fun entity => imp_congr_right fun known => ?_
  unfold interred
  by_cases away : duel.TurnsAway entity .graveyard
  · simp [away]
  · simp [away]

/-! ### Putting entities somewhere -/

section Placements

variable [Placing step]

theorem follows_move {goal : ZoneKind} {placement : Placement} :
    Follows step (move id goal placement) := fun duel => by
  unfold Leads
  rw [yields_move]
  exact ⟨fun _ => .refl, fun entity known =>
    ⟨fun _ => .refl, fun allowed => ⟨fun _ => .refl, fun stays =>
      .single (Placing.relocate duel placement known allowed (not_turnsAway_iff.mp stays))⟩⟩⟩

theorem follows_send {goal : ZoneKind} : Follows step (send id goal) :=
  follows_move.discard

theorem follows_sendOrElse {goal otherwise : ZoneKind} :
    Follows step (sendOrElse id goal otherwise) := by
  unfold sendOrElse
  apply follows_move.bind
  intro placed
  split
  · exact follows_pure
  · exact follows_send

theorem follows_shuffleIn {owner : Player} : Follows step (shuffleIn id owner) := by
  unfold shuffleIn
  exact follows_get.bind fun _ => follows_roll.bind fun _ => follows_move

theorem follows_create {owner : Player} {card : CardId} :
    Follows step (create owner card) := fun duel => by
  unfold create
  apply leads_get_bind
  split
  · exact follows_violate duel
  next card listed =>
    split
    · exact follows_violate duel
    next kind instantiable => exact .single (Placing.create duel owner listed instantiable)

theorem follows_give {player : Player} {code : String} : Follows step (give player code) := by
  unfold give
  exact follows_lookupCode.bind fun _ => follows_create.bind fun _ =>
    follows_sendOrElse.bind fun _ => follows_pure

end Placements

/-! ### Changes of the table -/

section Shifts

variable [Shifting step]

theorem follows_giveTo {owner : Player} : Follows step (giveTo id owner) := fun duel => by
  unfold giveTo
  apply leads_lookup_bind
  intro entity known
  split
  · exact leads_pure
  next other => exact leads_modify (.single (Shifting.handOver duel known other))

theorem follows_drawCard {player : Player} : Follows step (drawCard player) := by
  unfold drawCard
  apply follows_get.bind
  intro duel
  split
  · apply follows_move.bind
    intro placed
    split
    · exact follows_announce (by nofun)
    · exact follows_send
  · exact (follows_adjust fun _ => .add 1 (by decide)).bind fun _ =>
      follows_get.bind fun _ => follows_damage

theorem follows_placeMinion {place : Option Nat} : Follows step (placeMinion id place) :=
  fun duel => by
    have arrives (placement : Placement) : Leads step duel (do
        if ← move id .play placement then
          Play.change id Entity.newcomer
          return true
        else
          return false) := by
      unfold Leads
      rw [yields_bind, yields_move]
      refine ⟨fun _ => .refl, fun entity known => ⟨fun _ => .refl, fun allowed =>
        ⟨fun _ => .refl, fun stays => ?_⟩⟩⟩
      have room := not_turnsAway_iff.mp stays
      rw [if_pos rfl]
      unfold Play.change
      rw [bind_assoc, yields_bind, yields_lookup]
      exact ⟨fun _ _ => Shifting.arrive duel placement known allowed room,
        fun _ => .single (Placing.relocate duel placement known allowed room)⟩
    unfold placeMinion
    cases place <;> exact arrives _

theorem follows_summon {place : Option Nat} : Follows step (summon id place) := by
  unfold summon
  apply follows_placeMinion.bind
  intro placed
  split
  · exact follows_lookup.bind fun entity => (follows_announce (by nofun)).bind fun _ =>
      (follows_remind (by nofun)).bind fun _ => follows_pure
  · exact follows_pure

/-- The weapon that makes room for another one. -/
theorem follows_outlive {player : Player} : Follows step (do
    send id .graveyard
    announce (Event.caused .death player id)) := fun duel => by
  unfold Leads
  rw [yields_bind, yields_sendToGraveyard]
  exact ⟨fun _ => .refl, fun entity known => Shifting.outlive duel player known⟩

theorem follows_equip {player : Player} : Follows step (equip player id) := by
  unfold equip
  apply follows_get.bind
  intro duel
  dsimp only
  split
  · exact follows_giveTo.bind fun _ => follows_send
  next old _ =>
    have outlives : Follows step (do
        send old .graveyard
        announce (Event.caused .death player old)) := follows_outlive
    have arms : Follows step (do giveTo id player; send id .play) :=
      follows_giveTo.bind fun _ => follows_send
    simpa only [bind_assoc] using outlives.bind fun _ => arms

theorem follows_replaceSlot {player : Player} {card : CardId} :
    Follows step (replaceSlot player id card) := by
  unfold replaceSlot
  exact follows_create.bind fun _ => follows_send.bind fun _ => follows_send

theorem follows_replaceHero {player : Player} {hero power : CardId} {weapon : Option CardId} :
    Follows step (replaceHero player hero power weapon) := by
  unfold replaceHero
  refine follows_get.bind fun duel => follows_replaceSlot.bind fun _ =>
    follows_replaceSlot.bind fun _ => follows_enlist.bind fun _ => ?_
  split
  · exact follows_pure
  · exact follows_create.bind fun _ => follows_equip

theorem follows_shuffleDeck {player : Player} : Follows step (shuffleDeck player) :=
  fun duel => by
    unfold shuffleDeck
    refine leads_get_bind (leads_roll_bind (Rolling.roll duel _) (leads_modify (.single ?_)))
    exact Shifting.shuffle { duel with dice := (duel.dice.shuffle (duel.deck player)).2 } player rfl
      (duel.dice.shuffle_perm (duel.deck player))

theorem follows_dealHands : Follows step dealHands := by
  unfold dealHands
  refine follows_get.bind fun duel => (follows_drawCard.times _).bind fun _ =>
    (follows_drawCard.times _).bind fun _ => follows_get.bind fun _ => ?_
  split
  · exact follows_pure
  · exact follows_give.discard

end Shifts

/-! ### Burials -/

/-- What a play does may be assumed to start from allowed effects. -/
theorem leads_assuming {fits : Effect → Prop} [Performing step fits] {α : Type} {action : Play α}
    (leads : duel.Fits fits → Leads step duel action) : Leads step duel action := by
  have assumed : duel.Fits fits ∨ ∀ after, step duel after := Performing.assume duel
  rcases assumed with allowed | anywhere
  · exact leads allowed
  · unfold Leads Yields
    split
    · exact .single (anywhere _)
    · exact .single (anywhere _)

theorem follows_bury {fits : Effect → Prop} [Performing step fits] :
    Follows step (bury id) := fun duel => leads_assuming fun allowed => by
  unfold bury
  apply leads_lookup_bind
  intro entity known
  apply leads_get_bind
  have words : ∀ effect ∈ duel.lastWords entity, fits effect := by
    unfold lastWords
    split
    · exact fun _ => nofun
    · exact (allowed.behaviourOf entity).deathrattle
  have buries : ReflTransGen step duel (duel.buried id entity) := Performing.bury duel known words
  unfold Leads
  dsimp only
  rw [yields_bind, yields_sendToGraveyard]
  refine ⟨fun _ => .refl, fun held knownHeld => ?_⟩
  cases known.symm.trans knownHeld
  change (if (duel.lastWords entity).isEmpty then _ else _ : Play Unit).Yields _ _ _
  unfold buried mourned at buries
  split
  next silent =>
    rw [if_pos silent] at buries
    exact buries
  next owing =>
    rw [if_neg owing] at buries
    exact buries

end Play

end CardDuel
