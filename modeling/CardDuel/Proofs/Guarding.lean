import CardDuel.Proofs.Allegiance

/-!
# Plays that leave made cards alone

Damage, draws, summons and whatever else plays are made of move the cards they are given, the cards
that are drawn or put to death, those in a slot, and new ones.  None of these is under guard unless
the card was given.  Events are announced of entities that have just been looked up, and of their
source, so the work that they schedule names known entities.
-/

namespace CardDuel

open Relation

namespace Duel

variable {held : Option Resolution} {made named : List EntityId}

/-- What is under guard stays so. -/
abbrev Guarding (held : Option Resolution) (made named : List EntityId) : Duel → Duel → Prop :=
  Keeping (Guarded held made named)

theorem guarding_stir {before after : Duel} (stir : Stir before after)
    (agenda : after.agenda = before.agenda) : Guarding held made named before after :=
  fun guarded => guarded.stir stir fun _ scheduled => .inl (agenda ▸ scheduled)

instance : Revising (Guarding held made named) where
  roll duel dice := guarding_stir (.roll duel dice) rfl
  revise duel id _ peaceful := guarding_stir (.revise duel id peaceful.routine.revision) rfl
  strike duel id _ _ := guarding_stir (.revise duel id .strike) rfl
  heal duel _ _ amount known := guarding_stir (.heal duel amount known) rfl
  silence duel id := guarding_stir (.silence duel id) rfl
  transform duel id entity _ _ known listed kind :=
    guarding_stir (.transform duel known listed kind) (agenda_startTriggers _ id entity.zone)
  auras duel := guarding_stir (.auras duel) rfl
  expire duel := guarding_stir (.expire duel) rfl
  fall duel fallen := guarding_stir (.fall duel fallen) rfl
  adjust duel player _ routine := guarding_stir (.adjust duel player routine.1) rfl

end Duel

namespace Play

open Duel

variable {α β : Type} {action : Play α} {next : α → Play β} {duel : Duel}
variable {held : Option Resolution} {made named ids : List EntityId} {id source target : EntityId}
variable {owner player : Player} {goal : ZoneKind} {event : Event} {amount : Int}

/-! ## Naming -/

/-- Whoever is known may be named for the rest of a play. -/
theorem leads_naming_all (known : ∀ id ∈ ids, duel.entity? id ≠ none)
    (leads : Leads (Guarding held made (ids ++ named)) duel action) :
    Leads (Guarding held made named) duel action :=
  leads_given fun guarded => leads_of_yields <|
    (leads.keeps (guarded.name known)).mono
      (fun _ _ kept => kept.forget (List.subset_append_right ids named))
      fun _ kept => kept.forget (List.subset_append_right ids named)

theorem leads_naming (known : duel.entity? id ≠ none)
    (leads : Leads (Guarding held made (id :: named)) duel action) :
    Leads (Guarding held made named) duel action :=
  leads_naming_all (List.forall_mem_singleton.mpr known) leads

theorem follows_revise {change : Entity → Entity} (revision : Entity.Revision change) :
    Follows (Guarding held made named) (Play.change id change) :=
  fun duel => leads_change fun _ _ => guarding_stir (.revise duel id revision) rfl

theorem follows_announce_guarded (names : event.names ⊆ named) :
    Follows (Guarding held made named) (announce event) :=
  follows_modify fun _ guarded => guarded.announce fun id member =>
    guarded.known id (names member)

theorem follows_remind_guarded (names : event.names ⊆ named) :
    Follows (Guarding held made named) (modify fun duel => duel.addReaction (.announce event)) :=
  follows_modify fun _ guarded => guarded.react fun id member => guarded.known id (names member)

/-! ## Damage and healing -/

theorem follows_heal_guarded (origin : source ∈ named) :
    Follows (Guarding held made named) (heal source target amount) := fun duel => by
  unfold heal
  apply leads_lookup_bind
  intro entity known
  dsimp only
  split
  · exact leads_pure
  · refine leads_naming (Option.ne_none_iff_exists'.mpr ⟨entity, known⟩) ?_
    refine (leads_change fun _ _ => Revising.heal duel amount known).bind fun _ left _ =>
      follows_announce_guarded ?_ left
    simp [Event.names, origin]

theorem follows_stealLife_guarded {origin : Option Entity} (member : source ∈ named) :
    Follows (Guarding held made named) (stealLife source origin amount) := by
  unfold stealLife
  split
  · exact follows_pure
  · split
    · exact follows_get.bind fun _ => follows_heal_guarded member
    · exact follows_pure

theorem follows_damage_guarded (origin : source = target ∨ source ∈ named) :
    Follows (Guarding held made named) (damage source target amount) := fun duel => by
  unfold damage
  split
  · exact leads_pure
  refine leads_get_bind (leads_lookup_bind fun entity known => ?_)
  refine leads_naming (Option.ne_none_iff_exists'.mpr ⟨entity, known⟩) ?_
  have member : source ∈ target :: named := List.mem_cons.mpr origin
  have told {event : Event} (names : event.names = [source, target]) :
      Follows (Guarding held made (target :: named)) (announce event) :=
    follows_announce_guarded (by simp [names, member])
  have hits (poisonous freezing : Bool) : Follows (Guarding held made (target :: named))
      (Play.change target fun entity => entity.takeHit amount poisonous freezing) :=
    follows_change (.hit amount poisonous freezing)
  split
  · exact leads_pure
  split
  · exact follows_change .loseShield duel
  refine ((hits _ _).bind fun _ => (follows_stealLife_guarded member).bind fun _ => ?_) duel
  dsimp only
  split
  · exact (told rfl).bind fun _ => told rfl
  · exact follows_pure

theorem follows_fight_guarded (attacks : source ∈ named) (defends : target ∈ named) :
    Follows (Guarding held made named) (fight source target) := by
  unfold fight
  apply follows_get.bind
  intro duel
  split
  · exact follows_pure
  have blows (entity : Entity) (attack counter : Int) : Follows (Guarding held made named) (do
      damage source target attack
      damage target source counter
      announce (Event.aimed .afterAttack entity.owner source (some target))
      return Outcome.complete) := by
    refine (follows_damage_guarded (.inr attacks)).bind fun _ =>
      (follows_damage_guarded (.inr defends)).bind fun _ =>
        (follows_announce_guarded ?_).bind fun _ => follows_pure
    simp [Event.names, Event.aimed, attacks, defends]
  refine follows_lookup.bind fun target => follows_lookup.bind fun entity =>
    follows_strike.bind fun _ => ?_
  dsimp only
  split
  · split
    · exact blows entity _ _
    · exact (follows_change (.add (-1) (by decide))).bind fun _ => blows entity _ _
  · exact blows entity _ _

/-! ## Moves -/

theorem follows_move_guarded {placement : Placement} (apart : id ∉ made) :
    Follows (Guarding held made named) (move id goal placement) := fun _ =>
  yields_move.mpr ⟨fun _ => .refl, fun _ known => ⟨fun _ => .refl, fun allowed =>
    ⟨fun _ => .refl, fun stays => .single fun guarded =>
      guarded.relocate placement apart known allowed (not_turnsAway_iff.mp stays)⟩⟩⟩

theorem follows_send_guarded (apart : id ∉ made) :
    Follows (Guarding held made named) (send id goal) :=
  (follows_move_guarded apart).discard

theorem follows_orRemoved_guarded (apart : id ∉ made) (placed : Bool) :
    Follows (Guarding held made named) (do unless placed do send id .removed) := by
  split
  · exact follows_pure
  · exact follows_send_guarded apart

theorem follows_sendOrElse_guarded {otherwise : ZoneKind} (apart : id ∉ made) :
    Follows (Guarding held made named) (sendOrElse id goal otherwise) := by
  unfold sendOrElse
  refine (follows_move_guarded apart).bind fun placed => ?_
  split
  · exact follows_pure
  · exact follows_send_guarded apart

theorem follows_shuffleIn_guarded (apart : id ∉ made) :
    Follows (Guarding held made named) (shuffleIn id owner) := by
  unfold shuffleIn
  exact follows_get.bind fun _ => follows_roll.bind fun _ => follows_move_guarded apart

theorem follows_placeMinion_guarded {place : Option Nat} (apart : id ∉ made) :
    Follows (Guarding held made named) (placeMinion id place) := by
  have arrives (placement : Placement) : Follows (Guarding held made named) (do
      if ← move id .play placement then
        Play.change id Entity.newcomer
        return true
      else
        return false) := by
    refine (follows_move_guarded apart).bind fun placed => ?_
    split
    · exact (follows_revise .newcomer).bind fun _ => follows_pure
    · exact follows_pure
  unfold placeMinion
  cases place <;> exact arrives _

theorem follows_summon_guarded {place : Option Nat} (apart : id ∉ made) :
    Follows (Guarding held made named) (summon id place) := by
  unfold summon
  refine (follows_placeMinion_guarded apart).bind fun placed => ?_
  split
  · refine fun duel => leads_lookup_bind fun entity known => ?_
    refine leads_naming (Option.ne_none_iff_exists'.mpr ⟨entity, known⟩) ?_
    refine ((follows_announce_guarded ?_).bind fun _ => (follows_remind_guarded ?_).bind fun _ =>
      follows_pure) duel <;> simp [Event.names, Event.caused]
  · exact follows_pure

/-- The card on top of a deck is not under guard. -/
theorem follows_drawCard_guarded : Follows (Guarding held made named) (drawCard player) :=
  fun duel => leads_given fun guarded => by
    unfold drawCard
    apply leads_get_bind
    split
    next top found =>
      have inDeck : top ∈ duel.members player .deck := List.mem_of_getLast? found
      have apart := guarded.not_mem_of_mem inDeck (by decide)
      refine leads_naming (guarded.known_of_mem inDeck) ?_
      refine ((follows_move_guarded apart).bind fun placed => ?_) duel
      split
      · exact follows_announce_guarded (by simp [Event.names, Event.caused])
      · exact follows_send_guarded apart
    next =>
      exact ((follows_adjust fun _ => .add 1 (by decide)).bind fun _ => follows_get.bind fun _ =>
        follows_damage_guarded (.inl rfl)) duel

theorem follows_shuffleDeck_guarded : Follows (Guarding held made named) (shuffleDeck player) :=
  fun duel => by
    unfold shuffleDeck
    refine leads_get_bind (leads_roll_bind (Rolling.roll duel _) (leads_modify (.single ?_)))
    exact fun guarded => guarded.shuffle rfl (duel.dice.shuffle_perm (duel.deck player))

/-! ## New cards -/

/-- A new card belongs to its owner, and it is not under guard. -/
theorem leads_create_bind {form : CardId} {next : EntityId → Play β}
    (rest : ∀ id left, id ∉ made →
      (∃ kind, left.table.post? id = some ⟨owner, kind, .unplaced⟩) →
        Leads (Guarding held made named) left (next id)) :
    Leads (Guarding held made named) duel (create owner form >>= next) := by
  refine leads_bind_keeping (fun guarded => ?_) fun id left (new : id ∉ made ∧
    ∃ kind, left.table.post? id = some ⟨owner, kind, .unplaced⟩) => rest id left new.1 new.2
  unfold create
  rw [yields_bind, yields_get]
  split
  · exact guarded
  next card listed =>
    split
    · exact guarded
    next kind instantiable =>
      exact ⟨⟨guarded.not_mem_of_unknown duel.arena.get?_nextId, kind,
        post?_create.trans (if_pos rfl)⟩, guarded.create listed instantiable⟩

theorem follows_addCopy_guarded {form : CardId} :
    Follows (Guarding held made named) (addCopy owner form goal) := fun duel => by
  unfold addCopy
  refine leads_create_bind fun id left apart _ => ?_
  split
  · exact ((follows_summon_guarded apart).bind (follows_orRemoved_guarded apart)) left
  · exact ((follows_shuffleIn_guarded apart).bind (follows_orRemoved_guarded apart)) left
  · exact ((follows_move_guarded apart).bind (follows_orRemoved_guarded apart)) left

theorem follows_give_guarded {code : String} :
    Follows (Guarding held made named) (give owner code) := by
  unfold give
  exact follows_lookupCode.bind fun card duel => leads_create_bind fun id left apart _ =>
    ((follows_sendOrElse_guarded apart).bind fun _ => follows_pure) left

theorem follows_dealHands_guarded : Follows (Guarding held made named) dealHands := by
  unfold dealHands
  refine follows_get.bind fun duel => (follows_drawCard_guarded.times _).bind fun _ =>
    (follows_drawCard_guarded.times _).bind fun _ => follows_get.bind fun _ => ?_
  split
  · exact follows_pure
  · exact follows_give_guarded.discard

/-- A card of the player is equipped without changing hands. -/
theorem leads_equip_guarded (apart : id ∉ made)
    (own : ∃ kind zone, duel.table.post? id = some ⟨player, kind, zone⟩) :
    Leads (Guarding held made named) duel (equip player id) := leads_given fun guarded => by
  have arms (left : Duel) (own : ∃ kind zone, left.table.post? id = some ⟨player, kind, zone⟩) :
      Leads (Guarding held made named) left (do giveTo id player; send id .play) := by
    obtain ⟨kind, zone, posted⟩ := own
    obtain ⟨entity, known, owner, -⟩ := exists_of_post? posted
    have keeps : giveTo id player left = .ok () left := by
      unfold giveTo
      rw [bind_of_ok (lookup_of_entity? known), if_pos owner]
      rfl
    unfold Leads
    rw [yields_bind_of_ok keeps]
    exact follows_send_guarded apart left
  unfold equip
  apply leads_get_bind
  dsimp only
  split
  · exact arms duel own
  next old armed =>
    have wielded : (duel.table.slots player).holder? .weapon = some old := armed
    have free : old ∉ made := guarded.not_mem_of_held wielded
    -- The old weapon goes, and whoever owns the new one still does.
    have outlives : (do
        send old .graveyard
        announce (Event.caused .death player old) : Play Unit).Yields duel
          (fun _ left => (∃ kind zone, left.table.post? id = some ⟨player, kind, zone⟩) ∧
            Guarded held made named left) (Guarded held made named) := by
      rw [yields_bind, yields_sendToGraveyard]
      refine ⟨fun _ => guarded, fun entity known => ?_⟩
      have kept : (∃ kind zone, (duel.interred old entity).table.post? id =
          some ⟨player, kind, zone⟩) ∧ Guarded held made named (duel.interred old entity) := by
        unfold interred
        split
        · exact ⟨own, guarded⟩
        next stays =>
          have room := not_turnsAway_iff.mp stays
          refine ⟨?_, guarded.relocate .top free known (fun both => nomatch both.2) room⟩
          rw [post?_relocate .top guarded.arisen.sound known room]
          split
          next here =>
            obtain ⟨kind, zone, posted⟩ := own
            rw [here, post?_of_entity? known] at posted
            cases posted
            exact ⟨_, _, rfl⟩
          next => exact own
      refine ⟨kept.1, kept.2.announce fun other member => ?_⟩
      have same : other = old := by simpa [Event.names, Event.caused] using member
      have interred : ReflTransGen Change duel (duel.interred old entity) := reaches_interred known
      rw [same]
      exact known_of_reaches interred (Option.ne_none_iff_exists'.mpr ⟨entity, known⟩)
    have both : Leads (Guarding held made named) duel ((do
        send old .graveyard
        announce (Event.caused .death player old) : Play Unit) >>= fun _ => do
          giveTo id player
          send id .play) :=
      leads_bind_keeping (fun _ => outlives) fun _ left own => arms left own
    simpa only [bind_assoc] using both

theorem leads_replaceSlot_guarded {old : EntityId} {form : CardId} (apart : old ∉ made) :
    Leads (Guarding held made named) duel (replaceSlot player old form) := by
  unfold replaceSlot
  exact leads_create_bind fun id left new _ =>
    ((follows_send_guarded apart).bind fun _ => follows_send_guarded new) left

theorem follows_replaceHero_guarded {hero power : CardId} {weapon : Option CardId} :
    Follows (Guarding held made named) (replaceHero player hero power weapon) :=
  fun duel => leads_given fun guarded => by
    unfold replaceHero
    apply leads_get_bind
    have free (slot : EntityKind) {old : EntityId}
        (holds : (duel.table.slots player).holder? slot = some old) (form : CardId) :
        Follows (Guarding held made named) (replaceSlot player old form) := fun left =>
      leads_replaceSlot_guarded (guarded.not_mem_of_held holds)
    refine ((free .hero rfl hero).bind fun _ =>
      (free .heroPower rfl power).bind fun _ => follows_enlist.bind fun _ => ?_) duel
    split
    · exact follows_pure
    · exact fun left => leads_create_bind fun id made apart own =>
        leads_equip_guarded apart (own.imp fun _ posted => ⟨_, posted⟩)

/-! ## Made cards -/

theorem follows_setAside_guarded {form : CardId} :
    Follows (Guarding held made named) (setAside owner form) := fun duel => by
  unfold setAside
  exact leads_create_bind fun id left apart _ =>
    ((follows_send_guarded apart).bind fun _ => follows_pure) left

theorem follows_setAsideAll_guarded {cards : List CardId} :
    Follows (Guarding held made named) (setAsideAll owner cards) := by
  induction cards with
  | nil => exact follows_pure
  | cons form cards ih =>
      exact follows_setAside_guarded.bind fun _ => ih.bind fun _ => follows_pure

/-- Cards that are made come under guard, and nobody was one of them before. -/
theorem yields_creates_guarded {makes : Play α} {ids : α → List EntityId} {cards : List CardId}
    (guarded : Guarded held made named duel) (shifts : Follows Shift makes)
    (keeps : Follows (Guarding held made named) makes)
    (creates : makes.Ensures duel fun value left => duel.Creates owner cards (ids value) left) :
    makes.Yields duel
      (fun value left => (∀ id ∈ ids value, duel.entity? id = none) ∧
        Guarded held (made ++ ids value) named left)
      (Guarded held made named) := by
  have all := ((Leads.keeps (keeps duel) guarded).and shifts.ensures).and creates
  exact all.mono (fun _ _ both => ⟨both.2.fresh,
    guarded.creates (Shift.changes both.1.2) both.2⟩) fun _ kept => kept

theorem yields_setAside_guarded {form : CardId} (guarded : Guarded held made named duel) :
    (setAside owner form).Yields duel
      (fun id left => (∀ other ∈ [id], duel.entity? other = none) ∧
        Guarded held (made ++ [id]) named left)
      (Guarded held made named) :=
  yields_creates_guarded guarded follows_setAside follows_setAside_guarded
    (ensures_setAside owner guarded.arisen.sound)

theorem yields_setAsideAll_guarded {cards : List CardId} (guarded : Guarded held made named duel) :
    (setAsideAll owner cards).Yields duel
      (fun ids left => (∀ id ∈ ids, duel.entity? id = none) ∧
        Guarded held (made ++ ids) named left)
      (Guarded held made named) :=
  yields_creates_guarded guarded answers_setAsideAll.follows follows_setAsideAll_guarded
    (ensures_setAsideAll owner guarded.arisen.sound)

theorem yields_giveTo_guarded (guarded : Guarded held (id :: made) named duel) :
    (giveTo id owner).Yields duel (fun _ => Guarded held made named)
      (Guarded held made named) := by
  have rest : Guarded held made named duel := guarded.release (List.sublist_cons_self id made)
  unfold giveTo
  rw [yields_bind, yields_lookup]
  refine ⟨fun entity known => ?_, fun _ => rest⟩
  split
  · exact rest
  next other =>
    refine rest.handOver (List.nodup_cons.mp guarded.distinct).1 known (fun player hero => ?_) other
    exact guarded.unslotted id List.mem_cons_self player .hero (congrArg some hero)

/-- A made card is placed, and the others stay under guard. -/
theorem yields_placeMadeCard_guarded {selector : Selector}
    (guarded : Guarded held (id :: made) named duel) :
    (placeMadeCard player selector id).Yields duel (fun _ => Guarded held made named)
      (Guarded held made named) := by
  have apart := (List.nodup_cons.mp guarded.distinct).1
  have placing {owner : Player} {rest : Play Unit}
      (places : Follows (Guarding held made named) rest) :
      (giveTo id owner >>= fun _ => rest).Yields duel (fun _ => Guarded held made named)
        (Guarded held made named) := by
    rw [yields_bind]
    exact (yields_giveTo_guarded guarded).mono (fun _ left => Leads.keeps (places left))
      fun _ kept => kept
  have moves {place : Play Bool} (places : Follows (Guarding held made named) place) :=
    places.bind (follows_orRemoved_guarded apart)
  unfold placeMadeCard
  dsimp only
  split
  · exact placing (moves (follows_move_guarded apart))
  · exact placing (moves (follows_move_guarded apart))
  · exact placing (moves (follows_shuffleIn_guarded apart))
  · refine placing (follows_lookup.bind fun entity => ?_)
    split
    · exact moves (follows_summon_guarded apart)
    · exact follows_violate
  · exact guarded.release (List.sublist_cons_self id made)

theorem yields_placeMade_guarded {selector : Selector} (guarded : Guarded held made named duel) :
    (made.forM (placeMadeCard player selector)).Yields duel (fun _ => Guarded held [] named)
      (Guarded held [] named) := by
  induction made generalizing duel with
  | nil => exact guarded
  | cons id made ih =>
      change (placeMadeCard player selector id >>= fun _ =>
        made.forM (placeMadeCard player selector)).Yields _ _ _
      rw [yields_bind]
      exact (yields_placeMadeCard_guarded guarded).mono (fun _ _ => ih)
        fun _ kept => kept.release (List.nil_sublist made)

/-! ## Deaths -/

theorem follows_bury_guarded (apart : id ∉ made) :
    Follows (Guarding held made named) (bury id) := fun duel => by
  unfold bury
  refine leads_lookup_bind fun entity known => ?_
  refine leads_naming (Option.ne_none_iff_exists'.mpr ⟨entity, known⟩) (leads_get_bind ?_)
  dsimp only
  have tolls : Follows (Guarding held made (id :: named))
      (announce (Event.caused .death entity.owner id)) :=
    follows_announce_guarded (by simp [Event.names, Event.caused])
  have mourns (words : List Effect) : Follows (Guarding held made (id :: named)) (do
      unless words.isEmpty do
        modify fun duel =>
          duel.addReaction (.run (.ofEffects words ⟨entity.owner, id, none, none⟩))
      announce (Event.caused .death entity.owner id)) := by
    split
    · exact tolls
    · refine Follows.bind (follows_modify fun left guarded => guarded.react ⟨rfl, ?_⟩)
        fun _ => tolls
      intro other member
      rw [show other = id by simpa [Resolution.ofEffects, EffectContext.names] using member]
      exact guarded.known id List.mem_cons_self
  exact ((follows_send_guarded apart).bind fun _ => mourns _) duel

/-- The dead are not under guard, and once the match is over nothing is. -/
theorem yields_processDeaths_guarded (guarded : Guarded held made named duel) :
    processDeaths.Yields duel
      (fun _ left => Guarded held made named left ∨ Guarded none [] [] left)
      (Guarded held made named) := by
  unfold processDeaths
  rw [yields_bind, yields_get]
  split
  · exact .inl guarded
  have apart (id : EntityId) (member : id ∈ duel.fallen) : id ∉ made := by
    obtain ⟨-, player, stands | armed⟩ := mem_fallen_iff.mp member
    · exact guarded.not_mem_of_mem stands (by decide)
    · have wielded : (duel.table.slots player).holder? .weapon = some id := armed
      exact guarded.not_mem_of_held wielded
  have buries := Leads.keeps
    (follows_forM_of_mem (fun id member => follows_bury_guarded (apart id member))
      (duel.markFallen duel.deadMinions))
    (guarding_stir (.fall duel duel.deadMinions) rfl guarded)
  rw [yields_bind, yields_set, yields_bind]
  refine buries.mono (fun _ left kept => ?_) fun _ kept => kept
  rw [yields_modify]
  split
  · exact .inl kept
  · exact .inr (kept.of_clear (.finish left _) (left.table_finish _) rfl rfl rfl)

/-! ## Steps and answers -/

/-- Nobody in a hand is under guard, so both players may be asked what to replace. -/
theorem follows_offerMulligan_guarded : Follows (Guarding held made named) offerMulligan := by
  have offers (coin : Option CardId) (player : Player) : Follows (Guarding held made named)
      (modify fun duel =>
        duel.setChoice player (some ⟨.mulligan, duel.replaceable player coin⟩)) :=
    follows_modify fun duel guarded => guarded.choose fun offered same id member => by
      cases same
      have inHand : id ∈ duel.members player .hand := List.mem_of_mem_filter member
      exact ⟨guarded.known_of_mem inHand, guarded.not_mem_of_mem inHand (by decide)⟩
  unfold offerMulligan
  apply follows_get.bind
  intro duel
  dsimp only
  split
  · exact follows_pure
  split
  · exact follows_pure.bind fun _ => follows_forM (offers _) _
  · exact follows_lookupCode.map.bind fun _ => follows_forM (offers _) _

/-- A change of the clock. -/
theorem guarding_clock {before after : Duel} (change : Change before after)
    (table : after.table = before.table) (suspended : after.suspended = before.suspended)
    (choices : after.choices = before.choices) (agenda : after.agenda = before.agenda) :
    Guarding held made named before after := fun guarded =>
  guarded.of_table change table suspended choices fun _ scheduled => .inl (agenda ▸ scheduled)

theorem follows_stepWork_guarded {target : Step} :
    Follows (Guarding held made named) (stepWork player target) :=
  follows_stepWork_of (fun duel _ => guarding_clock (.pass duel _) rfl rfl rfl rfl)
    (fun duel => guarding_clock (.count duel) rfl rfl rfl rfl)
    (fun duel id => guarding_stir (.revise duel id .refresh) rfl)
    (fun _ _ => follows_announce_guarded (by simp [Event.names, Event.plain]))
    (fun _ => follows_shuffleDeck_guarded) follows_drawCard_guarded follows_dealHands_guarded
    follows_offerMulligan_guarded

theorem follows_exchange_guarded (apart : ∀ id ∈ ids, id ∉ made) :
    Follows (Guarding held made named) (exchange player ids) := by
  unfold exchange
  exact (follows_forM_of_mem fun id member => follows_send_guarded (apart id member)).bind
    fun _ => (follows_drawCard_guarded.times _).bind fun _ =>
      follows_forM_of_mem fun id member => (follows_shuffleIn_guarded (apart id member)).discard

theorem follows_settleOptions_guarded {pick : EntityId} (apart : ∀ id ∈ ids, id ∉ made) :
    Follows (Guarding held made named) (settleOptions pick ids) := by
  unfold settleOptions
  refine follows_forM_of_mem fun id member => ?_
  split
  · exact follows_sendOrElse_guarded (apart id member)
  · exact follows_send_guarded (apart id member)

theorem leads_placePlayed_guarded {entity : Entity} {position : Option Nat} (apart : id ∉ made)
    (known : duel.entity? id = some entity) (own : entity.owner = player) :
    Leads (Guarding held made named) duel (placePlayed player id entity position) := by
  unfold placePlayed
  split
  · refine ((follows_adjust fun _ => .add 1 (by decide)).bind fun _ =>
      (follows_placeMinion_guarded apart).bind fun placed => ?_) duel
    split
    · exact follows_pure
    · exact follows_violate
  · exact follows_send_guarded apart duel
  · exact leads_equip_guarded apart ⟨_, _, own ▸ post?_of_entity? known⟩
  · exact follows_violate duel

end Play

end CardDuel
