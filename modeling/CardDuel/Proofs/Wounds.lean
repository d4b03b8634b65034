import CardDuel.Proofs.Firings

/-!
# Wounds

The damage on an entity is never negative, so its health never exceeds its maximum.  Damage is
added when an entity is hit, taken away by healing as far as there is any, and written anew
whenever a maximum falls; nothing else touches it as long as no card writes the tag itself.
-/

namespace CardDuel

open Relation

/-- Whether all cards of a catalogue are printed without damage. -/
def Catalogue.PrintsHale (catalogue : Catalogue) : Prop :=
  ∀ entry ∈ catalogue.entries, entry.card.tags.get .damage = 0

namespace Entity

/-- A fresh copy has the damage that its card is printed with. -/
theorem damage_fresh (owner : Player) (card : Card) (kind : EntityKind) :
    (fresh owner card kind).damage = card.tags.get .damage := by
  unfold damage fresh freshTags
  cases card.spellPower <;> cases card.durability <;> cases card.health <;>
    simp only [Tags.get_set, reduceCtorEq, if_false]

theorem damage_replacedBy (entity : Entity) (card : Card) :
    (entity.replacedBy card).damage = card.tags.get .damage :=
  (get_setTag _ _ (by decide)).trans (damage_fresh entity.owner card entity.kind)

theorem damage_withAura (entity : Entity) (total : AuraTotal) (sound : 0 ≤ entity.damage) :
    0 ≤ (entity.withAura total).damage := by
  unfold withAura
  split
  · exact sound
  · exact damage_keepHealth _ entity sound

theorem damage_expire (entity : Entity) (sound : 0 ≤ entity.damage) :
    0 ≤ entity.expire.damage := by
  unfold expire
  split
  · exact damage_keepHealth _ entity sound
  · exact sound

theorem damage_silence (entity : Entity) (sound : 0 ≤ entity.damage) :
    0 ≤ entity.silence.damage := by
  apply damage_keepHealth
  rw [damage, Tags.get_set, if_neg (by decide), Tags.get_clear _ (by decide)]
  exact sound

/-- Healing takes away no more damage than there is. -/
theorem damage_heal (entity : Entity) (amount : Int) (sound : 0 ≤ entity.damage) :
    0 ≤ (entity.addTag .damage (-entity.healable amount)).damage := by
  rw [damage, addTag, Tags.get_add, if_pos rfl]
  unfold healable
  unfold damage at *
  omega

theorem health_le_maxHealth {entity : Entity} (sound : 0 ≤ entity.damage) :
    entity.health ≤ entity.maxHealth :=
  Int.sub_le_self _ sound

end Entity

/-- Fresh copies of cards that are printed without damage have none. -/
theorem Catalogue.PrintsHale.damage_fresh {catalogue : Catalogue} (prints : catalogue.PrintsHale)
    {id : CardId} {card : Card} (listed : catalogue.card? id = some card) (owner : Player)
    (kind : EntityKind) : 0 ≤ (Entity.fresh owner card kind).damage := by
  obtain ⟨behaviour, member⟩ := Catalogue.mem_entries_of_card? listed
  rw [Entity.damage_fresh]
  exact Int.le_of_eq (prints _ member).symm

namespace Duel

variable {duel before after : Duel} {id : EntityId} {entity : Entity} {player : Player}
variable {fits : Effect → Prop}

/-- No entity has negative damage. -/
def Hale (duel : Duel) : Prop :=
  ∀ id entity, duel.entity? id = some entity → 0 ≤ entity.damage

theorem Hale.of_bodies (bodies : ∀ id body, duel.body? id = some body → 0 ≤ body.damage) :
    duel.Hale :=
  fun id entity known => bodies id entity.body (body?_of_entity? known)

theorem Hale.body (hale : duel.Hale) {body : Entity} (found : duel.body? id = some body) :
    0 ≤ body.damage := by
  obtain ⟨entity, known, rfl⟩ := Option.map_eq_some_iff.mp found
  exact hale id entity known

theorem Hale.congr (hale : before.Hale) (bodies : ∀ id, after.body? id = before.body? id) :
    after.Hale :=
  .of_bodies fun id _ found => hale.body ((bodies id).symm.trans found)

theorem Hale.updateEntity (hale : duel.Hale) (id : EntityId) {change : Entity → Entity}
    (kept : ∀ entity, duel.entity? id = some entity → 0 ≤ (change entity).damage) :
    (duel.updateEntity id change).Hale := by
  intro other entity known
  rw [entity?_updateEntity] at known
  split at known
  next same =>
    obtain ⟨held, knownHeld, rfl⟩ := Option.map_eq_some_iff.mp known
    exact kept held (same ▸ knownHeld)
  · exact hale other entity known

theorem Hale.updateAll (hale : duel.Hale) {change : EntityId → Entity → Entity}
    (kept : ∀ id entity, 0 ≤ entity.damage → 0 ≤ (change id entity).damage) :
    ({ duel with arena := duel.arena.updateAll change } : Duel).Hale := by
  intro id entity known
  rw [entity?, Arena.get?_updateAll] at known
  obtain ⟨held, knownHeld, rfl⟩ := Option.map_eq_some_iff.mp known
  exact kept id held (hale id held knownHeld)

theorem Hale.startTriggers (hale : duel.Hale) (id : EntityId) (zone : ZoneKind) :
    (duel.startTriggers id zone).Hale := by
  obtain ⟨triggers, started⟩ := startTriggers_eq duel id zone
  rw [started]
  exact hale

/-- Leaving play keeps the damage, or it makes a fresh copy. -/
theorem damage_partedBody (prints : duel.catalogue.PrintsHale) (goal : ZoneKind)
    (sound : 0 ≤ entity.damage) : 0 ≤ (duel.partedBody goal entity).damage := by
  unfold partedBody afterPlay
  dsimp only
  split
  · split
    · split
      · exact sound
      next card listed =>
        exact prints.damage_fresh listed entity.owner entity.kind
    · exact sound
  · exact sound

theorem damage_bereave (id : EntityId) (entity other : Entity) :
    (bereave id entity other).damage = other.damage := by
  unfold bereave
  split <;> rfl

/-- What leaves its zone keeps nobody from being hale, wherever it is put then. -/
theorem Hale.parted {goal : ZoneKind} (hale : before.Hale) (prints : before.catalogue.PrintsHale)
    (known : before.entity? id = some entity)
    (bodies : ∀ other, after.body? other =
      if other = id then some (before.partedBody goal entity)
      else (before.body? other).map (bereave id entity)) : after.Hale := by
  refine .of_bodies fun other body found => ?_
  rw [bodies] at found
  split at found
  · cases found
    exact damage_partedBody prints goal (hale id entity known)
  · obtain ⟨held, foundHeld, rfl⟩ := Option.map_eq_some_iff.mp found
    rw [damage_bereave]
    exact hale.body foundHeld

theorem Hale.relocate {goal : ZoneKind} (hale : duel.Hale) (prints : duel.catalogue.PrintsHale)
    (placement : Placement) (known : duel.entity? id = some entity) :
    (duel.relocate id entity goal placement).Hale :=
  hale.parted prints known (body?_relocate known goal placement)

theorem Hale.interred (hale : duel.Hale) (prints : duel.catalogue.PrintsHale)
    (known : duel.entity? id = some entity) : (duel.interred id entity).Hale := by
  unfold Duel.interred
  split
  · exact hale
  · exact hale.relocate prints .top known

theorem Hale.buried (hale : duel.Hale) (prints : duel.catalogue.PrintsHale)
    (known : duel.entity? id = some entity) : (duel.buried id entity).Hale := by
  have rests := hale.interred prints known
  unfold Duel.buried mourned
  split <;> exact rests

/-- A lawful change keeps everybody hale if effects spare the tag. -/
theorem Lawful.hale (lawful : Lawful (Effect.Spares .damage) before after)
    (tidy : before.Tidy (Effect.Spares .damage)) (prints : before.catalogue.PrintsHale)
    (hale : before.Hale) : after.Hale := by
  obtain ⟨demise, law⟩ := lawful
  cases law with
  | unruly after untidy => exact absurd tidy untidy
  | relocate placement known _ _ => exact hale.relocate prints placement known
  | create owner listed instantiable =>
      intro id entity known
      rw [entity?, Arena.get?_push] at known
      split at known
      · cases known
        exact prints.damage_fresh listed owner _
      · exact hale id entity known
  | handOver known other =>
      have parted := hale.parted prints known (body?_leaveZone known .unplaced)
      exact parted.updateEntity _ fun entity left => parted _ entity left
  | shuffle player container reordered => exact hale.congr (body?_renumber _ player .deck)
  | outlive player known => exact hale.interred prints known
  | revise id routine =>
      exact hale.updateEntity id fun entity known => routine.damage entity (hale id entity known)
  | @heal id entity amount known =>
      refine hale.updateEntity id fun patient knownPatient => ?_
      cases known.symm.trans knownPatient
      exact entity.damage_heal amount (hale id entity known)
  | silence id =>
      exact hale.updateEntity id fun entity known => entity.damage_silence (hale id entity known)
  | @transform id entity form card known listed kind =>
      refine Hale.startTriggers (Hale.updateEntity ?_ id fun held _ => ?_) id entity.zone
      · exact hale
      · rw [held.damage_replacedBy card, ← Entity.damage_fresh held.owner card held.kind]
        exact prints.damage_fresh listed held.owner held.kind
  | auras => exact hale.updateAll fun _ entity => entity.damage_withAura _
  | expire => exact hale.updateAll fun _ entity => entity.damage_expire
  | fall fallen =>
      intro id entity known
      have same : ((before.markFallen fallen).entity? id).map Entity.damage =
          (before.entity? id).map Entity.damage :=
        before.map_markFallen fallen id fun _ _ => rfl
      rw [known] at same
      obtain ⟨held, knownHeld, same⟩ := Option.map_eq_some_iff.mp same.symm
      exact same ▸ hale id held knownHeld
  | @write id selector tag value spared =>
      refine hale.updateEntity id fun entity known => ?_
      have away : Tag.damage ≠ tag := fun same => spared (same ▸ .setTag selector value)
      rw [Entity.damage, entity.get_setTag value away]
      exact hale id entity known
  | bury known _ => exact hale.buried prints known
  | _ => exact hale

theorem bare_hale {settings : Settings} {catalogue : Catalogue}
    (begun : Duel.bare settings catalogue = .ok duel) : duel.catalogue = catalogue ∧ duel.Hale := by
  obtain ⟨first, dice, zero, one, rfl⟩ := bare_eq begun
  exact ⟨rfl, fun id _ known => nomatch (Arena.get?_empty id).symm.trans known⟩

/-- Whatever is asked of a duel whose cards are printed without damage and do not write the tag,
nobody has negative damage, so nobody has more health than its maximum. -/
theorem health_le_maxHealth_afterCalls {settings : Settings} {catalogue : Catalogue}
    (created : Duel.create settings catalogue = .ok duel) (prints : catalogue.PrintsHale)
    (spared : catalogue.Spares .damage) (allowance : Nat) (calls : List Call) (id : EntityId)
    (entity : Entity) (known : (duel.afterCalls allowance calls).entity? id = some entity) :
    0 ≤ entity.damage ∧ entity.health ≤ entity.maxHealth := by
  have along : (duel.afterCalls allowance calls).catalogue = catalogue ∧
      (duel.afterCalls allowance calls).Hale := by
    refine along_afterCalls (fun duel => duel.catalogue = catalogue ∧ duel.Hale) created allowance
      spared (fun call _ => ?_) (fun bare begun => bare_hale begun) ?_
    · cases call with
      | setMana player total => exact nofun
      | _ => trivial
    · rintro before after tidy ⟨kept, hale⟩ lawful
      have fixed := Change.fixed_of_reaches (lawful.changes tidy)
      exact ⟨fixed.2.trans kept, lawful.hale tidy (kept ▸ prints) hale⟩
  have sound := along.2 id entity known
  exact ⟨sound, Entity.health_le_maxHealth sound⟩

end Duel

/-- A minion that wounds its hero and then heals it. -/
def Catalogue.medics : Catalogue :=
  .ofEntries
    [⟨Card.hero ⟨1⟩ "HERO" "" .mage 30 "POWER", Behaviour.none⟩,
      ⟨Card.power ⟨2⟩ "POWER" "" 2, Behaviour.none⟩,
      ⟨Card.minion ⟨3⟩ "MEDIC" "" 0 1 1,
        { Behaviour.none with effects := [.damage .hero 5 false, .heal .hero 3] }⟩]
    [(.mage, ⟨1⟩)] (by decide) (by decide)

/-- Player zero draws four medics. -/
def Settings.medics : Settings :=
  { Settings.standard with decks := [List.replicate 4 "MEDIC", []], shuffleDecks := false }

namespace Duel

theorem printsHale_medics : Catalogue.medics.PrintsHale := by
  rw [Catalogue.PrintsHale, Catalogue.medics, Catalogue.entries_ofEntries]
  exact List.forall_mem_cons.mpr
    ⟨rfl, List.forall_mem_cons.mpr ⟨rfl, List.forall_mem_singleton.mpr rfl⟩⟩

theorem spares_medics : Catalogue.medics.Spares .damage := by
  rw [Catalogue.Spares, Catalogue.medics, Catalogue.entries_ofEntries]
  refine List.forall_mem_cons.mpr ⟨Behaviour.fits_none, List.forall_mem_cons.mpr
    ⟨Behaviour.fits_none, List.forall_mem_singleton.mpr { Behaviour.fits_none with effects := ?_ }⟩⟩
  intro effect member
  rcases List.mem_cons.mp member with rfl | member
  · rintro ⟨⟩
  · rw [List.mem_singleton.mp member]
    rintro ⟨⟩

/-- The hero of the medic is hit and healed, and wounded still. -/
theorem health_le_maxHealth_afterCalls_medics :
    ∃ duel entity, Duel.create Settings.medics Catalogue.medics = .ok duel ∧
      Catalogue.medics.PrintsHale ∧ Catalogue.medics.Spares .damage ∧
        (duel.afterCalls 100 [.start, .take .zero (.play ⟨4⟩)]).entity? ⟨2⟩ = some entity ∧
          entity.damage = 2 ∧ 0 ≤ entity.damage ∧ entity.health ≤ entity.maxHealth := by
  obtain ⟨duel, after, created, runs, comes⟩ :=
    exists_of_outcome Settings.medics Catalogue.medics 100 [.start, .take .zero (.play ⟨4⟩)]
      (fun after => (after.entity? ⟨2⟩).any fun entity => entity.damage = 2) (by decide +kernel)
  obtain ⟨entity, known, wounded⟩ := (Option.any_eq_true _ _).mp comes
  have ends := afterCalls_of_runs runs
  rw [← ends] at known
  exact ⟨duel, entity, created, printsHale_medics, spares_medics, known,
    of_decide_eq_true wounded, health_le_maxHealth_afterCalls created printsHale_medics
      spares_medics 100 [.start, .take .zero (.play ⟨4⟩)] ⟨2⟩ entity known⟩

end Duel

end CardDuel
