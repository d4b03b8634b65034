import CardDuel.Proofs.WellPlaced

/-!
# Bodies

The body of an entity is the entity without its place.  Moving an entity changes the
bodies of others in one way only: when it leaves play, the enchantments linked to it go.
-/

namespace CardDuel

namespace Entity

/-- The entity without its place. -/
def body (entity : Entity) : Entity :=
  { entity with zone := .unplaced, position := 0 }

end Entity

namespace Duel

variable {duel : Duel} {id other : EntityId} {entity : Entity} {player : Player}

/-- The body of an entity. -/
def body? (duel : Duel) (id : EntityId) : Option Entity :=
  (duel.entity? id).map Entity.body

theorem body?_of_entity? (known : duel.entity? id = some entity) :
    duel.body? id = some entity.body := by
  rw [body?, known]
  rfl

theorem entity?_eq_none_iff : duel.entity? id = none ↔ duel.body? id = none :=
  Option.map_eq_none_iff.symm

theorem body?_updateEntity (duel : Duel) (id other : EntityId) {change : Entity → Entity}
    (kept : ∀ entity, (change entity).body = entity.body) :
    (duel.updateEntity id change).body? other = duel.body? other := by
  rw [body?, entity?_updateEntity]
  split
  · rw [Option.map_map, body?]
    exact congrArg (Option.map · (duel.entity? other)) (funext kept)
  · rfl

theorem body?_renumber (duel : Duel) (player : Player) (zone : ZoneKind) (id : EntityId) :
    (duel.renumber player zone).body? id = duel.body? id := by
  have written (entries : List (EntityId × Nat)) (arena : Arena) :
      ((entries.foldl
        (fun arena entry => arena.update entry.1 fun entity =>
          { entity with zone := zone, position := entry.2 }) arena).get? id).map Entity.body =
        (arena.get? id).map Entity.body := by
    induction entries generalizing arena with
    | nil => rfl
    | cons entry entries ih =>
        rw [List.foldl_cons, ih, Arena.get?_update]
        split
        · rw [Option.map_map]
          rfl
        · rfl
  exact written _ duel.arena

theorem body?_detach (duel : Duel) (id : EntityId) (entity : Entity) (other : EntityId) :
    (duel.detach id entity).body? other = duel.body? other := by
  unfold detach
  split
  · rfl
  · split
    · rfl
    next zones _ => exact body?_renumber { duel with zones := zones } entity.owner entity.zone other

/-- The body of an entity that has left its zone. -/
def partedBody (duel : Duel) (goal : ZoneKind) (entity : Entity) : Entity :=
  if entity.zone = .play then (duel.afterPlay goal entity).body else entity.body

/-- What an entity that leaves its zone takes away from another one. -/
def bereave (id : EntityId) (entity other : Entity) : Entity :=
  if entity.zone = .play then other.unlink id else other

/-- After play an entity is what its body makes it, whatever was linked to itself. -/
theorem body_afterPlay {after : Duel} {held : Entity} (goal : ZoneKind)
    (catalogue : after.catalogue = duel.catalogue) (same : held.body = entity.body) :
    (after.afterPlay goal (held.unlink id)).body = (duel.afterPlay goal entity).body := by
  have ofBody (entity : Entity) :
      (duel.afterPlay goal entity).body = (duel.afterPlay goal entity.body).body := by
    have card : entity.body.card = entity.card := rfl
    unfold afterPlay
    dsimp only
    rw [card]
    split
    · split <;> rfl
    · rfl
  have unlinked : after.afterPlay goal (held.unlink id) = duel.afterPlay goal held := by
    unfold afterPlay
    rw [catalogue]
    rfl
  rw [unlinked, ofBody held, same, ← ofBody]

/-- Who leaves a zone gets another body only from play, and then all that is linked to it goes. -/
theorem body?_leaveZone (known : duel.entity? id = some entity) (goal : ZoneKind)
    (other : EntityId) :
    (duel.leaveZone id goal).body? other =
      if other = id then some (duel.partedBody goal entity)
      else (duel.body? other).map (bereave id entity) := by
  have detached := body?_detach duel id entity
  have catalogue : (duel.detach id entity).catalogue = duel.catalogue :=
    congrArg Control.catalogue (control_detach duel id entity)
  obtain ⟨stripped, ended, arena, stays⟩ : ∃ stripped,
      (duel.detach id entity).endTriggers id entity = stripped ∧
        stripped.arena = (duel.detach id entity).arena ∧
          stripped.catalogue = (duel.detach id entity).catalogue := by
    obtain ⟨triggers, ended⟩ := endTriggers_eq (duel.detach id entity) id entity
    exact ⟨_, ended, rfl, rfl⟩
  have bodies (other : EntityId) : stripped.body? other = duel.body? other := by
    rw [← detached other]
    exact congrArg (fun arena => (Arena.get? arena other).map Entity.body) arena
  obtain ⟨held, knownHeld, same⟩ := Option.map_eq_some_iff.mp
    ((bodies id).trans (body?_of_entity? known))
  unfold leaveZone
  rw [known]
  dsimp only
  rw [ended, body?_updateEntity]
  rotate_left
  · exact fun _ => rfl
  unfold partedBody
  by_cases inPlay : entity.zone = .play
  · have unlinked (other : EntityId) : (stripped.arena.updateAll fun _ other =>
        other.unlink id).get? other = (stripped.entity? other).map (Entity.unlink id) :=
      Arena.get?_updateAll ..
    rw [if_pos inPlay, if_pos inPlay, body?, entity?_updateEntity]
    change (if other = id then Option.map _ (Arena.get? _ other) else Arena.get? _ other).map
      Entity.body = _
    rw [unlinked]
    by_cases here : other = id
    · rw [if_pos here, if_pos here, here, knownHeld]
      exact congrArg some (body_afterPlay goal (stays.trans catalogue) same)
    · rw [if_neg here, if_neg here, ← bodies other, body?, Option.map_map, Option.map_map]
      have bereaved : bereave id entity = Entity.unlink id := by
        funext other
        exact if_pos inPlay
      rw [bereaved]
      rfl
  · have bereaved : bereave id entity = fun other => other := by
      funext other
      exact if_neg inPlay
    rw [if_neg inPlay, if_neg inPlay, bodies, bereaved, Option.map_id']
    split
    next here => rw [here, body?_of_entity? known]
    next => rfl

theorem body?_fillSlot (duel : Duel) (id : EntityId) (owner : Player) (kind : EntityKind)
    (other : EntityId) : (duel.fillSlot id owner kind).body? other = duel.body? other :=
  body?_updateEntity _ id other fun _ => rfl

theorem body?_putInto (duel : Duel) (id : EntityId) (owner : Player) (zone : ZoneKind)
    (placement : Placement) (other : EntityId) :
    (duel.putInto id owner zone placement).body? other = duel.body? other := by
  unfold putInto
  split
  next zones _ => exact body?_renumber { duel with zones := zones } owner zone other
  · exact body?_updateEntity duel id other fun _ => rfl

/-- A move does to the bodies what leaving the zone does. -/
theorem body?_relocate (known : duel.entity? id = some entity) (goal : ZoneKind)
    (placement : Placement) (other : EntityId) :
    (duel.relocate id entity goal placement).body? other =
      if other = id then some (duel.partedBody goal entity)
      else (duel.body? other).map (bereave id entity) := by
  rw [← body?_leaveZone known]
  unfold relocate
  dsimp only
  split
  · obtain ⟨triggers, started⟩ := startTriggers_eq
      ((duel.leaveZone id goal).fillSlot id entity.owner entity.kind) id goal
    rw [started]
    exact body?_fillSlot _ id entity.owner entity.kind other
  · obtain ⟨triggers, started⟩ := startTriggers_eq
      ((duel.leaveZone id goal).putInto id entity.owner goal placement) id goal
    rw [started]
    exact body?_putInto _ id entity.owner goal placement other

end Duel

end CardDuel
