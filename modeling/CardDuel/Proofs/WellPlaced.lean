import CardDuel.Proofs.Course
import CardDuel.Proofs.Moves

/-!
# Duels stay well placed

Whatever happens in a duel, its containers and the places that its entities record
agree, and no container holds more than its capacity.
-/

namespace CardDuel

open Relation

namespace Duel

/-- Containers and recorded places agree, within the capacities of the containers. -/
structure WellPlaced (duel : Duel) : Prop where
  placed : duel.table.Placed none
  within : duel.zones.Within duel.settings.limits

variable {duel : Duel} {id : EntityId} {entity : Entity}

/-- The containers after an entity has left its zone: the one that held it has lost it. -/
theorem zones_leaveZone (placed : duel.table.Placed none) (known : duel.entity? id = some entity)
    (goal : ZoneKind) :
    (∃ content, entity.seat.InContainer ∧
        duel.zones.get? entity.owner entity.zone = some content ∧ id ∈ content.members ∧
          (duel.leaveZone id goal).zones = duel.zones.set entity.owner entity.zone
            { content with members := content.members.erase id }) ∨
      ¬ entity.seat.InContainer ∧ (duel.leaveZone id goal).zones = duel.zones := by
  obtain ⟨-, seat, seated, -⟩ := apart_detach placed known
  have left : (duel.leaveZone id goal).zones = (duel.detach id entity).zones :=
    congrArg Table.zones (table_leaveZone goal known seated)
  by_cases contained : entity.seat.InContainer
  · obtain ⟨content, found, -, member, -⟩ := exists_holding placed known contained
    refine .inl ⟨content, contained, found, member, ?_⟩
    rw [left, detach_contained contained found member]
    rfl
  · exact .inr ⟨contained, left.trans (detach_uncontained duel id contained).1⟩

theorem within_leaveZone (sound : duel.WellPlaced) (known : duel.entity? id = some entity)
    (goal : ZoneKind) : (duel.leaveZone id goal).zones.Within duel.settings.limits := by
  rcases zones_leaveZone sound.placed known goal with
    ⟨content, contained, found, member, zones⟩ | ⟨-, zones⟩
  · rw [zones]
    apply sound.within.set found
    intro capacity bounded
    exact Nat.le_trans (List.length_erase_le) ((sound.within _ _ _ found).2 capacity bounded)
  · rw [zones]
    exact sound.within

/-- Where there was room, or where the entity itself took up room, there is room after it left. -/
theorem room_leaveZone (sound : duel.WellPlaced) (known : duel.entity? id = some entity)
    {goal : ZoneKind}
    (room : entity.zone = goal ∧ entity.seat.InContainer ∨
      duel.zones.isFull entity.owner goal = false) :
    (duel.leaveZone id goal).zones.isFull entity.owner goal = false := by
  rcases zones_leaveZone sound.placed known goal with
    ⟨content, contained, found, member, zones⟩ | ⟨uncontained, zones⟩
  · rw [zones]
    refine Zones.isFull_set sound.within found ?_
      (room.imp (fun there => ⟨rfl, there.1.symm⟩) fun open' => open')
    have positive := List.length_pos_of_mem member
    rw [List.length_erase_of_mem member]
    omega
  · rw [zones]
    exact room.resolve_left fun there => uncontained there.2

/-- Whoever needs no slot and was not turned away finds room after leaving. -/
theorem room_arrival {goal : ZoneKind} (sound : duel.WellPlaced)
    (known : duel.entity? id = some entity) (noSlot : ¬ usesSlot entity.kind goal = true)
    (room : usesSlot entity.kind goal = true ∨ entity.zone = goal ∨
      duel.zones.isFull entity.owner goal = false) :
    (duel.leaveZone id goal).zones.isFull entity.owner goal = false := by
  have minion (inPlay : goal = .play) : entity.kind = .minion := by
    by_contra other
    simp [usesSlot, inPlay, other] at noSlot
  by_cases container : goal.IsContainer
  · apply room_leaveZone sound known
    rcases room with slot | here | room
    · exact absurd slot noSlot
    · have contained : entity.zone.IsContainer := by
        rw [here]
        exact container
      exact .inl ⟨here, contained, fun inPlay => minion (here.symm.trans inPlay)⟩
    · exact .inr room
  · unfold Zones.isFull
    cases found : (duel.leaveZone id goal).zones.get? entity.owner goal with
    | none => rfl
    | some content => exact absurd (Zones.isContainer_of_get? found) container

theorem within_putInto {player : Player} {zone : ZoneKind} {limits : ZoneLimits}
    (placement : Placement) (within : duel.zones.Within limits)
    (room : duel.zones.isFull player zone = false) :
    (duel.putInto id player zone placement).zones.Within limits := by
  cases found : duel.zones.get? player zone with
  | none =>
      have nowhere : duel.zones.insert? player zone id placement = none := by
        unfold Zones.insert?
        rw [found]
        rfl
      unfold putInto
      rw [nowhere]
      exact within
  | some content =>
      unfold Zones.isFull at room
      rw [found] at room
      rw [insert?_eq placement found room]
      apply within.set found
      intro capacity bounded
      rw [List.length_insertIdx_of_le_length (placeFor_le content placement)]
      exact (content.isFull_eq_false_iff.mp room) capacity bounded

theorem relocate_wellPlaced {goal : ZoneKind} (placement : Placement) (sound : duel.WellPlaced)
    (known : duel.entity? id = some entity)
    (room : usesSlot entity.kind goal = true ∨ entity.zone = goal ∨
      duel.zones.isFull entity.owner goal = false) :
    (duel.relocate id entity goal placement).WellPlaced := by
  obtain ⟨apart, seated⟩ := apart_leaveZone goal sound.placed known
  have leftWithin := within_leaveZone sound known goal
  have settings : (duel.relocate id entity goal placement).settings = duel.settings :=
    congrArg Control.settings (control_relocate duel id entity goal placement)
  suffices both : (duel.relocate id entity goal placement).table.Placed none ∧
      (duel.relocate id entity goal placement).zones.Within duel.settings.limits from
    ⟨both.1, settings ▸ both.2⟩
  unfold relocate
  dsimp only
  split
  next slot =>
    obtain ⟨triggers, started⟩ := startTriggers_eq
      ((duel.leaveZone id goal).fillSlot id entity.owner entity.kind) id goal
    rw [started]
    exact ⟨placed_fillSlot apart seated (usesSlot_iff.mp slot).2, leftWithin⟩
  next noSlot =>
    obtain ⟨triggers, started⟩ := startTriggers_eq
      ((duel.leaveZone id goal).putInto id entity.owner goal placement) id goal
    have minion (inPlay : goal = .play) : entity.kind = .minion := by
      by_contra other
      simp [usesSlot, inPlay, other] at noSlot
    have roomThere := room_arrival sound known noSlot room
    rw [started]
    exact ⟨placed_putInto placement apart seated minion roomThere,
      within_putInto placement leftWithin roomThere⟩

theorem handOver_wellPlaced {owner : Player} (sound : duel.WellPlaced)
    (known : duel.entity? id = some entity) :
    ((duel.leaveZone id .unplaced).updateEntity id fun entity =>
      { entity with owner := owner }).WellPlaced := by
  obtain ⟨apart, seated⟩ := apart_leaveZone .unplaced sound.placed known
  obtain ⟨left, knownLeft, leftSeat⟩ := Option.map_eq_some_iff.mp seated
  let given := (duel.leaveZone id .unplaced).updateEntity id fun entity =>
    { entity with owner := owner }
  have settings : given.settings = duel.settings :=
    congrArg Control.settings (control_leaveZone duel id .unplaced)
  have apartGiven : given.table.Placed (some id) := by
    refine apart.ignore rfl fun other away => ?_
    rw [seat?_updateEntity, if_neg away]
  have seatedGiven : given.table.seat? id =
      some ({ left with owner := owner } : Entity).seat := by
    rw [seat?_updateEntity, if_pos rfl, knownLeft]
    rfl
  refine ⟨apartGiven.settle seatedGiven fun contained => ?_, ?_⟩
  · exact contained.1.1 (congrArg Seat.zone leftSeat)
  · rw [settings]
    exact within_leaveZone sound known .unplaced

theorem create_wellPlaced {owner : Player} {card : Card} {kind : EntityKind}
    (sound : duel.WellPlaced) :
    ({ duel with arena := duel.arena.push (Entity.fresh owner card kind) } : Duel).WellPlaced := by
  let created : Duel := { duel with arena := duel.arena.push (Entity.fresh owner card kind) }
  have seats (other : EntityId) : created.table.seat? other =
      if other = duel.arena.nextId then some (Entity.fresh owner card kind).seat
      else duel.table.seat? other := by
    change (Arena.get? _ other).map Entity.seat = _
    rw [Arena.get?_push]
    split <;> rfl
  have unused : duel.table.seat? duel.arena.nextId = none := by
    change (duel.arena.get? duel.arena.nextId).map Entity.seat = none
    rw [Arena.get?_nextId]
    rfl
  have apart : duel.table.Placed (some duel.arena.nextId) :=
    sound.placed.setApart fun seat known => by
      rw [unused] at known
      cases known
  have apartCreated : created.table.Placed (some duel.arena.nextId) :=
    apart.ignore rfl fun other away => by rw [seats, if_neg away]
  refine ⟨apartCreated.settle ((seats _).trans (if_pos rfl)) ?_, sound.within⟩
  exact fun contained => contained.1.1 rfl

theorem shuffle_wellPlaced {player : Player} {content : Zone} {shuffled : List EntityId}
    (sound : duel.WellPlaced) (found : duel.zones.get? player .deck = some content)
    (reordered : shuffled.Perm content.members) :
    (duel.refill player .deck { content with members := shuffled }).WellPlaced := by
  have members := members_eq_of_get? found
  have container : ZoneKind.deck.IsContainer := by decide
  have nodup : shuffled.Nodup :=
    reordered.nodup_iff.mpr (members ▸ sound.placed.nodup player .deck)
  constructor
  · refine sound.placed.rewrite container nodup (members_refill duel _ _ container)
      (seat?_refill duel _ _ container nodup) (fun id => ?_) nofun nofun
    rw [reordered.mem_iff, members]
    simp
  · apply sound.within.set found
    intro capacity bounded
    rw [reordered.length_eq]
    exact (sound.within player .deck content found).2 capacity bounded

/-- Nothing moves a duel out of its places that leaves table and settings as they are. -/
theorem WellPlaced.congr {after : Duel} (sound : duel.WellPlaced)
    (table : after.table = duel.table) (settings : after.settings = duel.settings) :
    after.WellPlaced := by
  have zones : after.zones = duel.zones := congrArg Table.zones table
  constructor
  · rw [table]
    exact sound.placed
  · rw [zones, settings]
    exact sound.within

/-- A container has room exactly when it holds less than its capacity. -/
theorem WellPlaced.isFull_iff (sound : duel.WellPlaced) (player : Player) {zone : ZoneKind}
    (container : zone.IsContainer) :
    duel.zones.isFull player zone = false ↔
      ∀ capacity, duel.settings.limits.capacity? zone = some capacity →
        (duel.members player zone).length < capacity := by
  obtain ⟨content, found⟩ := duel.zones.exists_get? player container
  have members : duel.members player zone = content.members := members_eq_of_get? found
  unfold Zones.isFull
  rw [found, members]
  change content.isFull = false ↔ _
  rw [content.isFull_eq_false_iff, (sound.within player zone content found).1]

/-- A container without a capacity always has room. -/
theorem WellPlaced.isFull_of_unbounded (sound : duel.WellPlaced) (player : Player) {zone : ZoneKind}
    (container : zone.IsContainer) (unbounded : duel.settings.limits.capacity? zone = none) :
    duel.zones.isFull player zone = false :=
  (sound.isFull_iff player container).mpr fun _ bounded => nomatch unbounded.symm.trans bounded

/-- There is always room in the graveyard. -/
theorem WellPlaced.roomInGraveyard (sound : duel.WellPlaced) (entity : Entity) :
    usesSlot entity.kind .graveyard = true ∨ entity.zone = .graveyard ∨
      duel.zones.isFull entity.owner .graveyard = false :=
  .inr (.inr (sound.isFull_of_unbounded entity.owner (by decide) rfl))

theorem Shift.wellPlaced {before after : Duel} (shift : Shift before after)
    (sound : before.WellPlaced) : after.WellPlaced := by
  have settings : after.settings = before.settings := congrArg Control.settings shift.control
  cases shift with
  | stir stir => exact sound.congr stir.table settings
  | relocate placement known allowed room =>
      exact relocate_wellPlaced placement sound known room
  | handOver known other => exact handOver_wellPlaced sound known
  | create owner listed instantiable => exact create_wellPlaced sound
  | shuffle player container reordered => exact shuffle_wellPlaced sound container reordered

theorem table_finish (duel : Duel) (losers : List Player) :
    (duel.finish losers).table = duel.table := by
  have standing (before : Duel) (player : Player) :
      (before.updatePlayer player fun state =>
        { state with standing := finalStanding losers player state.standing }).table =
          before.table :=
    table_updatePlayer before player fun _ => rfl
  exact (standing _ .one).trans (standing duel .zero)

theorem Change.wellPlaced {before after : Duel} (change : Change before after)
    (sound : before.WellPlaced) : after.WellPlaced := by
  cases change with
  | shift shift => exact shift.wellPlaced sound
  | finish losers => exact sound.congr (table_finish before losers) rfl
  | concede player =>
      refine sound.congr ((table_finish _ [player]).trans ?_) rfl
      exact table_updatePlayer before player fun _ => rfl
  | _ => exact sound.congr rfl rfl

theorem Change.wellPlaced_of_reaches {before after : Duel}
    (reaches : ReflTransGen Change before after) (sound : before.WellPlaced) :
    after.WellPlaced := by
  induction reaches with
  | refl => exact sound
  | tail _ last ih => exact last.wellPlaced ih

theorem bare_wellPlaced {settings : Settings} {catalogue : Catalogue} {duel : Duel}
    (begun : Duel.bare settings catalogue = .ok duel) : duel.WellPlaced := by
  obtain ⟨first, dice, zero, one, rfl⟩ := bare_eq begun
  have noMembers (player : Player) (zone : ZoneKind) :
      (Zones.empty settings.limits).members player zone = [] := by
    cases player <;> cases zone <;> rfl
  refine ⟨Table.placed_empty noMembers fun id => ?_, Zones.within_empty⟩
  exact congrArg (Option.map Entity.seat) (Arena.get?_empty id)

theorem created_wellPlaced {settings : Settings} {catalogue : Catalogue} {duel : Duel}
    (created : Duel.create settings catalogue = .ok duel) : duel.WellPlaced := by
  obtain ⟨bare, begun, quiets⟩ := create_quiet created
  exact Change.wellPlaced_of_reaches (Shift.changes (Quiet.shifts quiets)) (bare_wellPlaced begun)

end Duel

end CardDuel
