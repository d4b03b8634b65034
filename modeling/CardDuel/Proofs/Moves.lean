import CardDuel.Proofs.Placement

/-!
# Moves keep a table well placed

Leaving a zone sets an entity apart, and entering one ends that.  Both rewrite at most
one container, whose entities are then given their new places.
-/

namespace CardDuel

/-! ## Containers -/

namespace Zones

theorem get?_setOwn (zones : PlayerZones) (zone kind : ZoneKind) (content : Zone) :
    (zones.set zone content).get? kind =
      if kind = zone ∧ zone.IsContainer then some content else zones.get? kind := by
  cases zone <;> cases kind <;> rfl

theorem get?_set (zones : Zones) (player other : Player) (zone kind : ZoneKind) (content : Zone) :
    (zones.set player zone content).get? other kind =
      if other = player ∧ kind = zone ∧ zone.IsContainer then some content
      else zones.get? other kind := by
  unfold Zones.get? Zones.set
  rw [PerPlayer.get_modify]
  by_cases same : other = player
  · rw [if_pos same, get?_setOwn]
    simp only [same, true_and]
  · rw [if_neg same, if_neg fun both => same both.1]

theorem members_eq (zones : Zones) (player : Player) (zone : ZoneKind) :
    zones.members player zone = ((zones.get? player zone).map Zone.members).getD [] := by
  unfold Zones.members Zones.get? PlayerZones.members
  cases (PerPlayer.get zones player).get? zone <;> rfl

theorem members_set (zones : Zones) (player other : Player) {zone : ZoneKind} (kind : ZoneKind)
    (content : Zone) (container : zone.IsContainer) :
    (zones.set player zone content).members other kind =
      if other = player ∧ kind = zone then content.members else zones.members other kind := by
  rw [members_eq, members_eq, get?_set]
  by_cases here : other = player ∧ kind = zone
  · rw [if_pos here, if_pos ⟨here.1, here.2, container⟩]
    rfl
  · rw [if_neg here, if_neg fun all => here ⟨all.1, all.2.1⟩]

theorem isContainer_of_get? {zones : Zones} {player : Player} {zone : ZoneKind} {content : Zone}
    (found : zones.get? player zone = some content) : zone.IsContainer := by
  cases zone with
  | unplaced | removed => cases found
  | _ => decide

theorem exists_get? (zones : Zones) (player : Player) {zone : ZoneKind}
    (container : zone.IsContainer) : ∃ content, zones.get? player zone = some content := by
  cases zone with
  | unplaced => exact absurd rfl container.1
  | removed => exact absurd rfl container.2
  | _ => exact ⟨_, rfl⟩

end Zones

namespace Duel

theorem get?_renumbered (zone : ZoneKind) (ids : List EntityId) (start : Nat) (arena : Arena)
    (nodup : ids.Nodup) (id : EntityId) :
    ((ids.zipIdx start).foldl
      (fun arena entry => arena.update entry.1 fun entity =>
        { entity with zone := zone, position := entry.2 }) arena).get? id =
      if id ∈ ids then
        (arena.get? id).map fun entity =>
          { entity with zone := zone, position := start + ids.idxOf id }
      else arena.get? id := by
  induction ids generalizing start arena with
  | nil => rfl
  | cons first rest ih =>
      obtain ⟨fresh, restNodup⟩ := List.nodup_cons.mp nodup
      rw [List.zipIdx_cons, List.foldl_cons, ih _ _ restNodup, Arena.get?_update]
      by_cases same : id = first
      · subst same
        rw [if_neg fresh, if_pos rfl, if_pos List.mem_cons_self, List.idxOf_cons_self]
        rfl
      · have other : (first :: rest).idxOf id = rest.idxOf id + 1 :=
          List.idxOf_cons_ne rest fun equal => same equal.symm
        rw [if_neg same, other]
        by_cases member : id ∈ rest
        · rw [if_pos member, if_pos (List.mem_cons_of_mem first member)]
          simp only [Nat.add_comm, Nat.add_left_comm]
        · rw [if_neg member, if_neg]
          simp [same, member]

/-- The seats of a duel after the places of a container were written into its entities. -/
theorem seat?_renumber (duel : Duel) (player : Player) (zone : ZoneKind)
    (nodup : (duel.members player zone).Nodup) (id : EntityId) :
    (duel.renumber player zone).table.seat? id =
      if id ∈ duel.members player zone then
        (duel.table.seat? id).map fun seat =>
          seat.placedAt zone ((duel.members player zone).idxOf id)
      else duel.table.seat? id := by
  have written := get?_renumbered zone (duel.members player zone) 0 duel.arena nodup id
  change (Arena.get? _ id).map Entity.seat = _
  unfold renumber
  rw [written]
  split
  · simp only [Option.map_map, Function.comp_def, Nat.zero_add, table, entity?]
    rfl
  · rfl

/-- A container with new content, whose places are written into its entities. -/
def refill (duel : Duel) (player : Player) (zone : ZoneKind) (content : Zone) : Duel :=
  { duel with zones := duel.zones.set player zone content }.renumber player zone

section Refill

variable (duel : Duel) (player : Player) {zone : ZoneKind} (content : Zone)

theorem members_refill (container : zone.IsContainer) (other : Player) (kind : ZoneKind) :
    (duel.refill player zone content).table.members other kind =
      if other = player ∧ kind = zone then content.members else duel.table.members other kind :=
  Zones.members_set duel.zones player other kind content container

theorem seat?_refill (container : zone.IsContainer) (nodup : content.members.Nodup)
    (id : EntityId) :
    (duel.refill player zone content).table.seat? id =
      if id ∈ content.members then
        (duel.table.seat? id).map fun seat => seat.placedAt zone (content.members.idxOf id)
      else duel.table.seat? id := by
  let filled : Duel := { duel with zones := duel.zones.set player zone content }
  have members : filled.members player zone = content.members := by
    change (duel.zones.set player zone content).members player zone = content.members
    rw [Zones.members_set duel.zones player player zone content container, if_pos ⟨rfl, rfl⟩]
  have written := seat?_renumber filled player zone (members ▸ nodup) id
  rw [members] at written
  exact written

end Refill

/-! ## Leaving a zone -/

theorem members_eq_of_get? {duel : Duel} {player : Player} {zone : ZoneKind} {content : Zone}
    (found : duel.zones.get? player zone = some content) :
    duel.table.members player zone = content.members := by
  change duel.zones.members player zone = content.members
  rw [Zones.members_eq, found]
  rfl

theorem detach_contained {duel : Duel} {id : EntityId} {entity : Entity} {content : Zone}
    (contained : entity.seat.InContainer)
    (found : duel.zones.get? entity.owner entity.zone = some content)
    (member : id ∈ content.members) :
    duel.detach id entity =
      duel.refill entity.owner entity.zone
        { content with members := content.members.erase id } := by
  have noSlot : ¬ (entity.zone = .play ∧ entity.kind ≠ .minion) := fun slot =>
    slot.2 (contained.2 slot.1)
  have position : content.position? id = some (content.members.idxOf id) := by
    unfold Zone.position?
    rw [List.findIdx?_eq_some_iff_findIdx_eq]
    exact ⟨List.idxOf_lt_length_of_mem member, rfl⟩
  have removed : duel.zones.remove? entity.owner entity.zone id =
      some (content.members.idxOf id, duel.zones.set entity.owner entity.zone
        { content with members := content.members.erase id }) := by
    unfold Zones.remove?
    rw [found, List.erase_eq_eraseIdx_of_idxOf rfl]
    simp [Zone.remove?, position]
  unfold detach
  rw [if_neg noSlot, removed]
  rfl

/-- Detaching an entity that no container holds at most empties the weapon slot. -/
theorem detach_uncontained (duel : Duel) (id : EntityId) {entity : Entity}
    (uncontained : ¬ entity.seat.InContainer) :
    (duel.detach id entity).zones = duel.zones ∧
      (duel.detach id entity).table.seat? = duel.table.seat? := by
  unfold detach
  split
  · exact ⟨rfl, rfl⟩
  next noSlot =>
    have nowhere : ¬ entity.zone.IsContainer := fun container =>
      uncontained ⟨container, fun inPlay => by
        by_contra other
        exact noSlot ⟨inPlay, other⟩⟩
    have removed : duel.zones.remove? entity.owner entity.zone id = none := by
      unfold Zones.remove?
      cases found : duel.zones.get? entity.owner entity.zone with
      | none => rfl
      | some content => exact absurd (Zones.isContainer_of_get? found) nowhere
    rw [removed]
    exact ⟨rfl, rfl⟩

theorem seat?_of_entity? {duel : Duel} {id : EntityId} {entity : Entity}
    (known : duel.entity? id = some entity) : duel.table.seat? id = some entity.seat := by
  change (duel.entity? id).map Entity.seat = some entity.seat
  rw [known]
  rfl

theorem exists_holding {duel : Duel} {id : EntityId} {entity : Entity}
    (placed : duel.table.Placed none) (known : duel.entity? id = some entity)
    (contained : entity.seat.InContainer) :
    ∃ content, duel.zones.get? entity.owner entity.zone = some content ∧
      duel.table.members entity.owner entity.zone = content.members ∧
        id ∈ content.members ∧ content.members.Nodup := by
  obtain ⟨content, found⟩ := duel.zones.exists_get? entity.owner contained.1
  have members : duel.table.members entity.owner entity.zone = content.members :=
    members_eq_of_get? found
  have member : id ∈ duel.table.members entity.owner entity.zone :=
    (placed.mem_iff entity.owner entity.zone id).mpr
      ⟨nofun, entity.seat, seat?_of_entity? known, contained, rfl, rfl⟩
  have nodup := placed.nodup entity.owner entity.zone
  rw [members] at member nodup
  exact ⟨content, found, members, member, nodup⟩

/-- Detaching sets an entity apart; it stays what it is and whose it is. -/
theorem apart_detach {duel : Duel} {id : EntityId} {entity : Entity}
    (placed : duel.table.Placed none) (known : duel.entity? id = some entity) :
    (duel.detach id entity).table.Placed (some id) ∧
      ∃ seat, (duel.detach id entity).table.seat? id = some seat ∧
        seat.owner = entity.owner ∧ seat.kind = entity.kind := by
  have seated := seat?_of_entity? known
  by_cases contained : entity.seat.InContainer
  · obtain ⟨content, found, members, member, nodup⟩ := exists_holding placed known contained
    have rest : id ∉ content.members.erase id := nodup.not_mem_erase
    rw [detach_contained contained found member]
    constructor
    · refine placed.rewrite contained.1 (nodup.erase id) (members_refill duel _ _ contained.1)
        (seat?_refill duel _ _ contained.1 (nodup.erase id)) (fun other => ?_) nofun
        (fun other leaves => ?_)
      · have same : duel.table.members entity.owner entity.seat.zone = content.members := members
        rw [nodup.mem_erase_iff, same]
        simp
      · cases leaves
        exact .inr (members ▸ member)
    · refine ⟨entity.seat, ?_, rfl, rfl⟩
      have kept := seat?_refill duel entity.owner
        { content with members := content.members.erase id } contained.1 (nodup.erase id) id
      exact kept.trans ((if_neg rest).trans seated)
  · obtain ⟨zones, seats⟩ := detach_uncontained duel id contained
    constructor
    · refine Table.Placed.ignore (placed.setApart fun seat knownSeat => ?_) zones
        fun other _ => congrFun seats other
      rw [seated] at knownSeat
      cases knownSeat
      exact contained
    · exact ⟨entity.seat, (congrFun seats id).trans seated, rfl, rfl⟩

theorem afterPlay_keeps (duel : Duel) (goal : ZoneKind) (entity : Entity) :
    (duel.afterPlay goal entity).owner = entity.owner ∧
      (duel.afterPlay goal entity).kind = entity.kind := by
  unfold afterPlay
  dsimp only
  split
  · split
    · exact ⟨rfl, rfl⟩
    · exact ⟨rfl, rfl⟩
  · exact ⟨rfl, rfl⟩

theorem seat?_updateEntity (duel : Duel) (id other : EntityId) (change : Entity → Entity) :
    (duel.updateEntity id change).table.seat? other =
      if other = id then (duel.entity? id).map fun entity => (change entity).seat
      else duel.table.seat? other := by
  change ((duel.updateEntity id change).entity? other).map Entity.seat = _
  rw [entity?_updateEntity]
  split
  next same => rw [same, Option.map_map]; rfl
  next => rfl

/-- What leaving a zone does to the table: the entity is detached, and records to be nowhere. -/
theorem table_leaveZone {duel : Duel} {id : EntityId} {entity : Entity} (goal : ZoneKind)
    {detached : Seat} (known : duel.entity? id = some entity)
    (seated : (duel.detach id entity).table.seat? id = some detached) :
    (duel.leaveZone id goal).table =
      { (duel.detach id entity).table with
        seat? := fun other =>
          if other = id then some (detached.placedAt .unplaced 0)
          else (duel.detach id entity).table.seat? other } := by
  obtain ⟨triggers, ended⟩ := endTriggers_eq (duel.detach id entity) id entity
  obtain ⟨held, knownHeld, rfl⟩ := Option.map_eq_some_iff.mp seated
  unfold leaveZone
  rw [known]
  dsimp only
  rw [ended]
  have finished (before : Duel) (zones : before.zones = (duel.detach id entity).zones)
      (slots : before.table.slots = (duel.detach id entity).table.slots) {last : Entity}
      (lastKnown : before.entity? id = some last)
      (same : last.owner = held.owner ∧ last.kind = held.kind)
      (seats : ∀ other, other ≠ id →
        before.table.seat? other = (duel.detach id entity).table.seat? other) :
      (before.updateEntity id fun entity => { entity with zone := .unplaced, position := 0 }).table =
        { (duel.detach id entity).table with
          seat? := fun other =>
            if other = id then some (held.seat.placedAt .unplaced 0)
            else (duel.detach id entity).table.seat? other } := by
    rw [table, Table.mk.injEq]
    refine ⟨zones, slots, funext fun other => (seat?_updateEntity before id other _).trans ?_⟩
    by_cases here : other = id
    · rw [if_pos here, if_pos here, lastKnown, Option.map_some, Seat.placedAt, Entity.seat,
        Entity.seat, same.1, same.2]
    · rw [if_neg here, if_neg here, seats other here]
  split
  · let unlinked : Duel := { duel.detach id entity with
      triggers := triggers
      arena := (duel.detach id entity).arena.updateAll fun _ other => other.unlink id }
    have keeps := unlinked.afterPlay_keeps goal (held.unlink id)
    have knownUnlinked : unlinked.entity? id = some (held.unlink id) := by
      change Arena.get? _ id = _
      rw [Arena.get?_updateAll]
      change ((duel.detach id entity).entity? id).map _ = _
      rw [knownHeld]
      rfl
    refine finished (unlinked.updateEntity id (unlinked.afterPlay goal)) rfl rfl ?_ keeps
      fun other away => ?_
    · rw [entity?_updateEntity, if_pos rfl, knownUnlinked, Option.map_some]
    · rw [seat?_updateEntity, if_neg away]
      change (Arena.get? _ other).map Entity.seat = _
      rw [Arena.get?_updateAll, Option.map_map]
      rfl
  · exact finished _ rfl rfl knownHeld ⟨rfl, rfl⟩ fun _ _ => rfl

theorem apart_leaveZone {duel : Duel} {id : EntityId} {entity : Entity} (goal : ZoneKind)
    (placed : duel.table.Placed none) (known : duel.entity? id = some entity) :
    (duel.leaveZone id goal).table.Placed (some id) ∧
      (duel.leaveZone id goal).table.seat? id =
        some ⟨entity.owner, entity.kind, .unplaced, 0⟩ := by
  obtain ⟨apart, seat, seated, owner, kind⟩ := apart_detach placed known
  rw [table_leaveZone goal known seated]
  constructor
  · exact apart.ignore rfl fun other away => if_neg away
  · rw [← owner, ← kind]
    exact if_pos rfl

/-! ## Entering a zone -/

theorem placed_fillSlot {duel : Duel} {id : EntityId} {owner : Player} {kind : EntityKind}
    {seat : Seat} (apart : duel.table.Placed (some id)) (seated : duel.table.seat? id = some seat)
    (noMinion : seat.kind ≠ .minion) : (duel.fillSlot id owner kind).table.Placed none := by
  obtain ⟨entity, known, rfl⟩ := Option.map_eq_some_iff.mp seated
  have ignored : (duel.fillSlot id owner kind).table.Placed (some id) := by
    refine apart.ignore rfl fun other away => ?_
    unfold fillSlot
    rw [seat?_updateEntity, if_neg away]
    rfl
  have filled : (duel.fillSlot id owner kind).table.seat? id =
      some (entity.seat.placedAt .play 0) := by
    unfold fillSlot
    rw [seat?_updateEntity, if_pos rfl]
    change (duel.entity? id).map _ = _
    rw [known]
    rfl
  exact ignored.settle filled fun contained => noMinion (contained.2 rfl)

theorem insert?_eq {duel : Duel} {id : EntityId} {player : Player} {zone : ZoneKind}
    {content : Zone} (placement : Placement)
    (found : duel.zones.get? player zone = some content) (room : content.isFull = false) :
    duel.putInto id player zone placement =
      duel.refill player zone
        { content with members := content.members.insertIdx (content.placeFor placement) id } := by
  have inserted : duel.zones.insert? player zone id placement =
      some (content.placeFor placement, duel.zones.set player zone
        { content with
          members := content.members.insertIdx (content.placeFor placement) id }) := by
    unfold Zones.insert?
    rw [found]
    simp [Zone.insert?, room]
  unfold putInto
  rw [inserted]
  rfl

theorem placeFor_le (content : Zone) (placement : Placement) :
    content.placeFor placement ≤ content.members.length := by
  cases placement with
  | top => exact Nat.le_refl _
  | bottom => exact Nat.zero_le _
  | index place => exact Nat.min_le_right place _

/-- Putting an entity that stands apart into a container with room inserts it there. -/
theorem putInto_contained {duel : Duel} {id : EntityId} {player : Player} {zone : ZoneKind}
    (placement : Placement) (apart : duel.table.Placed (some id)) (container : zone.IsContainer)
    (room : duel.zones.isFull player zone = false) :
    ∃ content : Zone, duel.putInto id player zone placement = duel.refill player zone content ∧
      content.members.Nodup ∧ content.members.Perm (id :: duel.table.members player zone) := by
  obtain ⟨content, found⟩ := duel.zones.exists_get? player container
  have members := members_eq_of_get? found
  have open' : content.isFull = false := by
    unfold Zones.isFull at room
    rw [found] at room
    exact room
  have absent : id ∉ duel.table.members player zone := by
    rw [apart.mem_iff]
    exact fun both => both.1 rfl
  have order : (content.members.insertIdx (content.placeFor placement) id).Perm
      (id :: duel.table.members player zone) := by
    rw [members]
    exact List.perm_insertIdx id content.members (placeFor_le content placement)
  refine ⟨_, insert?_eq placement found open', order.nodup_iff.mpr ?_, order⟩
  exact List.nodup_cons.mpr ⟨absent, apart.nodup player zone⟩

theorem putInto_uncontained (duel : Duel) (id : EntityId) (player : Player) {zone : ZoneKind}
    (placement : Placement) (nowhere : ¬ zone.IsContainer) :
    duel.putInto id player zone placement =
      duel.updateEntity id fun entity => { entity with zone := zone, position := 0 } := by
  have refused : duel.zones.insert? player zone id placement = none := by
    unfold Zones.insert?
    cases found : duel.zones.get? player zone with
    | none => rfl
    | some content => exact absurd (Zones.isContainer_of_get? found) nowhere
  unfold putInto
  rw [refused]

/-- In a container with room an entity need not stand apart any more. -/
theorem placed_putInto {duel : Duel} {id : EntityId} {zone : ZoneKind} {seat : Seat}
    (placement : Placement) (apart : duel.table.Placed (some id))
    (seated : duel.table.seat? id = some seat) (minion : zone = .play → seat.kind = .minion)
    (room : duel.zones.isFull seat.owner zone = false) :
    (duel.putInto id seat.owner zone placement).table.Placed none := by
  by_cases container : zone.IsContainer
  · obtain ⟨content, inserted, nodup, order⟩ := putInto_contained placement apart container room
    rw [inserted]
    refine apart.rewrite container nodup (members_refill duel _ _ container)
      (seat?_refill duel _ _ container nodup) (fun other => ?_) (fun other arrives _ => ?_) nofun
    · rw [order.mem_iff, List.mem_cons]
      simp [or_comm]
    · cases arrives
      exact ⟨seat, seated, rfl, minion⟩
  · obtain ⟨entity, known, rfl⟩ := Option.map_eq_some_iff.mp seated
    let recorded := duel.updateEntity id fun entity => { entity with zone := zone, position := 0 }
    have ignored : recorded.table.Placed (some id) := by
      refine apart.ignore rfl fun other away => ?_
      rw [seat?_updateEntity, if_neg away]
    have nowRecorded : recorded.table.seat? id = some (entity.seat.placedAt zone 0) := by
      rw [seat?_updateEntity, if_pos rfl, known]
      rfl
    rw [putInto_uncontained duel id entity.seat.owner placement container]
    exact ignored.settle nowRecorded fun contained => container contained.1

end Duel

/-! ## Capacities -/

namespace ZoneLimits

/-- How many entities a container may hold. -/
def capacity? (limits : ZoneLimits) : ZoneKind → Option Nat
  | .hand => some limits.hand
  | .play => some limits.field
  | .secret => some limits.secrets
  | _ => none

end ZoneLimits

namespace Zone

/-- Whether the content of a container is within its capacity. -/
def Fits (content : Zone) : Prop :=
  ∀ capacity, content.capacity = some capacity → content.members.length ≤ capacity

theorem isFull_eq_false_iff (content : Zone) : content.isFull = false ↔
    ∀ capacity, content.capacity = some capacity → content.members.length < capacity := by
  unfold isFull
  cases content.capacity with
  | none => simp
  | some capacity =>
      rw [decide_eq_false_iff_not, Nat.not_le]
      simp only [size, Option.some.injEq, forall_eq']

end Zone

namespace Zones

/-- The containers have the capacities of the limits and hold no more than that. -/
def Within (zones : Zones) (limits : ZoneLimits) : Prop :=
  ∀ player zone content, zones.get? player zone = some content →
    content.capacity = limits.capacity? zone ∧ content.Fits

variable {zones : Zones} {limits : ZoneLimits}

theorem within_empty : (Zones.empty limits).Within limits := by
  intro player zone content found
  have emptied : content = .empty (limits.capacity? zone) := by
    unfold Zones.get? Zones.empty at found
    rw [PerPlayer.get_const] at found
    cases zone <;> cases found <;> rfl
  rw [emptied]
  exact ⟨rfl, fun _ _ => Nat.zero_le _⟩

theorem Within.set {player : Player} {zone : ZoneKind} {content : Zone} {members : List EntityId}
    (within : zones.Within limits) (found : zones.get? player zone = some content)
    (fits : ({ content with members := members } : Zone).Fits) :
    (zones.set player zone { content with members := members }).Within limits := by
  intro other kind held foundHeld
  rw [get?_set] at foundHeld
  split at foundHeld
  next here =>
    cases foundHeld
    rw [here.2.1]
    exact ⟨(within player zone content found).1, fits⟩
  next => exact within other kind held foundHeld

/-- A container that has lost an entity, or is as it was, has room for one more if it had room
before or has lost the entity. -/
theorem isFull_set {player other : Player} {zone kind : ZoneKind} {content : Zone}
    {members : List EntityId} (within : zones.Within limits)
    (found : zones.get? player zone = some content)
    (fewer : members.length < content.members.length)
    (room : other = player ∧ kind = zone ∨ zones.isFull other kind = false) :
    (zones.set player zone { content with members := members }).isFull other kind = false := by
  unfold Zones.isFull at room ⊢
  rw [get?_set]
  by_cases here : other = player ∧ kind = zone
  · rw [if_pos ⟨here.1, here.2, isContainer_of_get? found⟩]
    apply (Zone.isFull_eq_false_iff _).mpr
    intro capacity bounded
    exact Nat.lt_of_lt_of_le fewer ((within player zone content found).2 capacity bounded)
  · rw [if_neg fun all => here ⟨all.1, all.2.1⟩]
    exact room.resolve_left here

end Zones

end CardDuel
