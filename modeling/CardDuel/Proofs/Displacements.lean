import CardDuel.Proofs.Fates
import CardDuel.Proofs.Transfers

/-!
# What a move does

A move that comes off takes an entity out of its container or slot and puts it into another one,
where the placement says.  It is told here in full: what becomes of every container, of every
entity, of the slots and of the book of triggers, and that there is nothing else.  Containers and
recorded places agree before and after it, so the places of the others follow from the containers.
-/

namespace CardDuel

open Relation

/-- The slots of the owner when an entity comes to a zone: in play it fills the slot of its kind,
and a weapon that comes elsewhere leaves its slot. -/
def PlayerState.reslot (state : PlayerState) (id : EntityId) (kind : EntityKind)
    (goal : ZoneKind) : PlayerState :=
  match kind with
  | .hero => if goal = .play then { state with hero := id } else state
  | .heroPower => if goal = .play then { state with heroPower := id } else state
  | .weapon =>
    if goal = .play then { state with weapon := some id }
    else if state.weapon = some id then { state with weapon := none }
    else state
  | .minion | .spell => state

namespace Duel

variable {duel before after start : Duel} {id other : EntityId} {entity held : Entity}
variable {player : Player} {zone goal : ZoneKind} {placement : Placement}

/-- The place in its goal to which a move brings an entity: in a container the one that the
placement names among the others, and zero in a slot and in a zone without a container. -/
def landing (duel : Duel) (id : EntityId) (entity : Entity) (goal : ZoneKind)
    (placement : Placement) : Nat :=
  if goal.IsContainer ∧ usesSlot entity.kind goal = false then
    placement.among ((duel.members entity.owner goal).erase id).length
  else 0

/-- What a move makes of the entity, but for its place.  To leave play for a place in play is to
leave it, too. -/
inductive Resets (catalogue : Catalogue) (entity : Entity) (goal : ZoneKind) : Entity → Prop
  | stays (outside : entity.zone ≠ .play) : Resets catalogue entity goal entity
  | leaves (inPlay : entity.zone = .play) (away : ¬ (goal = .hand ∨ goal = .deck)) :
      Resets catalogue entity goal { entity with enchantments := [], aura := AuraTotal.zero }
  | returns (inPlay : entity.zone = .play) (back : goal = .hand ∨ goal = .deck) {card : Card}
      (listed : catalogue.card? entity.card = some card) :
      Resets catalogue entity goal { Entity.fresh entity.owner card entity.kind with
        lastBoardPosition := entity.lastBoardPosition }

/-- The place that an entity has to record: its index, if a container holds it. -/
def placeOf (duel : Duel) (id : EntityId) (entity : Entity) : Nat :=
  if id ∈ duel.members entity.owner entity.zone then
    (duel.members entity.owner entity.zone).idxOf id
  else entity.position

/-- The rule by which an entity listens in a zone. -/
def ruleIn? (duel : Duel) (entity : Entity) (zone : ZoneKind) : Option TriggerRule :=
  if entity.tags.has .silenced then none
  else (duel.triggerRule? entity).filter fun rule => rule.zone = zone

/-! ## Places and bodies -/

/-- An entity is its body at a place. -/
theorem entity?_of_body? {body : Entity} {seat : Seat} (found : duel.body? id = some body)
    (seated : duel.table.seat? id = some seat) :
    duel.entity? id = some { body with zone := seat.zone, position := seat.position } := by
  obtain ⟨held, known, rfl⟩ := Option.map_eq_some_iff.mp found
  cases (seat?_of_entity? known).symm.trans seated
  exact known

/-- Whoever is in a container records its index there. -/
theorem WellPlaced.placeOf_eq (sound : duel.WellPlaced) (known : duel.entity? id = some entity) :
    duel.placeOf id entity = entity.position := by
  unfold placeOf
  split
  next member =>
    exact (sound.placed.position _ _ id entity.seat member (seat?_of_entity? known)).symm
  next => rfl

/-- What is left of an entity when it has moved, if its card is in the catalogue. -/
theorem exists_resets (goal : ZoneKind) {card : Card}
    (listed : duel.catalogue.card? entity.card = some card) :
    ∃ reset, Resets duel.catalogue entity goal reset ∧
      reset.body = duel.partedBody goal entity := by
  unfold partedBody
  by_cases inPlay : entity.zone = .play
  · rw [if_pos inPlay]
    unfold afterPlay
    by_cases back : goal = .hand ∨ goal = .deck
    · refine ⟨_, .returns inPlay back listed, ?_⟩
      simp only [if_pos back, listed]
    · refine ⟨_, .leaves inPlay back, ?_⟩
      simp only [if_neg back]
  · rw [if_neg inPlay]
    exact ⟨entity, .stays inPlay, rfl⟩

theorem body_bereave (id : EntityId) (entity held : Entity) :
    bereave id entity held.body = (bereave id entity held).body := by
  unfold bereave
  split <;> rfl

/-! ## Containers and entities -/

section Relocation

variable (placement : Placement) (sound : duel.WellPlaced) (known : duel.entity? id = some entity)
variable (room : usesSlot entity.kind goal = true ∨ entity.zone = goal ∨
  duel.zones.isFull entity.owner goal = false)

include sound known room

/-- The others in a container keep their order. -/
theorem filter_members_relocate (player : Player) (zone : ZoneKind) :
    ((duel.relocate id entity goal placement).members player zone).filter
        (fun other => other ≠ id) =
      (duel.members player zone).filter fun other => other ≠ id := by
  have nodup : (duel.members player zone).Nodup := sound.placed.nodup player zone
  have erased : ((duel.members player zone).erase id).filter (fun other => other ≠ id) =
      (duel.members player zone).filter fun other => other ≠ id := by
    rw [nodup.erase_eq_filter, List.filter_filter]
    exact List.filter_congr fun other _ => by simp
  rw [members_relocate placement sound known room]
  split
  · rw [filter_insertIdx_of_not (by simp) (placement.among_le _), erased]
  · exact erased

theorem mem_members_relocate_iff (away : other ≠ id) :
    other ∈ (duel.relocate id entity goal placement).members player zone ↔
      other ∈ duel.members player zone := by
  have same := filter_members_relocate placement sound known room player zone
  have here (members : List EntityId) :
      other ∈ members ↔ other ∈ members.filter fun other => other ≠ id := by simp [away]
  rw [here, same, ← here]

/-- Whoever else is neither in the container that an entity leaves nor in the one to which it comes
records the place that it recorded before. -/
theorem seat?_relocate_of_away (away : other ≠ id)
    (here : other ∉ duel.members entity.owner entity.zone)
    (there : other ∉ duel.members entity.owner goal) :
    (duel.relocate id entity goal placement).table.seat? other = duel.table.seat? other := by
  obtain ⟨-, seat, seated, -⟩ := apart_detach sound.placed known
  have detached : (duel.detach id entity).table.seat? other = duel.table.seat? other := by
    by_cases contained : entity.seat.InContainer
    · obtain ⟨content, found, members, member, nodup⟩ := exists_holding sound.placed known contained
      have container : entity.zone.IsContainer := contained.1
      have absent : other ∉ content.members.erase id := by
        rw [← members]
        exact fun still => here (List.mem_of_mem_erase still)
      rw [detach_contained contained found member]
      exact (seat?_refill duel _ { content with members := content.members.erase id } container
        (nodup.erase id) other).trans (if_neg absent)
    · rw [(detach_uncontained duel id contained).2]
  have left : (duel.leaveZone id goal).table.seat? other = duel.table.seat? other := by
    rw [table_leaveZone goal known seated]
    exact (if_neg away).trans detached
  rw [← left]
  have apart := (apart_leaveZone goal sound.placed known).1
  unfold relocate
  dsimp only
  rw [table_startTriggers]
  split
  next =>
    unfold fillSlot
    rw [seat?_updateEntity, if_neg away]
    rfl
  next noSlot =>
    by_cases container : goal.IsContainer
    · have roomThere := room_arrival sound known noSlot room
      obtain ⟨content, inserted, nodup, order⟩ :=
        putInto_contained placement apart container roomThere
      rw [inserted, seat?_refill _ _ _ container nodup, if_neg fun inserts => there ?_]
      have stays : other ∈ (duel.leaveZone id goal).members entity.owner goal :=
        (List.mem_cons.mp (order.mem_iff.mp inserts)).resolve_left away
      rw [members_leaveZone sound.placed known] at stays
      exact List.mem_of_mem_erase stays
    · rw [putInto_uncontained _ id entity.owner placement container, seat?_updateEntity,
        if_neg away]

/-- The entity records the place to which it has come. -/
theorem seat?_relocate_self :
    (duel.relocate id entity goal placement).table.seat? id =
      some ⟨entity.owner, entity.kind, goal, duel.landing id entity goal placement⟩ := by
  have posted := (post?_relocate placement sound known room).trans (if_pos rfl)
  have apart := (apart_leaveZone goal sound.placed known).2
  by_cases stands : goal.IsContainer ∧ usesSlot entity.kind goal = false
  · have placed := (relocate_wellPlaced placement sound known room).placed
    have there : ((duel.relocate id entity goal placement).members entity.owner goal)[
        duel.landing id entity goal placement]? = some id := by
      rw [members_relocate placement sound known room, if_pos ⟨⟨rfl, rfl⟩, stands⟩, landing,
        if_pos stands, List.getElem?_insertIdx_self, if_pos (placement.among_le _)]
    obtain ⟨seat, seated, -, -, -, position⟩ :=
      (placed.getElem?_iff entity.owner goal _ id).mp there
    rw [Table.post?, seated] at posted
    obtain ⟨owner, kind, inGoal⟩ := Post.mk.inj (Option.some.inj posted)
    rw [seated, ← position, ← owner, ← kind, ← inGoal]
  · rw [landing, if_neg stands]
    obtain ⟨parted, knownParted, same⟩ := Option.map_eq_some_iff.mp apart
    obtain ⟨owner, kind, -⟩ := Seat.mk.inj same
    unfold relocate
    dsimp only
    rw [table_startTriggers]
    split
    next slot =>
      unfold fillSlot
      rw [seat?_updateEntity, if_pos rfl, ← owner, ← kind]
      change ((duel.leaveZone id goal).entity? id).map _ = _
      rw [knownParted, (usesSlot_iff.mp slot).1]
      rfl
    next noSlot =>
      have nowhere : ¬ goal.IsContainer := fun container =>
        stands ⟨container, Bool.eq_false_iff.mpr noSlot⟩
      rw [putInto_uncontained _ id entity.owner placement nowhere, seat?_updateEntity, if_pos rfl,
        knownParted, ← owner, ← kind]
      rfl

/-- Everybody else records the same zone, and the place that it now has there. -/
theorem seat?_relocate_of_ne (away : other ≠ id)
    (knownHeld : duel.entity? other = some held) :
    (duel.relocate id entity goal placement).table.seat? other =
      some ⟨held.owner, held.kind, held.zone,
        (duel.relocate id entity goal placement).placeOf other held⟩ := by
  have posts : (duel.relocate id entity goal placement).table.post? other = _ :=
    post?_relocate placement sound known room
  rw [if_neg away, post?_of_entity? knownHeld] at posts
  obtain ⟨seat, seated, same⟩ := Option.map_eq_some_iff.mp posts
  obtain ⟨owner, kind, inZone⟩ := Post.mk.inj same
  have position : seat.position =
      (duel.relocate id entity goal placement).placeOf other held := by
    unfold placeOf
    split
    next member =>
      exact (relocate_wellPlaced placement sound known room).placed.position _ _ other seat
        member seated
    next apart =>
      -- It was in no container before, since it would have been in the one of its zone.
      rw [mem_members_relocate_iff placement sound known room away] at apart
      have absent (zone : ZoneKind) : other ∉ duel.members entity.owner zone := fun member => by
        obtain ⟨sort, posted⟩ := sound.posted_of_mem member
        rw [post?_of_entity? knownHeld] at posted
        obtain ⟨own, -, there⟩ := Post.mk.inj (Option.some.inj posted)
        rw [own, there] at apart
        exact apart member
      rw [seat?_relocate_of_away placement sound known room away (absent _) (absent _),
        seat?_of_entity? knownHeld] at seated
      cases seated
      rfl
  rw [seated, ← position, ← owner, ← kind, ← inZone]

/-- The entity that has moved. -/
theorem entity?_relocate_self (catalogued : duel.Catalogued) :
    ∃ reset, Resets duel.catalogue entity goal reset ∧
      (duel.relocate id entity goal placement).entity? id =
        some { reset with
          zone := goal, position := duel.landing id entity goal placement } := by
  obtain ⟨card, listed⟩ := catalogued id entity known
  obtain ⟨reset, resets, body⟩ := exists_resets goal listed
  have bodies := body?_relocate known goal placement id
  rw [if_pos rfl, ← body] at bodies
  exact ⟨reset, resets,
    entity?_of_body? bodies (seat?_relocate_self placement sound known room)⟩

/-- Everybody else loses at most what was linked to the entity, and records its place. -/
theorem entity?_relocate_of_ne (away : other ≠ id) :
    (duel.relocate id entity goal placement).entity? other =
      (duel.entity? other).map fun held => { bereave id entity held with
        position := (duel.relocate id entity goal placement).placeOf other held } := by
  have bodies := body?_relocate known goal placement other
  rw [if_neg away] at bodies
  cases knownHeld : duel.entity? other with
  | none =>
      rw [entity?_eq_none_iff.mp knownHeld] at bodies
      exact entity?_eq_none_iff.mpr bodies
  | some held =>
      rw [body?_of_entity? knownHeld, Option.map_some, body_bereave] at bodies
      rw [entity?_of_body? bodies (seat?_relocate_of_ne placement sound known room away knownHeld)]
      unfold bereave
      split <;> rfl

/-- Containers keep their capacity. -/
theorem get?_zones_relocate (player : Player) (zone : ZoneKind) :
    (duel.relocate id entity goal placement).zones.get? player zone =
      (duel.zones.get? player zone).map fun content => { content with
        members := (duel.relocate id entity goal placement).members player zone } := by
  have moved := relocate_wellPlaced placement sound known room
  have settings : (duel.relocate id entity goal placement).settings = duel.settings :=
    congrArg Control.settings (control_relocate duel id entity goal placement)
  by_cases container : zone.IsContainer
  · obtain ⟨content, found⟩ := duel.zones.exists_get? player container
    obtain ⟨later, foundLater⟩ :=
      (duel.relocate id entity goal placement).zones.exists_get? player container
    have capacity : later.capacity = content.capacity := by
      rw [(moved.within player zone later foundLater).1, settings,
        (sound.within player zone content found).1]
    have members : (duel.relocate id entity goal placement).members player zone = later.members :=
      members_eq_of_get? foundLater
    rw [foundLater, found, Option.map_some, members, ← capacity]
  · have none (zones : Zones) : zones.get? player zone = none :=
      Option.eq_none_iff_forall_not_mem.mpr fun content found =>
        container (Zones.isContainer_of_get? found)
    rw [none, none]
    rfl

end Relocation

/-! ## Slots and triggers -/

/-- The slots of the owner of an entity that goes away. -/
def unslot (id : EntityId) (state : PlayerState) : PlayerState :=
  if state.weapon = some id then { state with weapon := none } else state

/-- The weapon slot names an entity only if that is a weapon in play. -/
theorem Armed.unslot_eq (armed : duel.Armed) (known : duel.entity? id = some entity)
    (other : ¬ (entity.kind = .weapon ∧ entity.zone = .play)) :
    unslot id (duel.player entity.owner) = duel.player entity.owner := by
  refine if_neg fun held => other ?_
  have posted := armed entity.owner id held
  rw [post?_of_entity? known] at posted
  obtain ⟨-, kind, inPlay⟩ := Post.mk.inj (Option.some.inj posted)
  exact ⟨kind, inPlay⟩

theorem players_detach (armed : duel.Armed) (known : duel.entity? id = some entity) :
    (duel.detach id entity).players = duel.players.modify entity.owner (unslot id) := by
  unfold detach
  split
  · rfl
  next noSlot =>
    have stays : duel.players.modify entity.owner (unslot id) = duel.players := by
      refine (congrArg (duel.players.set entity.owner) (armed.unslot_eq known ?_)).trans ?_
      · rintro ⟨weapon, inPlay⟩
        exact noSlot ⟨inPlay, by rw [weapon]; decide⟩
      · cases entity.owner <;> rfl
    rw [stays]
    split <;> rfl

theorem players_fillSlot (duel : Duel) (id : EntityId) (owner : Player) (kind : EntityKind) :
    (duel.fillSlot id owner kind).players =
      duel.players.modify owner fun state => state.reslot id kind .play := by
  cases kind <;> rfl

/-- The owner has the entity in the slot of its kind when it comes into play, and no longer in the
weapon slot when it goes elsewhere. -/
theorem players_relocate_eq (placement : Placement) (armed : duel.Armed)
    (known : duel.entity? id = some entity) :
    (duel.relocate id entity goal placement).players =
      duel.players.modify entity.owner fun state => state.reslot id entity.kind goal := by
  have left := (players_leaveZone known goal).trans (players_detach armed known)
  have unarmed (other : entity.kind ≠ .weapon) :
      unslot id (duel.player entity.owner) = duel.player entity.owner :=
    armed.unslot_eq known fun both => other both.1
  unfold relocate
  dsimp only
  rw [players_startTriggers]
  split
  next slot =>
    have twice : (duel.players.modify entity.owner (unslot id)).modify entity.owner
        (fun state => state.reslot id entity.kind .play) =
          duel.players.modify entity.owner fun state =>
            (unslot id state).reslot id entity.kind .play := by
      cases entity.owner <;> rfl
    rw [players_fillSlot, left, twice, (usesSlot_iff.mp slot).1]
    refine congrArg (duel.players.set entity.owner) ?_
    change (unslot id (duel.player entity.owner)).reslot id entity.kind .play =
      (duel.player entity.owner).reslot id entity.kind .play
    by_cases weapon : entity.kind = .weapon
    · rw [weapon]
      unfold unslot
      split <;> rfl
    · rw [unarmed weapon]
  next noSlot =>
    have elsewhere (other : entity.kind ≠ .minion) : goal ≠ .play := fun inPlay =>
      noSlot (usesSlot_iff.mpr ⟨inPlay, other⟩)
    rw [players_putInto, left]
    refine congrArg (duel.players.set entity.owner) ?_
    change unslot id (duel.player entity.owner) =
      (duel.player entity.owner).reslot id entity.kind goal
    cases kind : entity.kind with
    | weapon => exact (if_neg (elsewhere (by rw [kind]; decide))).symm
    | minion | spell => exact unarmed (by rw [kind]; decide)
    | hero | heroPower =>
        refine (unarmed (by rw [kind]; decide)).trans (if_neg (elsewhere ?_)).symm
        rw [kind]
        decide

theorem triggers_startTriggers (known : duel.entity? id = some entity) (zone : ZoneKind) :
    (duel.startTriggers id zone).triggers =
      match duel.ruleIn? entity zone with
      | none => duel.triggers
      | some rule => duel.triggers.register id entity.owner rule := by
  unfold startTriggers ruleIn?
  rw [known]
  dsimp only
  split
  · rfl
  · cases duel.triggerRule? entity with
    | none => rfl
    | some rule =>
        by_cases here : rule.zone = zone <;> simp [here, Option.filter_some]

/-- The triggers of the entity are struck out, and the rule of its card is registered if it listens
in its new zone. -/
theorem triggers_relocate (placement : Placement) (listening : duel.Listening)
    (known : duel.entity? id = some entity)
    (moved : (duel.relocate id entity goal placement).entity? id = some held) :
    (duel.relocate id entity goal placement).triggers =
      match duel.ruleIn? held goal with
      | none => duel.triggers.dropOwner id
      | some rule => (duel.triggers.dropOwner id).register id held.owner rule := by
  obtain ⟨arrived, starts, kept, catalogue⟩ := exists_arrived duel id entity goal placement
  obtain ⟨triggers, started⟩ := startTriggers_eq arrived id goal
  have known' : arrived.entity? id = some held := by
    rw [starts, started] at moved
    exact moved
  have rules : arrived.ruleIn? held goal = duel.ruleIn? held goal := by
    unfold ruleIn? triggerRule? behaviourOf
    rw [catalogue]
  rw [starts, triggers_startTriggers known', rules, kept, listening.triggers_leaveZone known]

/-- There is nothing else that a move changes. -/
theorem exists_relocate (duel : Duel) (id : EntityId) (entity : Entity) (goal : ZoneKind)
    (placement : Placement) : ∃ players arena zones triggers,
      duel.relocate id entity goal placement = { duel with
        players := players, arena := arena, zones := zones, triggers := triggers } := by
  have left : ∃ players arena zones triggers, duel.leaveZone id goal = { duel with
      players := players, arena := arena, zones := zones, triggers := triggers } := by
    unfold leaveZone
    split
    · exact ⟨_, _, _, _, rfl⟩
    next mover known =>
      obtain ⟨triggers, ended⟩ := endTriggers_eq (duel.detach id mover) id mover
      have detached : ∃ players arena zones, duel.detach id mover = { duel with
          players := players, arena := arena, zones := zones } := by
        unfold detach
        split
        · exact ⟨_, _, _, rfl⟩
        · split <;> exact ⟨_, _, _, rfl⟩
      obtain ⟨players, arena, zones, detached⟩ := detached
      dsimp only
      rw [ended, detached]
      split <;> exact ⟨_, _, _, _, rfl⟩
  obtain ⟨players, arena, zones, triggers, left⟩ := left
  unfold relocate
  dsimp only
  rw [left]
  split
  · obtain ⟨started, starts⟩ := startTriggers_eq (fillSlot _ id entity.owner entity.kind) id goal
    rw [starts]
    exact ⟨_, _, _, _, rfl⟩
  · obtain ⟨started, starts⟩ := startTriggers_eq
      (putInto _ id entity.owner goal placement) id goal
    rw [starts]
    unfold putInto
    split <;> exact ⟨_, _, _, _, rfl⟩

/-! ## The whole of a move -/

/-- What a move that comes off has done, and that it has done nothing else. -/
structure Displaces (before after : Duel) (id : EntityId) (entity : Entity) (goal : ZoneKind)
    (placement : Placement) : Prop where
  /-- The entity records its new place. -/
  arrived : ∃ reset, Resets before.catalogue entity goal reset ∧
    after.entity? id = some { reset with
      zone := goal, position := before.landing id entity goal placement }
  /-- It stands there, if that is in a container, and nowhere else. -/
  stands : ∀ player zone place, (after.members player zone)[place]? = some id ↔
    ((player = entity.owner ∧ zone = goal) ∧ goal.IsContainer ∧ usesSlot entity.kind goal = false) ∧
      place = before.landing id entity goal placement
  /-- The others in a container are the same and keep their order. -/
  order : ∀ player zone, (after.members player zone).filter (fun other => other ≠ id) =
    (before.members player zone).filter fun other => other ≠ id
  /-- Containers stay what they are but for the entities in them. -/
  containers : ∀ player zone, after.zones.get? player zone =
    (before.zones.get? player zone).map fun content => { content with
      members := after.members player zone }
  /-- The others lose at most what was linked to the entity, and record their places anew. -/
  others : ∀ other, other ≠ id → after.entity? other =
    (before.entity? other).map fun held => { bereave id entity held with
      position := after.placeOf other held }
  /-- Only in the two containers of the move do places change. -/
  elsewhere : ∀ other held, other ≠ id → before.entity? other = some held →
    ¬ (held.owner = entity.owner ∧ (held.zone = entity.zone ∨ held.zone = goal)) →
      after.entity? other = some (bereave id entity held)
  slots : after.players =
    before.players.modify entity.owner fun state => state.reslot id entity.kind goal
  /-- The triggers of the entity are struck out, and one is registered if it listens in its goal. -/
  triggers : ∀ moved, after.entity? id = some moved → after.triggers =
    match before.ruleIn? moved goal with
    | none => before.triggers.dropOwner id
    | some rule => (before.triggers.dropOwner id).register id entity.owner rule
  listeners : ∀ other, other ≠ id → after.triggers.ownedBy other = before.triggers.ownedBy other
  /-- Nothing else has changed. -/
  frame : after = { before with
    players := after.players, arena := after.arena, zones := after.zones,
    triggers := after.triggers }

theorem displaces_relocate (placement : Placement) (sound : duel.WellPlaced) (armed : duel.Armed)
    (listening : duel.Listening) (catalogued : duel.Catalogued)
    (known : duel.entity? id = some entity)
    (room : usesSlot entity.kind goal = true ∨ entity.zone = goal ∨
      duel.zones.isFull entity.owner goal = false) :
    duel.Displaces (duel.relocate id entity goal placement) id entity goal placement := by
  have moved := relocate_wellPlaced placement sound known room
  have self := seat?_relocate_self placement sound known room
  constructor
  case arrived => exact entity?_relocate_self placement sound known room catalogued
  case stands =>
    intro player zone place
    have held : (⟨entity.owner, entity.kind, goal, duel.landing id entity goal placement⟩ :
        Seat).InContainer ↔ goal.IsContainer ∧ usesSlot entity.kind goal = false := by
      simp [Seat.InContainer, usesSlot]
    refine (moved.placed.getElem?_iff player zone place id).trans ?_
    rw [self]
    constructor
    · rintro ⟨_, ⟨rfl⟩, contained, rfl, rfl, rfl⟩
      exact ⟨⟨⟨rfl, rfl⟩, held.mp contained⟩, rfl⟩
    · rintro ⟨⟨⟨rfl, rfl⟩, contained⟩, rfl⟩
      exact ⟨_, rfl, held.mpr contained, rfl, rfl, rfl⟩
  case order => exact filter_members_relocate placement sound known room
  case containers => exact get?_zones_relocate placement sound known room
  case others => exact fun other => entity?_relocate_of_ne placement sound known room
  case elsewhere =>
    intro other held away knownHeld apart
    have same : (duel.relocate id entity goal placement).placeOf other held = held.position := by
      rw [← sound.placeOf_eq knownHeld]
      unfold placeOf
      rw [members_relocate_of_away placement sound known room apart]
    rw [entity?_relocate_of_ne placement sound known room away, knownHeld, Option.map_some, same]
    unfold bereave
    split <;> rfl
  case slots => exact players_relocate_eq placement armed known
  case triggers =>
    intro held arrives
    have owner : held.owner = entity.owner := by
      rw [seat?_of_entity? arrives] at self
      exact congrArg Seat.owner (Option.some.inj self)
    rw [triggers_relocate placement listening known arrives, owner]
  case listeners =>
    intro other away
    obtain ⟨reset, -, arrives⟩ := entity?_relocate_self placement sound known room catalogued
    have dropped : (duel.triggers.dropOwner id).ownedBy other = duel.triggers.ownedBy other := by
      rw [listening.kept.ownedBy_dropOwner, if_neg away]
    rw [triggers_relocate placement listening known arrives]
    split
    · exact dropped
    · rw [TriggerBook.ownedBy_register, if_neg away]
      exact dropped
  case frame =>
    obtain ⟨players, arena, zones, triggers, same⟩ := exists_relocate duel id entity goal placement
    rw [same]

/-- Whatever is moved in a match, a move that fails or finds no room changes nothing, and any other
does what moves do. -/
theorem move_displaces {settings : Settings} {catalogue : Catalogue}
    (begun : Duel.bare settings catalogue = .ok start)
    (reaches : ReflTransGen Change start duel) (id : EntityId) (goal : ZoneKind)
    (placement : Placement) :
    match Play.move id goal placement duel with
    | .error fault left => left = duel ∧
        (duel.entity? id = none ∧ fault = .violation (.unknownEntity id) ∨
          goal = .play ∧ fault = .violation (.spellInPlay id) ∧
            ∃ entity, duel.entity? id = some entity ∧ entity.kind = .spell)
    | .ok false left => left = duel ∧
        ∃ entity, duel.entity? id = some entity ∧ duel.TurnsAway entity goal
    | .ok true left => ∃ entity, duel.entity? id = some entity ∧
        ¬ (entity.kind = .spell ∧ goal = .play) ∧ ¬ duel.TurnsAway entity goal ∧
          duel.Displaces left id entity goal placement := by
  cases known : duel.entity? id with
  | none =>
      have fails : Play.move id goal placement duel =
          .error (.violation (.unknownEntity id)) duel := by
        refine Play.bind_of_error ?_
        unfold Play.lookup
        rw [Play.get_bind, known]
        rfl
      rw [fails]
      exact ⟨rfl, .inl ⟨rfl, rfl⟩⟩
  | some entity =>
      by_cases spell : entity.kind = .spell ∧ goal = .play
      · have fails : Play.move id goal placement duel =
            .error (.violation (.spellInPlay id)) duel := by
          unfold Play.move
          rw [Play.bind_of_ok (Play.lookup_of_entity? known), if_pos spell]
          rfl
        rw [fails]
        exact ⟨rfl, .inr ⟨spell.2, rfl, entity, rfl, spell.1⟩⟩
      by_cases away : duel.TurnsAway entity goal
      · rw [Play.move_of_turnsAway known spell away]
        exact ⟨rfl, entity, rfl, away⟩
      · obtain ⟨log, logged⟩ := exists_loggedBy_of_bare begun reaches
        have room := not_turnsAway_iff.mp away
        rw [Play.move_of_room known spell room]
        exact ⟨entity, rfl, spell, away, displaces_relocate placement logged.placed
          (fun _ _ => logged.weapon_posted)
          (listening_of_reaches reaches (bare_wellPlaced begun) (bare_listening begun))
          (catalogued_of_bare begun reaches) known room⟩

/-- The saint goes back to the hand, in front of the heretic. -/
theorem move_displaces_saints :
    ∃ start duel saint left, Duel.bare Settings.saints Catalogue.saints = .ok start ∧
      ReflTransGen Change start duel ∧ duel.entity? ⟨5⟩ = some saint ∧ saint.zone = .play ∧
        Play.move ⟨5⟩ .hand (.index 0) duel = .ok true left ∧
          duel.Displaces left ⟨5⟩ saint .hand (.index 0) := by
  obtain ⟨set, duel, created, runs, comes⟩ :=
    exists_of_outcome Settings.saints Catalogue.saints 100
      [.start, .take .zero (.play ⟨7⟩), .take .zero (.play ⟨6⟩), .take .zero (.play ⟨5⟩)]
      (fun duel => (duel.entity? ⟨5⟩).any (fun saint => saint.zone = .play) &&
        match Play.move ⟨5⟩ .hand (.index 0) duel with
        | .ok moved _ => moved
        | .error _ _ => false)
      (by decide +kernel)
  obtain ⟨start, begun, quiets⟩ := create_quiet created
  have reaches := (Shift.changes (Quiet.shifts quiets)).trans (reaches_of_runs runs)
  have moves := move_displaces begun reaches ⟨5⟩ .hand (.index 0)
  obtain ⟨stands, goes⟩ := Bool.and_eq_true_iff.mp comes
  cases ran : Play.move ⟨5⟩ .hand (.index 0) duel with
  | error fault left =>
      rw [ran] at goes
      cases goes
  | ok moved left =>
      rw [ran] at goes moves
      obtain rfl : moved = true := goes
      obtain ⟨saint, known, -, -, displaces⟩ := moves
      rw [known] at stands
      exact ⟨start, duel, saint, left, begun, reaches, known, of_decide_eq_true stands, ran,
        displaces⟩

end Duel

end CardDuel
