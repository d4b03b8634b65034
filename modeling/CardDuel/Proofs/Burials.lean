import CardDuel.Proofs.Rounds
import CardDuel.Proofs.Tolls

/-!
# The death pass

Who falls is settled before anybody moves.  Then the fallen are buried one after the
other: each of them goes to the end of its owner's graveyard, and its deathrattle is
queued ahead of the triggers that react to its death.  Each burial renumbers the
fields, ends triggers and takes linked enchantments along; what it leaves as it is
tells what has become of the table and of the agenda at the end of the pass.
-/

namespace CardDuel

open Relation

/-! ## Containers after a move -/

/-- The place among some entities that a placement names. -/
def Placement.among (count : Nat) : Placement → Nat
  | .top => count
  | .bottom => 0
  | .index place => min place count

theorem Placement.among_le (placement : Placement) (count : Nat) :
    placement.among count ≤ count := by
  cases placement with
  | top => exact Nat.le_refl _
  | bottom => exact Nat.zero_le _
  | index place => exact Nat.min_le_right ..

theorem Zone.placeFor_eq (content : Zone) (placement : Placement) :
    content.placeFor placement = placement.among content.members.length := by
  cases placement <;> rfl

namespace Duel

variable {duel : Duel} {id : EntityId} {entity : Entity} {player : Player} {zone goal : ZoneKind}

/-- Who leaves a zone is in no container. -/
theorem members_leaveZone (placed : duel.table.Placed none) (known : duel.entity? id = some entity)
    (goal : ZoneKind) (player : Player) (zone : ZoneKind) :
    (duel.leaveZone id goal).members player zone = (duel.members player zone).erase id := by
  have absent (away : ¬ (entity.seat.InContainer ∧ player = entity.owner ∧ zone = entity.zone)) :
      (duel.members player zone).erase id = duel.members player zone := by
    refine List.erase_of_not_mem fun member => away ?_
    obtain ⟨-, seat, seated, contained, owner, there⟩ :=
      (placed.mem_iff player zone id).mp member
    cases (seat?_of_entity? known).symm.trans seated
    exact ⟨contained, owner.symm, there.symm⟩
  rcases zones_leaveZone placed known goal with
    ⟨content, contained, found, member, zones⟩ | ⟨uncontained, zones⟩
  · change (duel.leaveZone id goal).zones.members player zone = _
    have container : entity.zone.IsContainer := contained.1
    rw [zones, Zones.members_set _ _ _ _ _ container]
    by_cases here : player = entity.owner ∧ zone = entity.zone
    · rw [if_pos here, here.1, here.2, members, ← members_eq_of_get? found]
      rfl
    · rw [if_neg here, absent fun all => here all.2]
      rfl
  · rw [absent fun all => uncontained all.1]
    exact congrArg (fun zones => Zones.members zones player zone) zones

/-- A move takes the entity out of every container and puts it into its goal, if that is a
container, where the placement says. -/
theorem members_relocate (placement : Placement) (sound : duel.WellPlaced)
    (known : duel.entity? id = some entity)
    (room : usesSlot entity.kind goal = true ∨ entity.zone = goal ∨
      duel.zones.isFull entity.owner goal = false) (player : Player) (zone : ZoneKind) :
    (duel.relocate id entity goal placement).members player zone =
      if (player = entity.owner ∧ zone = goal) ∧ goal.IsContainer ∧
          usesSlot entity.kind goal = false then
        ((duel.members player zone).erase id).insertIdx
          (placement.among ((duel.members player zone).erase id).length) id
      else (duel.members player zone).erase id := by
  have left := members_leaveZone sound.placed known goal player zone
  have started (before : Duel) :
      (before.startTriggers id goal).members player zone = before.members player zone :=
    congrArg (fun table => Table.members table player zone) (table_startTriggers before id goal)
  rw [← left]
  unfold relocate
  dsimp only
  rw [started]
  split
  next slot =>
    rw [if_neg fun all => Bool.false_ne_true (all.2.2.symm.trans slot)]
    rfl
  next noSlot =>
    have stands : usesSlot entity.kind goal = false := Bool.eq_false_iff.mpr noSlot
    by_cases container : goal.IsContainer
    · obtain ⟨content, found⟩ := (duel.leaveZone id goal).zones.exists_get? entity.owner container
      have roomThere := room_arrival sound known noSlot room
      have open' : content.isFull = false := by
        unfold Zones.isFull at roomThere
        rw [found] at roomThere
        exact roomThere
      rw [insert?_eq placement found open', content.placeFor_eq]
      refine (members_refill _ entity.owner _ container player zone).trans ?_
      by_cases here : player = entity.owner ∧ zone = goal
      · rw [if_pos here, if_pos ⟨here, container, stands⟩, here.1, here.2,
          ← members_eq_of_get? found]
        rfl
      · rw [if_neg here, if_neg fun all => here all.1]
        rfl
    · rw [putInto_uncontained _ id entity.owner placement container,
        if_neg fun all => container all.2.1]
      rfl

/-- Whoever comes to the end of a container from elsewhere is behind all who are there. -/
theorem members_relocate_top (sound : duel.WellPlaced) (known : duel.entity? id = some entity)
    (container : goal.IsContainer) (noSlot : usesSlot entity.kind goal = false)
    (room : duel.zones.isFull entity.owner goal = false) (elsewhere : entity.zone ≠ goal) :
    (duel.relocate id entity goal .top).members entity.owner goal =
      duel.members entity.owner goal ++ [id] := by
  have absent : (duel.members entity.owner goal).erase id = duel.members entity.owner goal :=
    List.erase_of_not_mem fun member =>
      elsewhere (sound.zone_of_mem member (post?_of_entity? known))
  rw [members_relocate .top sound known (.inr (.inr room)),
    if_pos ⟨⟨rfl, rfl⟩, container, noSlot⟩, absent]
  exact List.insertIdx_length_self ..

/-- A move touches the container that the entity leaves and the one to which it goes. -/
theorem members_relocate_of_away (placement : Placement) (sound : duel.WellPlaced)
    (known : duel.entity? id = some entity)
    (room : usesSlot entity.kind goal = true ∨ entity.zone = goal ∨
      duel.zones.isFull entity.owner goal = false)
    (away : ¬ (player = entity.owner ∧ (zone = entity.zone ∨ zone = goal))) :
    (duel.relocate id entity goal placement).members player zone = duel.members player zone := by
  rw [members_relocate placement sound known room, if_neg fun all => away ⟨all.1.1, .inr all.1.2⟩]
  refine List.erase_of_not_mem fun member => ?_
  obtain ⟨kind, posted⟩ := sound.posted_of_mem member
  cases (post?_of_entity? known).symm.trans posted
  exact away ⟨rfl, .inl rfl⟩

end Duel

/-! ## What a burial leaves as it is -/

namespace Entity

/-- The entity without its place and without what it has from others. -/
def core (entity : Entity) : Entity :=
  { entity.body with enchantments := [], aura := AuraTotal.zero }

end Entity

namespace Duel

variable {duel moment before mid after : Duel} {id other : EntityId} {ids : List EntityId}
variable {entity : Entity} {player : Player} {post : Post}

def core? (duel : Duel) (id : EntityId) : Option Entity :=
  (duel.entity? id).map Entity.core

theorem core?_eq (duel : Duel) (id : EntityId) : duel.core? id = (duel.body? id).map Entity.core :=
  (Option.map_map Entity.core Entity.body (duel.entity? id)).symm

theorem core_partedBody (duel : Duel) (entity : Entity) :
    (duel.partedBody .graveyard entity).core = entity.core := by
  unfold partedBody
  split <;> rfl

theorem core_bereave (id : EntityId) (entity other : Entity) :
    (bereave id entity other).core = other.core := by
  unfold bereave
  split <;> rfl

/-- Whoever goes to the graveyard, the cores stay. -/
theorem core?_relocate (known : duel.entity? id = some entity) (placement : Placement)
    (other : EntityId) :
    (duel.relocate id entity .graveyard placement).core? other = duel.core? other := by
  rw [core?_eq, body?_relocate known]
  split
  next here =>
    rw [here, core?, known]
    exact congrArg some (core_partedBody duel entity)
  next =>
    rw [core?_eq, Option.map_map]
    exact congrArg (Option.map · (duel.body? other)) (funext (core_bereave id entity))

/-- What the burial of an entity queues at some moment: the deathrattle that it had before, if there
is one, and then the triggers that now react to its death. -/
def dirge (before moment : Duel) (id : EntityId) : List Work :=
  match before.entity? id, moment.entity? id with
  | some entity, some held =>
    ((Demise.burial id entity).rattles before).map .run ++ (Demise.burial id held).alerts moment
  | _, _ => []

/-- Nothing but its core and the cards decides which deathrattle an entity has. -/
theorem rattles_congr {held : Entity} (cores : held.core = entity.core)
    (catalogue : mid.catalogue = before.catalogue) :
    (Demise.burial id held).rattles mid = (Demise.burial id entity).rattles before := by
  have words : mid.lastWords held = before.lastWords entity := by
    change mid.lastWords held.core = before.lastWords entity.core
    unfold lastWords behaviourOf
    rw [cores, catalogue]
  have owner : held.owner = entity.owner := by
    change held.core.owner = entity.core.owner
    rw [cores]
  simp only [Demise.rattles, rattle, words, owner]

theorem dirge_congr (cores : mid.core? id = before.core? id)
    (catalogue : mid.catalogue = before.catalogue) (moment : Duel) :
    mid.dirge moment id = before.dirge moment id := by
  unfold core? at cores
  unfold dirge
  cases known : before.entity? id with
  | none =>
      rw [known, Option.map_none, Option.map_eq_none_iff] at cores
      rw [cores]
  | some entity =>
      rw [known] at cores
      obtain ⟨held, knownHeld, same⟩ := Option.map_eq_some_iff.mp cores
      rw [knownHeld]
      cases moment.entity? id with
      | none => rfl
      | some last => simp only [rattles_congr same catalogue]

/-! ## One burial -/

theorem interred_eq (sound : duel.WellPlaced) (id : EntityId) (entity : Entity) :
    duel.interred id entity = duel.relocate id entity .graveyard .top :=
  if_neg (not_turnsAway_iff.mpr (sound.roomInGraveyard entity))

/-- But for the reactions that it adds, a burial is a move to the graveyard. -/
theorem buried_eq (sound : duel.WellPlaced) (id : EntityId) (entity : Entity) :
    ∃ agenda, agenda.phases = duel.agenda.phases ∧
      duel.buried id entity =
        { duel.relocate id entity .graveyard .top with agenda := agenda } := by
  have scheduled := agenda_relocate duel id entity .graveyard .top
  unfold buried mourned
  rw [interred_eq sound, ← scheduled]
  split
  · refine ⟨_, ?_, rfl⟩
    rfl
  · refine ⟨_, ?_, rfl⟩
    rfl

theorem reactions_buried (known : duel.entity? id = some entity) :
    (duel.buried id entity).agenda.reactions = duel.agenda.reactions ++ duel.dirge duel id := by
  have law : Law (fun _ => True) duel (some (.burial id entity)) (duel.buried id entity) :=
    .bury duel known fun _ _ => trivial
  rw [law.reactions, dirge, known, List.append_assoc]

end Duel

namespace Play

open Duel

variable {duel : Duel} {id : EntityId} {entity : Entity}

/-- When the match is over, nobody is buried any more. -/
theorem processDeaths_of_over (finished : duel.isOver = true) :
    processDeaths duel = .ok () duel := by
  unfold processDeaths
  rw [get_bind, if_pos finished]
  rfl

theorem bury_eq (known : duel.entity? id = some entity) :
    bury id duel = .ok () (duel.buried id entity) := by
  unfold bury
  rw [bind_of_ok (lookup_of_entity? known), get_bind]
  dsimp only
  rw [bind_of_ok (send_graveyard_eq known)]
  change (ite ((duel.lastWords entity).isEmpty = true) _ _ : Play Unit) _ = _
  unfold Duel.buried mourned
  split <;> rfl

end Play

/-! ## Burials one after the other -/

namespace Duel

variable {before mid after : Duel} {id : EntityId} {ids : List EntityId}
variable {entity : Entity} {player : Player} {post : Post}

def belongs (duel : Duel) (player : Player) (id : EntityId) : Bool :=
  (duel.entity? id).any fun entity => entity.owner = player

/-- The duel after some entities have been buried. -/
def burying (duel : Duel) (ids : List EntityId) : Duel :=
  (ids.forM Play.bury).left duel

theorem belongs_congr (cores : mid.core? id = before.core? id) (player : Player) :
    mid.belongs player id = before.belongs player id := by
  have ofCore (duel : Duel) :
      duel.belongs player id = (duel.core? id).any fun core => core.owner = player := by
    unfold belongs core?
    cases duel.entity? id <;> rfl
  rw [ofCore, ofCore, cores]

/-- What the burial of some entities in play, one after the other, comes to. -/
structure Inters (before : Duel) (ids : List EntityId) (after : Duel) : Prop where
  buries : before.Buries ids after
  armed : after.Armed
  members : ∀ player zone, after.members player zone =
    (before.members player zone).filter (fun id => id ∉ ids) ++
      if zone = .graveyard then ids.filter (before.belongs player) else []
  weapons : ∀ player weapon, after.weapon player = some weapon ↔
    before.weapon player = some weapon ∧ weapon ∉ ids
  cores : ∀ other, after.core? other = before.core? other
  control : after.control = before.control
  phases : after.agenda.phases = before.agenda.phases
  reactions : after.agenda.reactions = before.agenda.reactions ++
    ids.zipIdx.flatMap fun entry =>
      before.dirge (before.burying (ids.take entry.2)) entry.1

theorem inters_nil (sound : before.WellPlaced) (armed : before.Armed) :
    before.Inters [] before where
  buries := buries_nil sound
  armed := armed
  members player zone := by simp
  weapons player weapon := by simp
  cores _ := rfl
  control := rfl
  phases := rfl
  reactions := by simp

theorem members_buried (sound : before.WellPlaced) (known : before.entity? id = some entity)
    (player : Player) (zone : ZoneKind) :
    (before.buried id entity).members player zone =
      (before.members player zone).filter (fun other => other ∉ [id]) ++
        if zone = .graveyard then [id].filter (before.belongs player) else [] := by
  obtain ⟨agenda, -, same⟩ := buried_eq sound id entity
  have stays : (before.members player zone).erase id =
      (before.members player zone).filter fun other => other ∉ [id] := by
    have nodup : (before.members player zone).Nodup := sound.placed.nodup player zone
    rw [nodup.erase_eq_filter]
    refine List.filter_congr fun other _ => ?_
    simp [bne, BEq.beq]
  have owned : before.belongs player id = decide (player = entity.owner) := by
    unfold belongs
    rw [known]
    exact decide_eq_decide.mpr eq_comm
  have moved := members_relocate .top sound known (sound.roomInGraveyard entity) player zone
  rw [stays] at moved
  rw [same]
  refine moved.trans ?_
  by_cases grave : zone = .graveyard
  · by_cases own : player = entity.owner
    · rw [if_pos ⟨⟨own, grave⟩, by decide, rfl⟩, if_pos grave, List.filter_singleton, owned, own]
      simp [Placement.among]
    · rw [if_neg fun all => own all.1.1, if_pos grave, List.filter_singleton, owned]
      simp [own]
  · rw [if_neg fun all => grave all.1.2, if_neg grave, List.append_nil]

theorem weapon_buried (sound : before.WellPlaced) (armed : before.Armed)
    (known : before.entity? id = some entity) (player : Player) (weapon : EntityId) :
    (before.buried id entity).weapon player = some weapon ↔
      before.weapon player = some weapon ∧ weapon ∉ [id] := by
  obtain ⟨agenda, -, same⟩ := buried_eq sound id entity
  have allowed : ¬ (entity.kind = .spell ∧ ZoneKind.graveyard = .play) := by simp
  rw [same, List.mem_singleton]
  change ((before.relocate id entity .graveyard .top).table.slots player).holder? .weapon =
    some weapon ↔ _
  rw [holder?_relocate .top allowed, if_neg (by simp [usesSlot]),
    holder?_leaveZone sound.placed known]
  by_cases held : before.weapon player = some id
  · -- The slot names the weapon that is buried, which is in play then.
    have posted := armed player id held
    rw [post?_of_entity? known] at posted
    obtain ⟨owner, kind, zone⟩ := Post.mk.inj (Option.some.inj posted)
    rw [if_pos ⟨rfl, owner.symm, zone, by rw [kind]; decide, held⟩, held]
    exact iff_of_false (Option.some_ne_none weapon).symm fun both =>
      both.2 (Option.some.inj both.1).symm
  · rw [if_neg fun all => held all.2.2.2.2]
    refine (and_iff_left_of_imp ?_).symm
    rintro there rfl
    exact held there

/-- Burying one entity that is in play. -/
theorem inters_buried (sound : before.WellPlaced) (armed : before.Armed)
    (known : before.entity? id = some entity) (inPlay : entity.zone = .play) :
    before.Inters [id] (before.buried id entity) := by
  obtain ⟨agenda, phases, same⟩ := buried_eq sound id entity
  have buries : before.Buries [id] (before.buried id entity) :=
    (ensures_bury sound (post?_of_entity? known) inPlay).of_ok (Play.bury_eq known)
  refine ⟨buries, fun player weapon held => ?_, members_buried sound known,
    weapon_buried sound armed known, fun other => ?_, ?_, ?_, ?_⟩
  · rw [weapon_buried sound armed known] at held
    rw [buries.posts, if_neg held.2]
    exact armed player weapon held.1
  · rw [same]
    exact core?_relocate known .top other
  · rw [same]
    exact control_relocate before id entity .graveyard .top
  · rw [same]
    exact phases
  · rw [reactions_buried known]
    simp only [List.zipIdx_cons, List.zipIdx_nil, List.flatMap_cons, List.flatMap_nil,
      List.append_nil, List.take_zero]
    rfl

theorem burying_cons (ran : Play.bury id before = .ok () mid) (ids : List EntityId) :
    before.burying (id :: ids) = mid.burying ids := by
  have goesOn : (id :: ids).forM Play.bury before = ids.forM Play.bury mid := Play.bind_of_ok ran
  unfold burying Play.left
  rw [goesOn]

theorem Inters.cons (first : before.Inters [id] mid) (ran : Play.bury id before = .ok () mid)
    (rest : mid.Inters ids after) (fresh : id ∉ ids) : before.Inters (id :: ids) after where
  buries := first.buries.cons rest.buries fresh
  armed := rest.armed
  members player zone := by
    have own : ids.filter (mid.belongs player) = ids.filter (before.belongs player) :=
      List.filter_congr fun other _ => belongs_congr (first.cores other) player
    have stays : ([id].filter (before.belongs player)).filter (fun other => other ∉ ids) =
        [id].filter (before.belongs player) := by
      refine List.filter_eq_self.mpr fun other member => ?_
      rw [List.mem_singleton.mp (List.mem_of_mem_filter member)]
      exact decide_eq_true fresh
    rw [rest.members, first.members, own, List.filter_append, List.filter_filter]
    have both : (before.members player zone).filter
          (fun other => decide (other ∉ ids) && decide (other ∉ [id])) =
        (before.members player zone).filter fun other => other ∉ id :: ids := by
      refine List.filter_congr fun other _ => ?_
      rw [Bool.and_comm, ← Bool.decide_and]
      simp
    rw [both]
    split
    · rw [stays, List.append_assoc, ← List.filter_append]
      rfl
    · rw [List.filter_nil, List.append_nil, List.append_nil]
  weapons player weapon := by
    rw [rest.weapons, first.weapons, List.mem_singleton, List.mem_cons, not_or, and_assoc]
  cores other := (rest.cores other).trans (first.cores other)
  control := rest.control.trans first.control
  phases := rest.phases.trans first.phases
  reactions := by
    have catalogue : mid.catalogue = before.catalogue := congrArg Control.catalogue first.control
    have opening := first.reactions
    simp only [List.zipIdx_cons, List.zipIdx_nil, List.flatMap_cons, List.flatMap_nil,
      List.append_nil, List.take_zero] at opening
    rw [rest.reactions, opening, List.zipIdx_cons', List.flatMap_cons, List.flatMap_map,
      List.append_assoc]
    congr 2
    refine List.flatMap_congr fun entry _ => ?_
    change mid.dirge _ _ = before.dirge (before.burying ((id :: ids).take (entry.2 + 1))) entry.1
    rw [dirge_congr (first.cores entry.1) catalogue, List.take_succ_cons, burying_cons ran]

/-- Burials of entities in play come off. -/
theorem exists_inters (nodup : ids.Nodup) (sound : before.WellPlaced) (armed : before.Armed)
    (inPlay : ∀ id ∈ ids, ∃ post, before.table.post? id = some post ∧ post.zone = .play) :
    ∃ after, ids.forM Play.bury before = .ok () after ∧ before.Inters ids after := by
  induction ids generalizing before with
  | nil => exact ⟨before, rfl, inters_nil sound armed⟩
  | cons id ids ih =>
      obtain ⟨fresh, nodup⟩ := List.nodup_cons.mp nodup
      obtain ⟨post, posted, there⟩ := inPlay id List.mem_cons_self
      obtain ⟨entity, known, -, -, zone⟩ := exists_of_post? posted
      have ran := Play.bury_eq known
      have first := inters_buried sound armed known (zone.trans there)
      obtain ⟨after, goesOn, rest⟩ := ih nodup first.buries.sound first.armed fun other member => by
        rw [first.buries.posts, if_neg]
        · exact inPlay other (List.mem_cons_of_mem id member)
        · rintro here
          rw [List.mem_singleton.mp here] at member
          exact fresh member
      refine ⟨after, ?_, first.cons ran rest fresh⟩
      exact (Play.bind_of_ok ran).trans goesOn

/-! ## The pass -/

/-- A mark changes nothing but where the entity last stood. -/
theorem exists_mark (duel : Duel) (fallen : List (EntityId × Nat)) (id : EntityId) :
    ∃ place : Option Nat, (duel.markFallen fallen).entity? id = (duel.entity? id).map fun entity =>
      { entity with lastBoardPosition := place.getD entity.lastBoardPosition } := by
  induction fallen generalizing duel with
  | nil => exact ⟨none, Option.map_id'.symm⟩
  | cons entry fallen ih =>
      let marked := duel.updateEntity entry.1 fun entity =>
        { entity with lastBoardPosition := entry.2 }
      obtain ⟨place, later⟩ := ih marked
      change (marked.markFallen fallen).entity? id = _ at later
      change ∃ place : Option Nat, (marked.markFallen fallen).entity? id = _
      rw [later, entity?_updateEntity]
      by_cases here : id = entry.1
      · refine ⟨some (place.getD entry.2), ?_⟩
        rw [if_pos here, Option.map_map]
        rfl
      · exact ⟨place, by rw [if_neg here]⟩

theorem entity?_markFallen {fallen : List (EntityId × Nat)} {place : Nat}
    (nodup : (fallen.map Prod.fst).Nodup) (member : (id, place) ∈ fallen) :
    (before.markFallen fallen).entity? id =
      (before.entity? id).map fun entity => { entity with lastBoardPosition := place } := by
  induction fallen generalizing before with
  | nil => cases member
  | cons entry fallen ih =>
      obtain ⟨fresh, nodup⟩ := List.nodup_cons.mp nodup
      let marked := before.updateEntity entry.1 fun entity =>
        { entity with lastBoardPosition := entry.2 }
      change (marked.markFallen fallen).entity? id = _
      rcases List.mem_cons.mp member with same | later
      · -- Later marks are for others.
        rw [← same] at fresh
        have spared (rest : List (EntityId × Nat)) (away : id ∉ rest.map Prod.fst) (duel : Duel) :
            (duel.markFallen rest).entity? id = duel.entity? id := by
          induction rest generalizing duel with
          | nil => rfl
          | cons other rest ih =>
              obtain ⟨apart, away⟩ := not_or.mp (List.mem_cons.not.mp away)
              refine (ih away (duel.updateEntity other.1 _)).trans ?_
              rw [entity?_updateEntity, if_neg apart]
        rw [spared fallen fresh, entity?_updateEntity, ← same, if_pos rfl]
      · have apart : id ≠ entry.1 := by
          rintro rfl
          exact fresh (List.mem_map.mpr ⟨_, later, rfl⟩)
        rw [ih nodup later, entity?_updateEntity, if_neg apart]

theorem mem_deadMinions_iff {place : Nat} : (id, place) ∈ before.deadMinions ↔
    before.isDead id = true ∧ ∃ player, (before.field player)[place]? = some id := by
  unfold deadMinions
  simp only [List.mem_flatMap, mem_turnOrder, true_and, List.mem_filter,
    List.mk_mem_zipIdx_iff_getElem?, exists_and_right]
  exact and_comm

/-- The duel in the death pass when some of the fallen have been buried. -/
def graves (duel : Duel) (ids : List EntityId) : Duel :=
  (duel.markFallen duel.deadMinions).burying ids

/-- A pass in which the fallen, and nobody else, leave the board. -/
structure Reaps (before after : Duel) : Prop where
  fallen : before.fallen =
    [before.current, before.current.opponent].flatMap
        (fun player => (before.field player).filter before.isDead) ++
      [before.current, before.current.opponent].flatMap
        fun player => (before.weapon player).toList.filter before.isDead
  inPlay : ∀ id ∈ before.fallen, ∃ post, before.table.post? id = some post ∧ post.zone = .play
  posts : ∀ id, after.table.post? id =
    if id ∈ before.fallen then
      (before.table.post? id).map fun post => { post with zone := .graveyard }
    else before.table.post? id
  /-- Who is left on a field stands there in the same order. -/
  fields : ∀ player, after.field player =
    (before.field player).filter fun id => id ∉ before.fallen
  graveyards : ∀ player, after.members player .graveyard =
    before.members player .graveyard ++ before.fallen.filter (before.belongs player)
  elsewhere : ∀ player zone, zone ≠ .play → zone ≠ .graveyard →
    after.members player zone = before.members player zone
  weapons : ∀ player weapon, after.weapon player = some weapon ↔
    before.weapon player = some weapon ∧ weapon ∉ before.fallen
  slots : ∀ player slot, slot ≠ .weapon →
    (after.table.slots player).holder? slot = (before.table.slots player).holder? slot
  places : ∀ player place id, (before.field player)[place]? = some id → before.isDead id = true →
    (after.entity? id).map Entity.lastBoardPosition = some place
  phases : after.agenda.phases = before.agenda.phases
  /-- Each of the fallen adds to the reactions in its turn, at the moment when those before it have
  been buried. -/
  reactions : after.agenda.reactions = before.agenda.reactions ++
    before.fallen.zipIdx.flatMap fun entry =>
      before.dirge (before.graves (before.fallen.take entry.2)) entry.1

/-- Marking the fallen changes nothing that a burial looks at. -/
theorem dirge_markFallen (duel : Duel) (fallen : List (EntityId × Nat)) (moment : Duel)
    (id : EntityId) : (duel.markFallen fallen).dirge moment id = duel.dirge moment id := by
  obtain ⟨place, marked⟩ := duel.exists_mark fallen id
  unfold dirge
  rw [marked]
  cases duel.entity? id with
  | none => rfl
  | some entity => cases moment.entity? id <;> rfl

theorem belongs_markFallen (duel : Duel) (fallen : List (EntityId × Nat)) (player : Player)
    (id : EntityId) : (duel.markFallen fallen).belongs player id = duel.belongs player id := by
  obtain ⟨place, marked⟩ := duel.exists_mark fallen id
  unfold belongs
  rw [marked]
  cases duel.entity? id <;> rfl

theorem fallen_inPlay (sound : before.WellPlaced) (armed : before.Armed) :
    ∀ id ∈ before.fallen, ∃ post, before.table.post? id = some post ∧ post.zone = .play := by
  intro id member
  obtain ⟨-, player, stands | held⟩ := mem_fallen_iff.mp member
  · exact ⟨_, (sound.mem_field_iff player id).mp stands, rfl⟩
  · exact ⟨_, armed player id held, rfl⟩

/-- Burying the fallen, once they are marked, makes a pass. -/
theorem Inters.reaps (inters : (before.markFallen before.deadMinions).Inters before.fallen after)
    (sound : before.WellPlaced) (armed : before.Armed) : before.Reaps after := by
  have table : (before.markFallen before.deadMinions).table = before.table :=
    table_markFallen before before.deadMinions
  have inPlay := fallen_inPlay sound armed
  have members (player : Player) (zone : ZoneKind) : after.members player zone =
      (before.members player zone).filter (fun id => id ∉ before.fallen) ++
        if zone = .graveyard then before.fallen.filter (before.belongs player) else [] := by
    have own : (before.markFallen before.deadMinions).belongs player = before.belongs player :=
      funext (before.belongs_markFallen before.deadMinions player)
    rw [inters.members, own]
    rfl
  have spared (player : Player) {zone : ZoneKind} (away : zone ≠ .play) :
      (before.members player zone).filter (fun id => id ∉ before.fallen) =
        before.members player zone := by
    refine List.filter_eq_self.mpr fun id member => decide_eq_true fun fell => ?_
    obtain ⟨post, posted, there⟩ := inPlay id fell
    exact away ((sound.zone_of_mem member posted).symm.trans there)
  have nodup : (before.deadMinions.map Prod.fst).Nodup :=
    (List.nodup_append.mp (nodup_fallen sound armed)).1
  refine ⟨?_, inPlay, ?_, fun player => ?_, fun player => ?_, fun player zone away apart => ?_,
    inters.weapons, fun player slot noWeapon => ?_, fun player place id stands dead => ?_,
    inters.phases, ?_⟩
  · unfold fallen
    rw [deadMinions_eq]
    rfl
  · intro id
    rw [inters.buries.posts, table]
  · refine (members player .play).trans ?_
    rw [if_neg nofun, List.append_nil]
    rfl
  · rw [members, spared player (by decide), if_pos rfl]
  · rw [members, spared player away, if_neg apart, List.append_nil]
  · rw [← table]
    cases held : (after.table.slots player).holder? slot with
    | some holder => exact (inters.buries.slots player slot holder held).symm
    | none => cases slot <;> first | rfl | exact absurd rfl noWeapon | cases held
  · have core : after.core? id = (before.markFallen before.deadMinions).core? id := inters.cores id
    have marked : (before.markFallen before.deadMinions).entity? id = _ :=
      entity?_markFallen nodup (mem_deadMinions_iff.mpr ⟨dead, player, stands⟩)
    obtain ⟨entity, known, -⟩ := exists_of_post?
      ((sound.mem_field_iff player id).mp (List.mem_of_getElem? stands))
    unfold core? at core
    rw [marked, known] at core
    obtain ⟨held, knownHeld, same⟩ := Option.map_eq_some_iff.mp core
    rw [knownHeld]
    exact congrArg (fun core => some core.lastBoardPosition) same
  · rw [inters.reactions]
    simp only [dirge_markFallen]
    rfl

/-- In a match, places and weapon slots are as a pass relies on them. -/
theorem sound_of_reaches {settings : Settings} {catalogue : Catalogue} {start : Duel}
    (created : Duel.create settings catalogue = .ok start)
    (reaches : ReflTransGen Change start before) : before.WellPlaced ∧ before.Armed := by
  obtain ⟨log, logged⟩ := exists_loggedBy created reaches
  exact ⟨logged.placed, fun _ _ => logged.weapon_posted⟩

/-- Once the fallen are marked, burials of some of them come off. -/
theorem exists_graves (sound : before.WellPlaced) (armed : before.Armed)
    (some : ids.Sublist before.fallen) :
    ∃ after, ids.forM Play.bury (before.markFallen before.deadMinions) = .ok () after ∧
      (before.markFallen before.deadMinions).Inters ids after := by
  have table : (before.markFallen before.deadMinions).table = before.table :=
    table_markFallen before before.deadMinions
  have armedMarked : (before.markFallen before.deadMinions).Armed := fun player id held => by
    rw [table]
    exact armed player id held
  refine exists_inters ((nodup_fallen sound armed).sublist some) (sound.congr table rfl) armedMarked
    fun id member => ?_
  rw [table]
  exact fallen_inPlay sound armed id (some.subset member)

/-- An entity whose deathrattle is not empty has it queued in the pass. -/
theorem Reaps.mem_reactions (reaps : before.Reaps after) (sound : before.WellPlaced)
    (armed : before.Armed) (fell : id ∈ before.fallen) (known : before.entity? id = some entity)
    (words : before.lastWords entity ≠ []) :
    .run (before.rattle id entity) ∈ after.agenda.reactions := by
  obtain ⟨turn, inTurn⟩ := List.mem_iff_getElem?.mp fell
  obtain ⟨moment, ran, inters⟩ := exists_graves sound armed (List.take_sublist turn before.fallen)
  have same : before.graves (before.fallen.take turn) = moment := by
    unfold graves burying Play.left
    rw [ran]
  -- Burying those before it has not made it unknown.
  obtain ⟨held, knownHeld⟩ : ∃ held, moment.entity? id = some held := by
    obtain ⟨place, marked⟩ := before.exists_mark before.deadMinions id
    have core := inters.cores id
    unfold core? at core
    rw [marked, known] at core
    obtain ⟨held, knownHeld, -⟩ := Option.map_eq_some_iff.mp core
    exact ⟨held, knownHeld⟩
  rw [reaps.reactions, List.mem_append, List.mem_flatMap]
  refine .inr ⟨(id, turn), List.mk_mem_zipIdx_iff_getElem?.mpr inTurn, ?_⟩
  dsimp only
  rw [same, dirge, known, knownHeld]
  dsimp only
  rw [Demise.rattles, if_neg (List.isEmpty_iff.not.mpr words)]
  exact List.mem_cons_self

/-- A death pass comes off, and the match ends afterwards if a hero is defeated then. -/
theorem exists_pass {settings : Settings} {catalogue : Catalogue} {start : Duel}
    (created : Duel.create settings catalogue = .ok start)
    (reaches : ReflTransGen Change start before) (running : before.isOver = false) :
    ∃ mid, Play.processDeaths before =
        .ok () (if mid.defeated.isEmpty then mid else mid.finish mid.defeated) ∧
      before.Reaps mid := by
  obtain ⟨sound, armed⟩ := sound_of_reaches created reaches
  obtain ⟨mid, ran, inters⟩ := exists_graves sound armed (List.Sublist.refl before.fallen)
  refine ⟨mid, ?_, inters.reaps sound armed⟩
  unfold Play.processDeaths
  rw [Play.get_bind, if_neg (Bool.eq_false_iff.mp running)]
  change (before.fallen.forM Play.bury >>= fun _ => modify _)
    (before.markFallen before.deadMinions) = _
  rw [Play.bind_of_ok ran]
  rfl

/-- A pass that does not end the match is nothing but what happens to the fallen. -/
theorem reaps_of_pass {settings : Settings} {catalogue : Catalogue} {start : Duel}
    (created : Duel.create settings catalogue = .ok start)
    (reaches : ReflTransGen Change start before)
    (pass : Play.processDeaths before = .ok () after) (goesOn : after.isOver = false) :
    before.Reaps after := by
  cases running : before.isOver with
  | true =>
      cases pass.symm.trans (Play.processDeaths_of_over running)
      cases running.symm.trans goesOn
  | false =>
      obtain ⟨mid, ran, reaps⟩ := exists_pass created reaches running
      cases pass.symm.trans ran
      split at goesOn
      next survived => rw [if_pos survived]; exact reaps
      next => cases goesOn

/-- A death pass comes off; if it does not end the match, exactly the fallen have left the board. -/
theorem processDeaths_reaps {settings : Settings} {catalogue : Catalogue} {start : Duel}
    (created : Duel.create settings catalogue = .ok start)
    (reaches : ReflTransGen Change start before) (running : before.isOver = false) :
    ∃ after, Play.processDeaths before = .ok () after ∧
      (after.isOver = false → before.Reaps after) := by
  obtain ⟨mid, ran, -⟩ := exists_pass created reaches running
  exact ⟨_, ran, reaps_of_pass created reaches ran⟩

end Duel

/-- A saint blesses the other minions of its player with one health and wounds them by one; the
blessing is linked to it, and a heretic that is summoned destroys it.  Wisps leave their player
armor. -/
def Catalogue.saints : Catalogue :=
  .ofEntries
    [⟨Card.hero ⟨1⟩ "HERO" "" .mage 30 "POWER", Behaviour.none⟩,
      ⟨Card.power ⟨2⟩ "POWER" "" 2, Behaviour.none⟩,
      ⟨Card.minion ⟨3⟩ "WISP" "" 0 1 1, { Behaviour.none with deathrattle := [.gainArmor 1] }⟩,
      ⟨Card.minion ⟨4⟩ "SAINT" "" 0 2 1,
        { Behaviour.none with
          effects := [.enchant "BLESSING" .minionsExceptSource,
            .damage .minionsExceptSource 1 false] }⟩,
      ⟨Card.minion ⟨5⟩ "HERETIC" "" 0 0 1,
        { Behaviour.none with
          trigger := some ⟨.afterSummon, .self,
            [.collect .minions, .keep (.attackAtLeast 2), .destroy .collected], none, false,
              .play⟩ }⟩,
      ⟨Card.enchantment ⟨6⟩ "BLESSING" "",
        { Behaviour.none with enchant := some { Modifier.none with health := 1, linked := true } }⟩]
    [(.mage, ⟨1⟩)] (by decide) (by decide)

/-- Player zero draws two wisps, the saint and the heretic. -/
def Settings.saints : Settings :=
  { Settings.standard with
    decks := [["HERETIC", "SAINT", "WISP", "WISP"], []]
    shuffleDecks := false }

/-- When the saint is gone, both wisps are dead, and the next pass buries them. -/
theorem Duel.processDeaths_reaps_saints :
    ∃ start before after, Duel.create Settings.saints Catalogue.saints = .ok start ∧
      ReflTransGen Change start before ∧ before.isOver = false ∧
        before.fallen = [⟨7⟩, ⟨6⟩] ∧ Play.processDeaths before = .ok () after ∧
          after.isOver = false ∧ before.Reaps after := by
  obtain ⟨start, before, created, runs, comes⟩ :=
    exists_of_outcome Settings.saints Catalogue.saints 100
      [.start, .take .zero (.play ⟨7⟩), .take .zero (.play ⟨6⟩), .take .zero (.play ⟨5⟩),
        .take .zero (.play ⟨4⟩)]
      (fun before => !before.isOver && before.fallen = [⟨7⟩, ⟨6⟩] &&
        !(Play.processDeaths.left before).isOver)
      (by decide +kernel)
  simp only [Bool.and_eq_true, Bool.not_eq_true', decide_eq_true_eq] at comes
  obtain ⟨⟨running, fallen⟩, goesOn⟩ := comes
  have reaches := reaches_of_runs runs
  obtain ⟨after, ran, reaps⟩ := processDeaths_reaps created reaches running
  unfold Play.left at goesOn
  rw [ran] at goesOn
  exact ⟨start, before, after, created, reaches, running, fallen, ran, goesOn, reaps goesOn⟩

end CardDuel
