import CardDuel.Proofs.Bodies
import CardDuel.Proofs.Burials
import Mathlib.Data.List.InsertIdx

/-!
# Moves outside play

A card that is not in play and does not come into play moves without touching anything else.  It
leaves its zone and stands where it is put, and all others keep their order.  So what becomes of a
whole list of cards, sent to one zone or shuffled into a deck, is told by a filter and the list.
-/

namespace CardDuel

namespace Duel

variable {duel before middle after : Duel} {id : EntityId} {ids others : List EntityId}
variable {entity : Entity} {player : Player} {zone goal : ZoneKind} {placement : Placement}

/-- The places of cards may have changed, and nothing else about the match. -/
structure Rearranges (before after : Duel) : Prop where
  bodies : ∀ id, after.body? id = before.body? id
  players : after.players = before.players
  control : after.control = before.control
  agenda : after.agenda = before.agenda

theorem rearranges_refl (duel : Duel) : duel.Rearranges duel :=
  ⟨fun _ => rfl, rfl, rfl, rfl⟩

theorem Rearranges.trans (first : before.Rearranges middle) (second : middle.Rearranges after) :
    before.Rearranges after where
  bodies id := (second.bodies id).trans (first.bodies id)
  players := second.players.trans first.players
  control := second.control.trans first.control
  agenda := second.agenda.trans first.agenda

theorem Rearranges.settings (rearranges : before.Rearranges after) :
    after.settings = before.settings :=
  congrArg Control.settings rearranges.control

theorem players_leaveZone (known : duel.entity? id = some entity) (goal : ZoneKind) :
    (duel.leaveZone id goal).players = (duel.detach id entity).players := by
  obtain ⟨triggers, ended⟩ := endTriggers_eq (duel.detach id entity) id entity
  unfold leaveZone
  rw [known]
  dsimp only
  rw [ended]
  split <;> rfl

theorem players_startTriggers (duel : Duel) (id : EntityId) (zone : ZoneKind) :
    (duel.startTriggers id zone).players = duel.players := by
  obtain ⟨triggers, started⟩ := startTriggers_eq duel id zone
  rw [started]

theorem players_putInto (duel : Duel) (id : EntityId) (owner : Player) (zone : ZoneKind)
    (placement : Placement) : (duel.putInto id owner zone placement).players = duel.players := by
  unfold putInto
  split <;> rfl

/-- Who neither leaves a slot nor comes to one leaves the players as they are. -/
theorem players_relocate (placement : Placement)
    (unslotted : ¬ (entity.zone = .play ∧ entity.kind ≠ .minion))
    (noSlot : usesSlot entity.kind goal = false) (known : duel.entity? id = some entity) :
    (duel.relocate id entity goal placement).players = duel.players := by
  unfold relocate
  dsimp only
  rw [noSlot, if_neg Bool.false_ne_true, players_startTriggers, players_putInto,
    players_leaveZone known]
  unfold detach
  rw [if_neg unslotted]
  split <;> rfl

/-- Outside play a move is about places only. -/
theorem rearranges_relocate (placement : Placement) (known : duel.entity? id = some entity)
    (outside : entity.zone ≠ .play) (away : goal ≠ .play) :
    duel.Rearranges (duel.relocate id entity goal placement) where
  bodies other := by
    rw [body?_relocate known]
    split
    next same => rw [same, body?_of_entity? known, partedBody, if_neg outside]
    next =>
      have bereaved : bereave id entity = fun other => other := funext fun _ => if_neg outside
      rw [bereaved, Option.map_id']
  players := players_relocate placement (fun both => outside both.1) (by simp [usesSlot, away])
    known
  control := control_relocate duel id entity goal placement
  agenda := agenda_relocate duel id entity goal placement

/-! ## One card -/

/-- A card of a player has come to a zone, and was and is outside play.  Nobody else has moved. -/
structure Transfers (id : EntityId) (player : Player) (goal : ZoneKind) (placement : Placement)
    (before after : Duel) : Prop where
  members : ∀ owner zone, after.members owner zone =
    if (owner = player ∧ zone = goal) ∧ goal.IsContainer then
      ((before.members owner zone).erase id).insertIdx
        (placement.among ((before.members owner zone).erase id).length) id
    else (before.members owner zone).erase id
  posts : ∀ other, after.table.post? other =
    if other = id then (before.table.post? id).map fun post => { post with zone := goal }
    else before.table.post? other
  rearranges : before.Rearranges after
  sound : after.WellPlaced

/-- Whether a player can move a card so: it belongs to the player and is not in play. -/
def Loose (duel : Duel) (player : Player) (id : EntityId) : Prop :=
  ∃ post, duel.table.post? id = some post ∧ post.owner = player ∧ post.zone ≠ .play

theorem WellPlaced.loose_of_mem (sound : duel.WellPlaced) (member : id ∈ duel.members player zone)
    (outside : zone ≠ .play) : duel.Loose player id := by
  obtain ⟨kind, posted⟩ := sound.posted_of_mem member
  exact ⟨_, posted, rfl, outside⟩

end Duel

namespace Play

open Duel

variable {duel : Duel} {id : EntityId} {player : Player} {goal : ZoneKind}

/-- Outside play, a card can be moved wherever there is room. -/
theorem exists_move (placement : Placement) (sound : duel.WellPlaced)
    (loose : duel.Loose player id) (away : goal ≠ .play)
    (room : duel.zones.isFull player goal = false) :
    ∃ after, move id goal placement duel = .ok true after ∧
      Transfers id player goal placement duel after := by
  obtain ⟨post, posted, rfl, outside⟩ := loose
  obtain ⟨entity, known, owner, kind, zone⟩ := exists_of_post? posted
  rw [← zone] at outside
  rw [← owner] at room ⊢
  have finds : usesSlot entity.kind goal = true ∨ entity.zone = goal ∨
      duel.zones.isFull entity.owner goal = false := .inr (.inr room)
  have noSlot : usesSlot entity.kind goal = false := by simp [usesSlot, away]
  refine ⟨_, move_of_room known (fun both => away both.2) finds, ?_⟩
  constructor
  case members =>
    intro owner zone
    rw [members_relocate placement sound known finds]
    simp only [noSlot, and_true]
  case posts =>
    intro other
    rw [post?_relocate placement sound known finds, post?_of_entity? known]
    rfl
  case rearranges => exact rearranges_relocate placement known outside away
  case sound => exact relocate_wellPlaced placement sound known finds

/-- The decks have room for everybody. -/
theorem exists_shuffleIn (sound : duel.WellPlaced) (loose : duel.Loose player id) :
    ∃ after place, shuffleIn id player duel = .ok true after ∧
      Transfers id player .deck (.index place) duel after := by
  -- whatever number comes up
  have drawn (draw : Dice → Nat × Dice) : ∃ after place,
      (roll draw >>= fun place => move id .deck (.index place)) duel = .ok true after ∧
        Transfers id player .deck (.index place) duel after := by
    let rolled := { duel with dice := (draw duel.dice).2 }
    have room : rolled.zones.isFull player .deck = false :=
      sound.isFull_of_unbounded player (by decide) rfl
    have sound' : rolled.WellPlaced := sound.congr rfl rfl
    obtain ⟨after, moved, transfers⟩ :=
      exists_move (.index (draw duel.dice).1) sound' loose (by decide) room
    exact ⟨after, _, moved, transfers.members, transfers.posts,
      (⟨fun _ => rfl, rfl, rfl, rfl⟩ : duel.Rearranges rolled).trans transfers.rearranges,
      transfers.sound⟩
  unfold shuffleIn
  rw [get_bind]
  exact drawn _

end Play

namespace Duel

variable {duel before middle after : Duel} {id : EntityId} {ids others : List EntityId}
variable {player : Player} {goal : ZoneKind} {placement : Placement}

theorem WellPlaced.filter_erase (sound : duel.WellPlaced) (id : EntityId) (ids : List EntityId)
    (owner : Player) (zone : ZoneKind) :
    ((duel.members owner zone).erase id).filter (fun other => other ∉ ids) =
      (duel.members owner zone).filter fun other => other ∉ id :: ids := by
  have nodup : (duel.members owner zone).Nodup := sound.placed.nodup owner zone
  rw [nodup.erase_eq_filter, List.filter_filter]
  refine List.filter_congr fun other _ => ?_
  simp [bne, BEq.beq, Bool.and_comm]

theorem filter_of_disjoint {row : List EntityId} (disjoint : row.Disjoint ids) :
    row.filter (fun id => id ∉ ids) = row :=
  List.filter_eq_self.mpr fun id member => by simpa using disjoint member

/-- An insertion does not show where the inserted is filtered out. -/
theorem filter_insertIdx_of_not {keep : EntityId → Bool} (dropped : keep id = false) {place : Nat}
    (inside : place ≤ ids.length) : (ids.insertIdx place id).filter keep = ids.filter keep := by
  have reordered := (List.perm_insertIdx id ids inside).filter keep
  rw [List.filter_cons_of_neg (by simp [dropped])] at reordered
  exact (((ids.sublist_insertIdx place id).filter keep).eq_of_length reordered.length_eq.symm).symm

/-- A zone without a capacity has room for everybody. -/
theorem WellPlaced.hasRoom (sound : duel.WellPlaced) (player : Player)
    (unbounded : ∀ limits : ZoneLimits, limits.capacity? goal = none) :
    duel.zones.isFull player goal = false := by
  by_cases container : goal.IsContainer
  · exact sound.isFull_of_unbounded player container (unbounded _)
  · unfold Zones.isFull
    cases found : duel.zones.get? player goal with
    | none => rfl
    | some content => exact absurd (Zones.isContainer_of_get? found) container

/-- Who is not moved stays loose. -/
theorem Transfers.loose {other : EntityId} (transfers : Transfers id player goal placement before after)
    (differs : other ≠ id) (loose : before.Loose player other) : after.Loose player other := by
  obtain ⟨post, posted, owned⟩ := loose
  exact ⟨post, by rw [transfers.posts, if_neg differs, posted], owned⟩

/-! ## Several cards -/

/-- Cards of a player have come to the end of a zone, one after the other.  A zone without a
container is only recorded. -/
structure Gathers (ids : List EntityId) (player : Player) (goal : ZoneKind)
    (before after : Duel) : Prop where
  members : ∀ owner zone, after.members owner zone =
    (before.members owner zone).filter (fun id => id ∉ ids) ++
      if (owner = player ∧ zone = goal) ∧ goal.IsContainer then ids else []
  posts : ∀ other, after.table.post? other =
    if other ∈ ids then (before.table.post? other).map fun post => { post with zone := goal }
    else before.table.post? other
  rearranges : before.Rearranges after
  sound : after.WellPlaced

theorem gathers_nil (player : Player) (goal : ZoneKind) (sound : before.WellPlaced) :
    Gathers [] player goal before before where
  members owner zone := by simp
  posts _ := rfl
  rearranges := rearranges_refl before
  sound := sound

/-- What is moved to the end of a zone and what is gathered there later. -/
theorem Transfers.gathers (transfers : Transfers id player goal .top before middle)
    (gathers : Gathers ids player goal middle after) (sound : before.WellPlaced)
    (fresh : id ∉ ids) : Gathers (id :: ids) player goal before after where
  members owner zone := by
    rw [gathers.members, transfers.members]
    split
    next here =>
      rw [Placement.among, List.insertIdx_length_self, List.filter_append, sound.filter_erase]
      simp [fresh]
    next => rw [sound.filter_erase]
  posts other := by
    rw [gathers.posts, transfers.posts]
    by_cases same : other = id
    · simp [same, fresh]
    · simp [same]
  rearranges := transfers.rearranges.trans gathers.rearranges
  sound := gathers.sound

/-- Cards of a player have come to places anywhere in its deck. -/
structure Scatters (ids : List EntityId) (player : Player) (before after : Duel) : Prop where
  /-- The other cards of the deck keep their order. -/
  order : (after.deck player).filter (fun id => id ∉ ids) =
    (before.deck player).filter fun id => id ∉ ids
  deck : (after.deck player).Perm ((before.deck player).filter (fun id => id ∉ ids) ++ ids)
  elsewhere : ∀ owner zone, ¬ (owner = player ∧ zone = .deck) →
    after.members owner zone = (before.members owner zone).filter fun id => id ∉ ids
  posts : ∀ other, after.table.post? other =
    if other ∈ ids then (before.table.post? other).map fun post => { post with zone := .deck }
    else before.table.post? other
  rearranges : before.Rearranges after
  sound : after.WellPlaced

theorem scatters_nil (player : Player) (sound : before.WellPlaced) :
    Scatters [] player before before where
  order := rfl
  deck := by simp
  elsewhere owner zone _ := by simp
  posts _ := rfl
  rearranges := rearranges_refl before
  sound := sound

/-- What is moved into a deck and what is scattered there later. -/
theorem Transfers.scatters (transfers : Transfers id player .deck placement before middle)
    (scatters : Scatters ids player middle after) (sound : before.WellPlaced)
    (fresh : id ∉ ids) : Scatters (id :: ids) player before after := by
  have stays := sound.filter_erase id ids player .deck
  let rest := (before.members player .deck).erase id
  have inside : placement.among rest.length ≤ rest.length := placement.among_le rest.length
  have entered : middle.deck player = rest.insertIdx (placement.among rest.length) id := by
    have deck := transfers.members player .deck
    rwa [if_pos ⟨⟨rfl, rfl⟩, by decide⟩] at deck
  have joined : (middle.deck player).Perm (id :: rest) := by
    rw [entered]
    exact List.perm_insertIdx id rest inside
  constructor
  case order =>
    have narrowed := congrArg (List.filter fun other => decide (other ≠ id)) scatters.order
    have merged (members : List EntityId) :
        (members.filter fun other => other ∉ ids).filter (fun other => other ≠ id) =
          members.filter fun other => other ∉ id :: ids := by
      rw [List.filter_filter]
      refine List.filter_congr fun other _ => ?_
      simp
    rw [merged, merged, entered, filter_insertIdx_of_not (by simp) inside] at narrowed
    refine narrowed.trans ?_
    rw [← merged, stays, List.filter_filter]
    exact List.filter_congr fun other _ => by simp
  case deck =>
    refine scatters.deck.trans (((joined.filter _).append_right ids).trans ?_)
    rw [List.filter_cons_of_pos (by simpa using fresh), stays]
    exact List.perm_middle.symm
  case elsewhere =>
    intro owner zone other
    rw [scatters.elsewhere owner zone other, transfers.members, if_neg fun all => other all.1,
      sound.filter_erase]
  case posts =>
    intro other
    rw [scatters.posts, transfers.posts]
    by_cases same : other = id
    · simp [same, fresh]
    · simp [same]
  case rearranges => exact transfers.rearranges.trans scatters.rearranges
  case sound => exact scatters.sound

end Duel

namespace Play

open Duel

variable {duel : Duel} {ids : List EntityId} {player : Player} {goal : ZoneKind}

/-- A loop goes on where its first round led. -/
theorem forM_cons_of_ok {action : EntityId → Play Unit} {id : EntityId} {left : Duel}
    (ran : action id duel = .ok () left) :
    (id :: ids).forM action duel = ids.forM action left :=
  bind_of_ok ran

theorem exists_forM_send (sound : duel.WellPlaced) (distinct : ids.Nodup)
    (loose : ∀ id ∈ ids, duel.Loose player id) (away : goal ≠ .play)
    (unbounded : ∀ limits : ZoneLimits, limits.capacity? goal = none) :
    ∃ after, ids.forM (fun id => send id goal) duel = .ok () after ∧
      Gathers ids player goal duel after := by
  induction ids generalizing duel with
  | nil => exact ⟨duel, rfl, gathers_nil player goal sound⟩
  | cons id ids ih =>
      obtain ⟨fresh, distinct'⟩ := List.nodup_cons.mp distinct
      obtain ⟨middle, moved, transfers⟩ :=
        exists_move .top sound (loose id List.mem_cons_self) away (sound.hasRoom player unbounded)
      have sent : send id goal duel = .ok () middle := by
        unfold send
        rw [discard_apply, moved]
      have loose' (other : EntityId) (member : other ∈ ids) : middle.Loose player other :=
        transfers.loose (fun same => fresh (same ▸ member)) (loose other (.tail _ member))
      obtain ⟨after, ran, gathers⟩ := ih transfers.sound distinct' loose'
      refine ⟨after, ?_, transfers.gathers gathers sound fresh⟩
      rw [forM_cons_of_ok sent, ran]

theorem exists_forM_shuffleIn (sound : duel.WellPlaced) (distinct : ids.Nodup)
    (loose : ∀ id ∈ ids, duel.Loose player id) :
    ∃ after, ids.forM (fun id => discard (shuffleIn id player)) duel = .ok () after ∧
      Scatters ids player duel after := by
  induction ids generalizing duel with
  | nil => exact ⟨duel, rfl, scatters_nil player sound⟩
  | cons id ids ih =>
      obtain ⟨fresh, distinct'⟩ := List.nodup_cons.mp distinct
      obtain ⟨middle, place, shuffled, transfers⟩ :=
        exists_shuffleIn sound (loose id List.mem_cons_self)
      have sent : discard (shuffleIn id player) duel = .ok () middle := by
        rw [discard_apply, shuffled]
      have loose' (other : EntityId) (member : other ∈ ids) : middle.Loose player other :=
        transfers.loose (fun same => fresh (same ▸ member)) (loose other (.tail _ member))
      obtain ⟨after, ran, scatters⟩ := ih transfers.sound distinct' loose'
      refine ⟨after, ?_, transfers.scatters scatters sound fresh⟩
      rw [forM_cons_of_ok sent, ran]

end Play

end CardDuel
