import CardDuel.Proofs.Change

/-!
# What changes leave alone

`Duel.table` is what a duel says about places: the containers, the slots, and the
seat that each entity records.  A stir leaves the table as it is.  `Duel.control` is
what directs the match; a shift leaves that as it is.
-/

namespace CardDuel

open Relation

/-- Where an entity says it belongs. -/
structure Seat where
  owner : Player
  kind : EntityKind
  zone : ZoneKind
  position : Nat
deriving DecidableEq

/-- The entities in the slots of a player. -/
structure Slots where
  hero : EntityId
  heroPower : EntityId
  weapon : Option EntityId
deriving DecidableEq

/-- What a duel says about places. -/
structure Table where
  zones : Zones
  slots : Player → Slots
  seat? : EntityId → Option Seat

/-- What directs a match. -/
structure Control where
  settings : Settings
  catalogue : Catalogue
  choices : PerPlayer (Option Choice)
  suspended : Option Resolution
  step : Step
  current : Player
  first : Player
  turn : Nat
  history : List ActionRecord
  standing : Player → Standing

namespace Entity

/-- Where the entity says it belongs. -/
def seat (entity : Entity) : Seat :=
  ⟨entity.owner, entity.kind, entity.zone, entity.position⟩

@[simp]
theorem seat_keepHealth (entity before : Entity) :
    (entity.keepHealth before).seat = entity.seat := by
  unfold keepHealth
  split <;> rfl

@[simp]
theorem seat_withAura (entity : Entity) (total : AuraTotal) :
    (entity.withAura total).seat = entity.seat := by
  unfold withAura
  split
  · rfl
  · rw [seat_keepHealth]
    rfl

@[simp]
theorem seat_expire (entity : Entity) : entity.expire.seat = entity.seat := by
  unfold expire
  split
  · rw [seat_keepHealth]
    rfl
  · rfl

@[simp]
theorem seat_silence (entity : Entity) : entity.silence.seat = entity.seat := by
  -- Reflexivity would compare the cleared tags with the tags before.
  rw [silence, seat_keepHealth, seat, seat]

theorem seat_ite {condition : Prop} [Decidable condition] {first second : Entity} {seat : Seat}
    (yes : first.seat = seat) (no : second.seat = seat) :
    (if condition then first else second).seat = seat := by
  split
  · exact yes
  · exact no

@[simp]
theorem seat_takeHit (entity : Entity) (amount : Int) (poisonous freezing : Bool) :
    (entity.takeHit amount poisonous freezing).seat = entity.seat := by
  unfold takeHit
  extract_lets remaining armored wounded poisoned
  have armoredSeat : armored.seat = entity.seat := seat_ite rfl rfl
  have woundedSeat : wounded.seat = entity.seat := seat_ite armoredSeat armoredSeat
  have poisonedSeat : poisoned.seat = entity.seat := seat_ite woundedSeat woundedSeat
  exact seat_ite poisonedSeat poisonedSeat

theorem Revision.seat {change : Entity → Entity} (revision : Revision change) (entity : Entity) :
    (change entity).seat = entity.seat := by
  cases revision with
  | write tag value => rfl
  | add tag amount => rfl
  | destroy => rfl
  | strike => rfl
  | hit amount poisonous freezing => exact seat_takeHit entity amount poisonous freezing
  | loseShield => rfl
  | newcomer => rfl
  | refresh =>
      unfold Entity.refresh
      exact seat_ite rfl rfl
  | thaw =>
      unfold Entity.thaw
      exact seat_ite rfl rfl
  | enchant enchantment =>
      unfold Entity.enchant
      rw [seat_keepHealth]
      rfl

end Entity

namespace PlayerState

/-- The entities in the slots. -/
def slots (state : PlayerState) : Slots :=
  ⟨state.hero, state.heroPower, state.weapon⟩

theorem Adjustment.frame {change : PlayerState → PlayerState} (adjustment : Adjustment change)
    (state : PlayerState) :
    (change state).slots = state.slots ∧ (change state).standing = state.standing := by
  cases adjustment with
  | crystals cap amount filled =>
      unfold gainCrystals
      dsimp only
      split <;> exact ⟨rfl, rfl⟩
  | pay entity =>
      unfold Play.payForCard
      dsimp only
      split <;> exact ⟨rfl, rfl⟩
  | _ => exact ⟨rfl, rfl⟩

end PlayerState

namespace Duel

/-- What the duel says about places. -/
def table (duel : Duel) : Table where
  zones := duel.zones
  slots player := (duel.player player).slots
  seat? id := (duel.entity? id).map Entity.seat

/-- What directs the match. -/
def control (duel : Duel) : Control where
  settings := duel.settings
  catalogue := duel.catalogue
  choices := duel.choices
  suspended := duel.suspended
  step := duel.step
  current := duel.current
  first := duel.first
  turn := duel.turn
  history := duel.history
  standing player := (duel.player player).standing

theorem entity?_updateEntity (duel : Duel) (id other : EntityId) (change : Entity → Entity) :
    (duel.updateEntity id change).entity? other =
      if other = id then (duel.entity? other).map change else duel.entity? other :=
  Arena.get?_update duel.arena id other change

theorem player_updatePlayer (duel : Duel) (player other : Player)
    (change : PlayerState → PlayerState) :
    (duel.updatePlayer player change).player other =
      if other = player then change (duel.player other) else duel.player other :=
  PerPlayer.get_modify duel.players player other change

/-- Starting triggers writes into the book of triggers and nowhere else. -/
theorem startTriggers_eq (duel : Duel) (id : EntityId) (zone : ZoneKind) :
    ∃ triggers, duel.startTriggers id zone = { duel with triggers := triggers } := by
  unfold startTriggers
  split
  · exact ⟨duel.triggers, rfl⟩
  · split
    · exact ⟨duel.triggers, rfl⟩
    · split
      · exact ⟨duel.triggers, rfl⟩
      · split
        · exact ⟨_, rfl⟩
        · exact ⟨duel.triggers, rfl⟩

theorem endTriggers_eq (duel : Duel) (id : EntityId) (entity : Entity) :
    ∃ triggers, duel.endTriggers id entity = { duel with triggers := triggers } := by
  unfold endTriggers
  split
  · exact ⟨duel.triggers, rfl⟩
  · split
    · exact ⟨_, rfl⟩
    · exact ⟨duel.triggers, rfl⟩

/-- Rewriting one entity without moving it leaves the table as it is. -/
theorem table_updateEntity (duel : Duel) (id : EntityId) {change : Entity → Entity}
    (seated : ∀ entity, (change entity).seat = entity.seat) :
    (duel.updateEntity id change).table = duel.table := by
  have seats (other : EntityId) :
      ((duel.updateEntity id change).entity? other).map Entity.seat =
        (duel.entity? other).map Entity.seat := by
    rw [entity?_updateEntity]
    split
    · simp [Option.map_map, Function.comp_def, seated]
    · rfl
  simp only [table, Table.mk.injEq]
  exact ⟨rfl, rfl, funext seats⟩

theorem table_updateAll (duel : Duel) {change : EntityId → Entity → Entity}
    (seated : ∀ id entity, (change id entity).seat = entity.seat) :
    ({ duel with arena := duel.arena.updateAll change }).table = duel.table := by
  have seats (id : EntityId) :
      (({ duel with arena := duel.arena.updateAll change } : Duel).entity? id).map Entity.seat =
        (duel.entity? id).map Entity.seat := by
    simp only [entity?, Arena.get?_updateAll, Option.map_map, Function.comp_def, seated]
  rw [table, table, Table.mk.injEq]
  exact ⟨rfl, rfl, funext seats⟩

theorem table_markFallen (duel : Duel) (fallen : List (EntityId × Nat)) :
    (duel.markFallen fallen).table = duel.table := by
  induction fallen generalizing duel with
  | nil => rfl
  | cons entry fallen ih =>
      let marked := duel.updateEntity entry.1 fun entity =>
        { entity with lastBoardPosition := entry.2 }
      calc (duel.markFallen (entry :: fallen)).table
        _ = (marked.markFallen fallen).table := rfl
        _ = marked.table := ih marked
        _ = duel.table := table_updateEntity duel entry.1 fun _ => rfl

theorem table_updatePlayer (duel : Duel) (player : Player)
    {change : PlayerState → PlayerState}
    (kept : ∀ state, (change state).slots = state.slots) :
    (duel.updatePlayer player change).table = duel.table := by
  have slots (other : Player) :
      ((duel.updatePlayer player change).player other).slots = (duel.player other).slots := by
    rw [player_updatePlayer]
    split
    · exact kept _
    · rfl
  simp only [table, Table.mk.injEq]
  exact ⟨rfl, funext slots, rfl⟩

theorem control_updatePlayer (duel : Duel) (player : Player)
    {change : PlayerState → PlayerState}
    (kept : ∀ state, (change state).standing = state.standing) :
    (duel.updatePlayer player change).control = duel.control := by
  have standing (other : Player) :
      ((duel.updatePlayer player change).player other).standing =
        (duel.player other).standing := by
    rw [player_updatePlayer]
    split
    · exact kept _
    · rfl
  simp only [control, Control.mk.injEq]
  exact ⟨rfl, rfl, rfl, rfl, rfl, rfl, rfl, rfl, rfl, funext standing⟩

/-- A stir leaves the table as it is. -/
theorem Stir.table {before after : Duel} (stir : Stir before after) :
    after.table = before.table := by
  cases stir with
  | roll dice => rfl
  | revise id revision => exact table_updateEntity before id revision.seat
  | heal amount known => exact table_updateEntity before _ fun _ => rfl
  | silence id => exact table_updateEntity before id Entity.seat_silence
  | @transform id entity form card known listed kind =>
      obtain ⟨triggers, started⟩ := startTriggers_eq
        ((before.dropTriggers id).updateEntity id fun entity => entity.replacedBy card) id
        entity.zone
      rw [started]
      exact table_updateEntity (before.dropTriggers id) id fun _ => rfl
  | auras => exact table_updateAll before fun _ entity => entity.seat_withAura _
  | expire => exact table_updateAll before fun _ entity => entity.seat_expire
  | fall fallen => exact table_markFallen before fallen
  | adjust player adjustment =>
      exact table_updatePlayer before player fun state => (adjustment.frame state).1
  | announce event => rfl
  | react work => rfl
  | unregister id => rfl

theorem Stir.control {before after : Duel} (stir : Stir before after) :
    after.control = before.control := by
  cases stir with
  | @transform id entity form card known listed kind =>
      obtain ⟨triggers, started⟩ := startTriggers_eq
        ((before.dropTriggers id).updateEntity id fun entity => entity.replacedBy card) id
        entity.zone
      rw [started]
      rfl
  | adjust player adjustment =>
      exact control_updatePlayer before player fun state => (adjustment.frame state).2
  | _ => rfl

theorem control_detach (duel : Duel) (id : EntityId) (entity : Entity) :
    (duel.detach id entity).control = duel.control := by
  unfold detach
  split
  · apply control_updatePlayer duel entity.owner
    intro state
    split <;> rfl
  · split <;> rfl

theorem control_leaveZone (duel : Duel) (id : EntityId) (goal : ZoneKind) :
    (duel.leaveZone id goal).control = duel.control := by
  unfold leaveZone
  split
  · rfl
  next entity known =>
    obtain ⟨triggers, ended⟩ := endTriggers_eq (duel.detach id entity) id entity
    dsimp only
    rw [ended]
    refine Eq.trans ?_ (control_detach duel id entity)
    split <;> rfl

theorem control_fillSlot (duel : Duel) (id : EntityId) (owner : Player) (kind : EntityKind) :
    (duel.fillSlot id owner kind).control = duel.control :=
  control_updatePlayer duel owner fun _ => by cases kind <;> rfl

theorem control_putInto (duel : Duel) (id : EntityId) (owner : Player) (zone : ZoneKind)
    (placement : Placement) : (duel.putInto id owner zone placement).control = duel.control := by
  unfold putInto
  split <;> rfl

theorem control_relocate (duel : Duel) (id : EntityId) (entity : Entity) (goal : ZoneKind)
    (placement : Placement) : (duel.relocate id entity goal placement).control = duel.control := by
  have left := control_leaveZone duel id goal
  unfold relocate
  dsimp only
  split
  · obtain ⟨triggers, started⟩ := startTriggers_eq
      ((duel.leaveZone id goal).fillSlot id entity.owner entity.kind) id goal
    rw [started]
    exact (control_fillSlot _ id entity.owner entity.kind).trans left
  · obtain ⟨triggers, started⟩ := startTriggers_eq
      ((duel.leaveZone id goal).putInto id entity.owner goal placement) id goal
    rw [started]
    exact (control_putInto _ id entity.owner goal placement).trans left

theorem agenda_leaveZone (duel : Duel) (id : EntityId) (goal : ZoneKind) :
    (duel.leaveZone id goal).agenda = duel.agenda := by
  unfold leaveZone
  split
  · rfl
  next entity known =>
    obtain ⟨triggers, ended⟩ := endTriggers_eq (duel.detach id entity) id entity
    have detached : (duel.detach id entity).agenda = duel.agenda := by
      unfold detach
      split
      · rfl
      · split <;> rfl
    dsimp only
    rw [ended]
    refine Eq.trans ?_ detached
    split <;> rfl

theorem agenda_relocate (duel : Duel) (id : EntityId) (entity : Entity) (goal : ZoneKind)
    (placement : Placement) : (duel.relocate id entity goal placement).agenda = duel.agenda := by
  have left := agenda_leaveZone duel id goal
  unfold relocate
  dsimp only
  split
  · obtain ⟨triggers, started⟩ := startTriggers_eq
      ((duel.leaveZone id goal).fillSlot id entity.owner entity.kind) id goal
    rw [started]
    exact left
  · obtain ⟨triggers, started⟩ := startTriggers_eq
      ((duel.leaveZone id goal).putInto id entity.owner goal placement) id goal
    rw [started]
    refine Eq.trans ?_ left
    unfold putInto
    split <;> rfl

theorem Shift.control {before after : Duel} (shift : Shift before after) :
    after.control = before.control := by
  cases shift with
  | stir stir => exact stir.control
  | @relocate id entity goal placement known allowed room =>
      exact control_relocate before id entity goal placement
  | @handOver id entity owner known other => exact control_leaveZone before id .unplaced
  | create owner listed instantiable => rfl
  | shuffle player container reordered => rfl

theorem Shift.controls {before after : Duel} (shifts : ReflTransGen Shift before after) :
    after.control = before.control := by
  induction shifts with
  | refl => rfl
  | tail _ last ih => exact last.control.trans ih

/-- The settings and the catalogue of a duel never change. -/
theorem Change.fixed {before after : Duel} (change : Change before after) :
    after.settings = before.settings ∧ after.catalogue = before.catalogue := by
  cases change with
  | shift shift =>
      exact ⟨congrArg Control.settings shift.control, congrArg Control.catalogue shift.control⟩
  | _ => exact ⟨rfl, rfl⟩

theorem Change.fixed_of_reaches {before after : Duel} (reaches : ReflTransGen Change before after) :
    after.settings = before.settings ∧ after.catalogue = before.catalogue := by
  induction reaches with
  | refl => exact ⟨rfl, rfl⟩
  | tail _ last ih => exact ⟨last.fixed.1.trans ih.1, last.fixed.2.trans ih.2⟩

end Duel

end CardDuel
