import CardDuel.Proofs.Frame
import Mathlib.Data.List.Basic
import Mathlib.Data.List.Nodup

/-!
# Places

A table is well placed when its containers and the places that entities record agree.
While an entity is on its way from one container to another it stands apart: the table
is well placed but for that entity, which no container holds.
-/

namespace CardDuel

namespace ZoneKind

/-- Whether a zone is a container. -/
def IsContainer (zone : ZoneKind) : Prop :=
  zone ≠ .unplaced ∧ zone ≠ .removed

instance (zone : ZoneKind) : Decidable zone.IsContainer :=
  inferInstanceAs (Decidable (_ ∧ _))

end ZoneKind

namespace Seat

/-- Whether a container has to hold the entity: everywhere but in play that is so for each kind,
and in play for minions. -/
def InContainer (seat : Seat) : Prop :=
  seat.zone.IsContainer ∧ (seat.zone = .play → seat.kind = .minion)

/-- The same entity at a place. -/
def placedAt (seat : Seat) (zone : ZoneKind) (position : Nat) : Seat :=
  { seat with zone := zone, position := position }

end Seat

namespace Table

variable {table after : Table} {out : Option EntityId}

/-- The entities of a player's zone in order. -/
def members (table : Table) (player : Player) (zone : ZoneKind) : List EntityId :=
  table.zones.members player zone

/-- Containers and recorded places agree, but for an entity that stands apart. -/
structure Placed (table : Table) (out : Option EntityId) : Prop where
  nodup : ∀ player zone, (table.members player zone).Nodup
  mem_iff : ∀ player zone id, id ∈ table.members player zone ↔
    some id ≠ out ∧ ∃ seat, table.seat? id = some seat ∧ seat.InContainer ∧
      seat.owner = player ∧ seat.zone = zone
  position : ∀ player zone id seat, id ∈ table.members player zone →
    table.seat? id = some seat → seat.position = (table.members player zone).idxOf id

theorem placed_empty (noMembers : ∀ player zone, table.members player zone = [])
    (unknown : ∀ id, table.seat? id = none) : table.Placed none := by
  constructor
  case nodup =>
    intro player zone
    rw [noMembers]
    exact List.nodup_nil
  case mem_iff =>
    intro player zone id
    rw [noMembers, unknown]
    simp
  case position =>
    intro player zone id seat member
    rw [noMembers] at member
    cases member

/-- An entity is at an index of a container exactly when it records that place. -/
theorem Placed.getElem?_iff (placed : table.Placed none) (player : Player) (zone : ZoneKind)
    (index : Nat) (id : EntityId) :
    (table.members player zone)[index]? = some id ↔
      ∃ seat, table.seat? id = some seat ∧ seat.InContainer ∧ seat.owner = player ∧
        seat.zone = zone ∧ seat.position = index := by
  constructor
  · intro held
    have member : id ∈ table.members player zone := List.mem_of_getElem? held
    obtain ⟨-, seat, known, contained, owner, inZone⟩ := (placed.mem_iff player zone id).mp member
    refine ⟨seat, known, contained, owner, inZone, ?_⟩
    rw [placed.position player zone id seat member known]
    obtain ⟨small, rfl⟩ := List.getElem?_eq_some_iff.mp held
    exact (placed.nodup player zone).idxOf_getElem index small
  · rintro ⟨seat, known, contained, owner, inZone, rfl⟩
    have member : id ∈ table.members player zone :=
      (placed.mem_iff player zone id).mpr ⟨nofun, seat, known, contained, owner, inZone⟩
    rw [placed.position player zone id seat member known]
    exact List.getElem?_idxOf member

/-- Writing new places into the entities of a container whose content has changed. -/
theorem Placed.rewrite {entering leaving : Option EntityId} (placed : table.Placed entering)
    {player : Player} {zone : ZoneKind} {content : List EntityId}
    (container : zone.IsContainer) (nodup : content.Nodup)
    (zones : ∀ other kind, after.members other kind =
      if other = player ∧ kind = zone then content else table.members other kind)
    (seats : ∀ id, after.seat? id =
      if id ∈ content then (table.seat? id).map fun seat => seat.placedAt zone (content.idxOf id)
      else table.seat? id)
    (changed : ∀ id, id ∈ content ↔
      some id ≠ leaving ∧ (id ∈ table.members player zone ∨ some id = entering))
    (arrives : ∀ id, some id = entering → some id ≠ leaving →
      ∃ seat, table.seat? id = some seat ∧ seat.owner = player ∧
        (zone = .play → seat.kind = .minion))
    (departs : ∀ id, some id = leaving → some id = entering ∨ id ∈ table.members player zone) :
    after.Placed leaving := by
  have belongs (id : EntityId) (member : id ∈ content) :
      ∃ seat, table.seat? id = some seat ∧ seat.owner = player ∧
        (zone = .play → seat.kind = .minion) := by
    obtain ⟨stays, before | enters⟩ := (changed id).mp member
    · obtain ⟨-, seat, known, contained, owner, rfl⟩ := (placed.mem_iff player zone id).mp before
      exact ⟨seat, known, owner, contained.2⟩
    · exact arrives id enters stays
  -- Outside the container nothing is different, and none of its content is there.
  have elsewhere {other : Player} {kind : ZoneKind} {id : EntityId} {seat : Seat}
      (away : ¬ (other = player ∧ kind = zone)) (owner : seat.owner = other)
      (inZone : seat.zone = kind) (known : table.seat? id = some seat)
      (settled : some id ≠ entering) : id ∉ content := by
    intro member
    obtain ⟨-, before | enters⟩ := (changed id).mp member
    · obtain ⟨-, held, knownHeld, -, heldOwner, heldZone⟩ :=
        (placed.mem_iff player zone id).mp before
      rw [known] at knownHeld
      cases knownHeld
      exact away ⟨owner.symm.trans heldOwner, inZone.symm.trans heldZone⟩
    · exact settled enters
  constructor
  case nodup =>
    intro other kind
    rw [zones]
    split
    · exact nodup
    · exact placed.nodup other kind
  case mem_iff =>
    intro other kind id
    rw [zones, seats]
    by_cases here : other = player ∧ kind = zone
    · obtain ⟨rfl, rfl⟩ := here
      rw [if_pos ⟨rfl, rfl⟩]
      constructor
      · intro member
        obtain ⟨seat, known, owner, minion⟩ := belongs id member
        refine ⟨((changed id).mp member).1, seat.placedAt kind (content.idxOf id), ?_, ?_, owner,
          rfl⟩
        · rw [if_pos member, known, Option.map_some]
        · exact ⟨container, minion⟩
      · rintro ⟨stays, seat, known, contained, owner, inZone⟩
        by_contra absent
        rw [if_neg absent] at known
        by_cases enters : some id = entering
        · exact absent ((changed id).mpr ⟨stays, .inr enters⟩)
        · exact absent ((changed id).mpr ⟨stays, .inl ((placed.mem_iff other kind id).mpr
            ⟨enters, seat, known, contained, owner, inZone⟩)⟩)
    · rw [if_neg here, placed.mem_iff]
      constructor
      · rintro ⟨settled, seat, known, contained, owner, inZone⟩
        have absent : id ∉ content := elsewhere here owner inZone known settled
        refine ⟨fun leaves => ?_, seat, ?_, contained, owner, inZone⟩
        · rcases departs id leaves with enters | member
          · exact settled enters
          · obtain ⟨-, held, knownHeld, -, heldOwner, heldZone⟩ :=
              (placed.mem_iff player zone id).mp member
            rw [known] at knownHeld
            cases knownHeld
            exact here ⟨owner.symm.trans heldOwner, inZone.symm.trans heldZone⟩
        · rw [if_neg absent, known]
      · rintro ⟨stays, seat, known, contained, owner, inZone⟩
        by_cases member : id ∈ content
        · obtain ⟨before, knownBefore, ownerBefore, -⟩ := belongs id member
          rw [if_pos member, knownBefore, Option.map_some] at known
          cases known
          exact absurd ⟨owner.symm.trans ownerBefore, inZone.symm⟩ here
        · rw [if_neg member] at known
          exact ⟨fun enters => member ((changed id).mpr ⟨stays, .inr enters⟩), seat, known,
            contained, owner, inZone⟩
  case position =>
    intro other kind id seat
    rw [zones, seats]
    by_cases here : other = player ∧ kind = zone
    · rw [if_pos here]
      intro member known
      obtain ⟨before, knownBefore, -⟩ := belongs id member
      rw [if_pos member, knownBefore, Option.map_some] at known
      cases known
      rfl
    · rw [if_neg here]
      intro member known
      obtain ⟨settled, held, knownHeld, -, owner, inZone⟩ :=
        (placed.mem_iff other kind id).mp member
      rw [if_neg (elsewhere here owner inZone knownHeld settled)] at known
      exact placed.position other kind id seat member known

/-- An entity that no container has to hold may stand apart. -/
theorem Placed.setApart (placed : table.Placed none) {id : EntityId}
    (uncontained : ∀ seat, table.seat? id = some seat → ¬ seat.InContainer) :
    table.Placed (some id) where
  nodup := placed.nodup
  position := placed.position
  mem_iff player zone other := by
    rw [placed.mem_iff]
    apply and_congr_left
    rintro ⟨held, knownHeld, contained, _⟩
    apply iff_of_true nofun
    intro same
    cases same
    exact uncontained held knownHeld contained

/-- What the entity that stands apart records does not matter. -/
theorem Placed.ignore {id : EntityId} (placed : table.Placed (some id))
    (zones : after.zones = table.zones)
    (seats : ∀ other, other ≠ id → after.seat? other = table.seat? other) :
    after.Placed (some id) := by
  have members (player : Player) (zone : ZoneKind) :
      after.members player zone = table.members player zone := by
    unfold Table.members
    rw [zones]
  constructor
  case nodup =>
    intro player zone
    rw [members]
    exact placed.nodup player zone
  case mem_iff =>
    intro player zone other
    rw [members, placed.mem_iff]
    apply and_congr_right
    intro apart
    rw [seats other fun same => apart (congrArg some same)]
  case position =>
    intro player zone other seat
    rw [members]
    intro member known
    have apart := ((placed.mem_iff player zone other).mp member).1
    rw [seats other fun same => apart (congrArg some same)] at known
    exact placed.position player zone other seat member known

/-- An entity stands apart no longer when it records a place that is no container. -/
theorem Placed.settle {id : EntityId} {seat : Seat} (placed : table.Placed (some id))
    (known : table.seat? id = some seat) (uncontained : ¬ seat.InContainer) :
    table.Placed none where
  nodup := placed.nodup
  position := placed.position
  mem_iff player zone other := by
    rw [placed.mem_iff]
    apply and_congr_left
    rintro ⟨held, knownHeld, contained, _⟩
    refine iff_of_true (fun same => uncontained ?_) nofun
    cases same
    rw [known] at knownHeld
    cases knownHeld
    exact contained

end Table

end CardDuel
