import CardDuel.Player

/-!
# Zones

An entity is always in one zone.  The field, deck, hand, graveyard, secrets and
set-aside area of a player are ordered containers, some of them with a capacity;
heroes, hero powers and weapons in play stand in slots of their player instead.
The end of a container is its top: the next card of a deck and the rightmost
place of a field.
-/

namespace CardDuel

/-- Handle of an entity.  Numbers below two stand for the players themselves. -/
structure EntityId where
  number : Nat
deriving DecidableEq, Inhabited

namespace EntityId

def reserved : Nat := 2

def ofPlayer (player : Player) : EntityId :=
  ⟨player.number⟩

def isPlayer (id : EntityId) : Bool :=
  id.number < reserved

def label (id : EntityId) : String :=
  s!"Entity({id.number})"

end EntityId

inductive ZoneKind
  | unplaced
  | play
  | deck
  | hand
  | graveyard
  | secret
  | setAside
  | removed
deriving DecidableEq, Inhabited

namespace ZoneKind

def name : ZoneKind → String
  | unplaced => "Invalid"
  | play => "Play"
  | deck => "Deck"
  | hand => "Hand"
  | graveyard => "Graveyard"
  | secret => "Secret"
  | setAside => "SetAside"
  | removed => "Removed"

instance : Enumerated ZoneKind where
  values := [unplaced, play, deck, hand, graveyard, secret, setAside, removed]
  name := name
  mem_values kind := by cases kind <;> decide

/-- The zones that are containers, in the order in which a table is inspected. -/
def containers : List ZoneKind := [deck, hand, play, graveyard, secret, setAside]

end ZoneKind

/-- Where in a container an entity is put. -/
inductive Placement
  | top
  | bottom
  | index (place : Nat)
deriving DecidableEq, Inhabited

structure Zone where
  capacity : Option Nat
  members : List EntityId
deriving DecidableEq, Inhabited

namespace Zone

def empty (capacity : Option Nat) : Zone :=
  ⟨capacity, []⟩

def size (zone : Zone) : Nat :=
  zone.members.length

def isFull (zone : Zone) : Bool :=
  match zone.capacity with
  | none => false
  | some capacity => capacity ≤ zone.size

/-- How many further entities fit; `none` when there is no limit. -/
def freeSlots (zone : Zone) : Option Nat :=
  zone.capacity.map fun capacity => capacity - zone.size

def get? (zone : Zone) (place : Nat) : Option EntityId :=
  zone.members[place]?

def top? (zone : Zone) : Option EntityId :=
  zone.members.getLast?

def contains (zone : Zone) (id : EntityId) : Bool :=
  zone.members.contains id

def position? (zone : Zone) (id : EntityId) : Option Nat :=
  zone.members.findIdx? fun member => member == id

/-- The place that a placement names: an index beyond the end names the end. -/
def placeFor (zone : Zone) : Placement → Nat
  | .top => zone.size
  | .bottom => 0
  | .index place => min place zone.size

/-- Put an entity into the container, unless it is full.  The answer also tells the place. -/
def insert? (zone : Zone) (id : EntityId) (placement : Placement) : Option (Nat × Zone) :=
  if zone.isFull then none
  else
    let place := zone.placeFor placement
    some (place, { zone with members := zone.members.insertIdx place id })

/-- Take an entity out of the container.  The answer also tells the place it had. -/
def remove? (zone : Zone) (id : EntityId) : Option (Nat × Zone) :=
  (zone.position? id).map fun place =>
    (place, { zone with members := zone.members.eraseIdx place })

def reverse (zone : Zone) : Zone :=
  { zone with members := zone.members.reverse }

end Zone

structure ZoneLimits where
  hand : Nat
  field : Nat
  secrets : Nat

structure PlayerZones where
  deck : Zone
  hand : Zone
  field : Zone
  graveyard : Zone
  secrets : Zone
  setAside : Zone
deriving DecidableEq, Inhabited

namespace PlayerZones

def empty (limits : ZoneLimits) : PlayerZones where
  deck := Zone.empty none
  hand := Zone.empty (some limits.hand)
  field := Zone.empty (some limits.field)
  graveyard := Zone.empty none
  secrets := Zone.empty (some limits.secrets)
  setAside := Zone.empty none

def get? (zones : PlayerZones) : ZoneKind → Option Zone
  | .play => some zones.field
  | .deck => some zones.deck
  | .hand => some zones.hand
  | .graveyard => some zones.graveyard
  | .secret => some zones.secrets
  | .setAside => some zones.setAside
  | .unplaced | .removed => none

/-- Replace the container of a zone; nothing happens for a zone without one. -/
def set (zones : PlayerZones) (kind : ZoneKind) (zone : Zone) : PlayerZones :=
  match kind with
  | .play => { zones with field := zone }
  | .deck => { zones with deck := zone }
  | .hand => { zones with hand := zone }
  | .graveyard => { zones with graveyard := zone }
  | .secret => { zones with secrets := zone }
  | .setAside => { zones with setAside := zone }
  | .unplaced | .removed => zones

/-- The entities of a zone in order; none for a zone without a container. -/
def members (zones : PlayerZones) (kind : ZoneKind) : List EntityId :=
  match zones.get? kind with
  | none => []
  | some zone => zone.members

end PlayerZones

abbrev Zones := PerPlayer PlayerZones

namespace Zones

def empty (limits : ZoneLimits) : Zones :=
  PerPlayer.const (PlayerZones.empty limits)

def get? (zones : Zones) (player : Player) (kind : ZoneKind) : Option Zone :=
  (PerPlayer.get zones player).get? kind

def members (zones : Zones) (player : Player) (kind : ZoneKind) : List EntityId :=
  (PerPlayer.get zones player).members kind

def isFull (zones : Zones) (player : Player) (kind : ZoneKind) : Bool :=
  match zones.get? player kind with
  | none => false
  | some zone => zone.isFull

def set (zones : Zones) (player : Player) (kind : ZoneKind) (zone : Zone) : Zones :=
  PerPlayer.modify zones player fun own => own.set kind zone

/-- Put an entity into a player's zone; `none` when the zone is full or no container. -/
def insert? (zones : Zones) (player : Player) (kind : ZoneKind) (id : EntityId)
    (placement : Placement) : Option (Nat × Zones) := do
  let zone ← zones.get? player kind
  let (place, filled) ← zone.insert? id placement
  return (place, zones.set player kind filled)

def remove? (zones : Zones) (player : Player) (kind : ZoneKind) (id : EntityId) :
    Option (Nat × Zones) := do
  let zone ← zones.get? player kind
  let (place, rest) ← zone.remove? id
  return (place, zones.set player kind rest)

end Zones

end CardDuel
