import CardDuel.Duel.Judgement

/-!
# Inspecting a duel

Whether the places that entities record agree with the containers and slots, and
how a finished match ended.
-/

namespace CardDuel

inductive Verdict
  | winner (player : Player)
  | draw
deriving DecidableEq, Inhabited

namespace Verdict

def isWinner (verdict : Verdict) (player : Player) : Bool :=
  verdict = winner player

end Verdict

namespace Duel

def verdict? (duel : Duel) : Option Verdict :=
  if duel.isOver then
    match Player.both.find? fun player => (duel.player player).standing = .won with
    | some winner => some (.winner winner)
    | none => some .draw
  else none

def checkKnown (duel : Duel) (id : EntityId) : Except Violation Entity :=
  match duel.entity? id with
  | none => .error (.unknownEntity id)
  | some entity => .ok entity

/-- Check that the members of a container record their places. -/
def checkContainer (duel : Duel) (player : Player) (zone : ZoneKind) : Except Violation Unit :=
  (duel.members player zone).zipIdx.forM fun (id, index) => do
    let entity ← duel.checkKnown id
    if entity.zone ≠ zone ∨ entity.position ≠ index ∨ entity.owner ≠ player then
      .error (.misplaced id zone index player entity)
    else .ok ()

def slots (duel : Duel) (player : Player) : List EntityId :=
  let state := duel.player player
  [state.hero, state.heroPower] ++ state.weapon.toList

/-- Check that the slots of a player hold entities in play. -/
def checkSlots (duel : Duel) (player : Player) : Except Violation Unit :=
  (duel.slots player).forM fun id => do
    let entity ← duel.checkKnown id
    if entity.zone ≠ .play ∨ entity.owner ≠ player then .error (.slotOutsidePlay id player)
    else .ok ()

/-- Whether the container or slot that an entity records holds it. -/
def isHeld (duel : Duel) (id : EntityId) (entity : Entity) : Bool :=
  match entity.zone with
  | .unplaced | .removed => true
  | zone =>
    if zone = .play && entity.kind ≠ .minion then (duel.slots entity.owner).contains id
    else (duel.members entity.owner zone)[entity.position]? = some id

/-- Check that every entity is held where it records to be. -/
def checkHeld (duel : Duel) : Except Violation Unit :=
  duel.arena.ids.forM fun id => do
    let entity ← duel.checkKnown id
    if duel.isHeld id entity then .ok () else .error (.notHeld id entity.zone)

def checkPlaces (duel : Duel) : Except Violation Unit := do
  Player.both.forM fun player => do
    ZoneKind.containers.forM (duel.checkContainer player)
    duel.checkSlots player
  duel.checkHeld

end Duel

end CardDuel
