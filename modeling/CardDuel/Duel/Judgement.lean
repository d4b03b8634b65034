import CardDuel.Duel

/-!
# Judging conditions

Conditions are judged on the live table, from the point of view of a controller
and a source.  An entity that does not exist satisfies no condition, not even a
negated one.
-/

namespace CardDuel

/-- From where a condition is judged. -/
structure Viewpoint where
  controller : Player
  source : EntityId

namespace Duel

def hasTrait (duel : Duel) (view : Viewpoint) (id : EntityId) (entity : Entity) : Trait → Bool
  | .handEmpty => (duel.hand entity.owner).isEmpty
  | .handFull => duel.zones.isFull entity.owner .hand
  | .fieldFull => duel.zones.isFull entity.owner .play
  | .deckEmpty => (duel.deck entity.owner).isEmpty
  | .weaponEquipped => (duel.weapon entity.owner).isSome
  | .myTurn => duel.current = view.controller
  | .minion => entity.kind = .minion
  | .hero => entity.kind = .hero
  | .weapon => entity.kind = .weapon
  | .spell => entity.kind = .spell
  | .friendly => entity.owner = view.controller
  | .enemy => entity.owner ≠ view.controller
  | .source => id = view.source
  | .notSource => id ≠ view.source
  | .damaged => entity.isDamaged
  | .undamaged => !entity.isDamaged
  | .frozen => entity.has .frozen
  | .always => true

mutual

def judge (duel : Duel) (view : Viewpoint) (id : EntityId) (entity : Entity) : Condition → Bool
  | .is trait => duel.hasTrait view id entity trait
  | .inZone zone => entity.zone = zone
  | .hasTag tag => entity.has tag
  | .ofRace race =>
    match duel.catalogue.card? entity.card with
    | none => false
    | some card => card.race.belongsTo race
  | .attackAtLeast bound => bound ≤ duel.attackOf id
  | .attackAtMost bound => duel.attackOf id ≤ bound
  | .healthAtMost bound => entity.health ≤ bound
  | .all conditions => judgeAll duel view id entity conditions
  | .any conditions => judgeAny duel view id entity conditions
  | .not condition => !judge duel view id entity condition

def judgeAll (duel : Duel) (view : Viewpoint) (id : EntityId) (entity : Entity) :
    List Condition → Bool
  | [] => true
  | condition :: conditions =>
    judge duel view id entity condition && judgeAll duel view id entity conditions

def judgeAny (duel : Duel) (view : Viewpoint) (id : EntityId) (entity : Entity) :
    List Condition → Bool
  | [] => false
  | condition :: conditions =>
    judge duel view id entity condition || judgeAny duel view id entity conditions

end

/-- Whether an entity exists and satisfies a condition. -/
def satisfies (duel : Duel) (view : Viewpoint) (condition : Condition) (id : EntityId) : Bool :=
  match duel.entity? id with
  | none => false
  | some entity => duel.judge view id entity condition

/-- Whether there are entities and all of them satisfy a condition. -/
def allSatisfy (duel : Duel) (view : Viewpoint) (condition : Condition) (ids : List EntityId) :
    Bool :=
  !ids.isEmpty && ids.all fun id => duel.satisfies view condition id

end Duel

end CardDuel
