import CardDuel.Duel.Judgement

/-!
# Auras on the table

One pass computes, for every entity, the total of the auras that reach it now.
The totals are built from the table as it was before the pass, so the order of
the sources matters for nothing but the order of granted keywords.
-/

namespace CardDuel.Duel

/-- The entities of a player that may project an aura: minions, weapon, hero. -/
def auraSources (duel : Duel) (player : Player) : List EntityId :=
  duel.field player ++ (duel.weapon player).toList ++ [duel.hero player]

def neighbours (row : List EntityId) (id : EntityId) : List EntityId :=
  match row.findIdx? fun other => other == id with
  | none => []
  | some place =>
    (if place = 0 then [] else row[place - 1]?.toList) ++ row[place + 1]?.toList

def reached (duel : Duel) (source : EntityId) (player : Player) : AuraReach → List EntityId
  | .field => duel.field player
  | .fieldExceptSource => (duel.field player).filter fun id => id ≠ source
  | .adjacent => neighbours (duel.field player) source
  | .enemyField => duel.field player.opponent
  | .allMinions => duel.field player ++ duel.field player.opponent
  | .hand => duel.hand player
  | .hero => [duel.hero player]
  | .weapon => (duel.weapon player).toList

/-- The aura that an entity projects: only in play and unless it is silenced. -/
def projected? (duel : Duel) (source : EntityId) : Option Aura :=
  match duel.entity? source with
  | none => none
  | some entity =>
    if entity.tags.has .silenced || !entity.inPlay then none
    else (duel.behaviourOf entity).aura

/-- What one source contributes, as pairs of a reached entity and a modifier. -/
def contributionsOf (duel : Duel) (player : Player) (source : EntityId) :
    List (EntityId × Modifier) :=
  match duel.projected? source with
  | none => []
  | some aura =>
    ((duel.reached source player aura.reach).filter fun id =>
      match aura.condition with
      | none => true
      | some condition => duel.satisfies ⟨player, source⟩ condition id).map
        fun id => (id, aura.effect)

def contributions (duel : Duel) : List (EntityId × Modifier) :=
  Player.both.flatMap fun player =>
    (duel.auraSources player).flatMap fun source => duel.contributionsOf player source

def totalFor (contributions : List (EntityId × Modifier)) (id : EntityId) : AuraTotal :=
  AuraTotal.sum ((contributions.filter fun entry => entry.1 = id).map Prod.snd)

/-- Let the auras of the present table reach every entity. -/
def updateAuras (duel : Duel) : Duel :=
  let contributions := duel.contributions
  { duel with
    arena := duel.arena.updateAll fun id entity => entity.withAura (totalFor contributions id) }

end CardDuel.Duel
