import CardDuel.Duel.Announcement

/-!
# Damage and healing

Damage is stopped by immunity and by a divine shield, and a hero's armor takes
what it can.  What gets through may kill by poison, freeze, and heal the hero of
the one who dealt it.
-/

namespace CardDuel

namespace Entity

/-- What a hit leaves after the armor of a hero has taken its part. -/
def unabsorbed (entity : Entity) (amount : Int) : Int :=
  if entity.kind = .hero then amount - min entity.armor amount else amount

/-- Take a hit that neither immunity nor a shield stops. -/
def takeHit (entity : Entity) (amount : Int) (poisonous freezing : Bool) : Entity :=
  let remaining := entity.unabsorbed amount
  let hurt :=
    if entity.kind = .hero then entity.setTag .armor (entity.armor - min entity.armor amount)
    else entity
  let hurt := if 0 < remaining then hurt.addTag .damage remaining else hurt
  let hurt :=
    if poisonous && entity.kind = .minion && 0 < remaining then { hurt with destroyed := true }
    else hurt
  if freezing then hurt.setTag .frozen 1 else hurt

/-- How much of an amount of healing the entity can take. -/
def healable (entity : Entity) (amount : Int) : Int :=
  max (min amount entity.damage) 0

end Entity

def Duel.isStanding (duel : Duel) (id : EntityId) : Bool :=
  match duel.entity? id with
  | none => false
  | some entity => entity.inPlay && !entity.isDead

namespace Play

def announce (event : Event) : Play Unit :=
  modify fun duel => duel.announce event

def heal (source target : EntityId) (amount : Int) : Play Unit := do
  let entity ← lookup target
  let healed := entity.healable amount
  unless healed = 0 do
    change target fun entity => entity.addTag .damage (-healed)
    announce ⟨.heal, entity.owner, some source, some target, healed⟩

/-- Heal the hero of a source that has lifesteal. -/
def stealLife (source : EntityId) (origin : Option Entity) (amount : Int) : Play Unit := do
  match origin with
  | none => return ()
  | some origin =>
    if origin.has .lifesteal then
      heal source ((← get).hero origin.owner) amount

/-- Deal damage from a source, which need not exist any more, to a target. -/
def damage (source target : EntityId) (amount : Int) : Play Unit := do
  unless amount ≤ 0 do
    let origin := (← get).entity? source
    let sourceHas (tag : Tag) : Bool :=
      match origin with
      | none => false
      | some origin => origin.has tag
    let entity ← lookup target
    if entity.has .immune then
      return ()
    else if entity.has .divineShield then
      change target Entity.loseShield
    else
      change target fun entity =>
        entity.takeHit amount (sourceHas .poisonous) (sourceHas .freeze)
      stealLife source origin amount
      let remaining := entity.unabsorbed amount
      if 0 < remaining then
        let dealer :=
          match origin with
          | none => entity.owner
          | some origin => origin.owner
        announce ⟨.takeDamage, entity.owner, some source, some target, remaining⟩
        announce ⟨.dealDamage, dealer, some source, some target, remaining⟩

/-- Let an attacker and a defender exchange damage.  When either of them is gone by now, the
attack comes to nothing and its list stops.  Only a minion strikes back. -/
def fight (attacker defender : EntityId) : Play Outcome := do
  let duel ← get
  if !duel.isStanding attacker || !duel.isStanding defender then
    return .stop
  else
    let attack := duel.attackOf attacker
    let counter := if (← lookup defender).kind = .minion then duel.attackOf defender else 0
    let entity ← lookup attacker
    change attacker fun entity => (entity.addTag .attacksThisTurn 1).setTag .stealth 0
    if entity.kind = .hero then
      match duel.weapon entity.owner with
      | none => pure ()
      | some weapon => change weapon fun weapon => weapon.addTag .durability (-1)
    damage attacker defender attack
    damage defender attacker counter
    announce (Event.aimed .afterAttack entity.owner attacker (some defender))
    return .complete

end Play

end CardDuel
