import CardDuel.Duel.CardPlay

/-!
# Deaths and the end of the match

Whoever is dead leaves the board in one pass.  Who that is, and where the dead
minions stood, is settled before the first of them moves, so a deathrattle that
summons in place finds the board as it was.  When a hero is dead the match ends.
-/

namespace CardDuel

namespace Duel

def isDead (duel : Duel) (id : EntityId) : Bool :=
  match duel.entity? id with
  | none => false
  | some entity => entity.isDead

/-- The players in the order in which their dead are counted. -/
def turnOrder (duel : Duel) : List Player :=
  [duel.current, duel.current.opponent]

/-- The dead minions with their field places: the current player's from left to right, then the
opponent's. -/
def deadMinions (duel : Duel) : List (EntityId × Nat) :=
  duel.turnOrder.flatMap fun player =>
    (duel.field player).zipIdx.filter fun entry => duel.isDead entry.1

def deadWeapons (duel : Duel) : List EntityId :=
  duel.turnOrder.flatMap fun player => (duel.weapon player).toList.filter duel.isDead

def markFallen (duel : Duel) (fallen : List (EntityId × Nat)) : Duel :=
  { duel with
    arena := fallen.foldl
      (fun arena entry =>
        arena.update entry.1 fun entity => { entity with lastBoardPosition := entry.2 })
      duel.arena }

/-- How a player stands at the end: who conceded stays so, the only loser has lost, several losers
are tied, and who did not lose has won. -/
def finalStanding (losers : List Player) (player : Player) (standing : Standing) : Standing :=
  if standing = .conceded then .conceded
  else if losers.contains player then (if losers.length = 1 then .lost else .tied)
  else .won

/-- End the match; nothing scheduled and no choice survives. -/
def finish (duel : Duel) (losers : List Player) : Duel :=
  let settle (player : Player) (duel : Duel) : Duel :=
    duel.updatePlayer player fun state =>
      { state with standing := finalStanding losers player state.standing }
  { settle .one (settle .zero duel) with
    agenda := Agenda.empty
    suspended := none
    choices := PerPlayer.const none
    step := .finalGameOver }

def defeated (duel : Duel) : List Player :=
  Player.both.filter fun player => duel.isDead (duel.hero player)

def concede (duel : Duel) (player : Player) : Duel :=
  (duel.updatePlayer player fun state => { state with standing := .conceded }).finish [player]

end Duel

namespace Play

/-- Move one dead entity to the graveyard, queue its deathrattle unless it is silenced, and
announce its death. -/
def bury (id : EntityId) : Play Unit := do
  let entity ← lookup id
  let behaviour := (← get).behaviourOf entity
  let deathrattle := if entity.tags.has .silenced then [] else behaviour.deathrattle
  send id .graveyard
  unless deathrattle.isEmpty do
    let context : EffectContext := ⟨entity.owner, id, none, none⟩
    modify fun duel => duel.addReaction (.run (Resolution.ofEffects deathrattle context))
  announce (Event.caused .death entity.owner id)

/-- Bury all the dead and end the match if a hero is among them. -/
def processDeaths : Play Unit := do
  let duel ← get
  if duel.isOver then
    return ()
  else
    let fallen := duel.deadMinions
    let broken := duel.deadWeapons
    set (duel.markFallen fallen)
    (fallen.map Prod.fst ++ broken).forM bury
    modify fun duel =>
      if duel.defeated.isEmpty then duel else duel.finish duel.defeated

end Play

end CardDuel
