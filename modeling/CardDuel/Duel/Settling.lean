import CardDuel.Duel.Deaths
import CardDuel.Duel.Effects

/-!
# Settling

A duel settles by burying its dead, bringing the auras up to date and then taking
the next piece of scheduled work, until none is left, a choice is pending or the
match is over.  Cards can schedule work for each other without end, so settling
takes an allowance: how many pieces of work it may go through.
-/

namespace CardDuel.Play

/-- Fire a trigger that is still live.  A trigger that fires once is struck out first, and a
secret is revealed before it acts. -/
def fireTrigger (id : TriggerId) (event : Event) : Play Unit := do
  match (← get).triggers.get? id with
  | none => return ()
  | some trigger =>
    if trigger.rule.once then
      modify fun duel => { duel with triggers := duel.triggers.unregister id }
    if trigger.rule.zone = .secret then
      send trigger.owner .graveyard
    let context : EffectContext :=
      ⟨trigger.controller, trigger.owner, event.target, some event⟩
    discard (resolve (Resolution.ofEffects trigger.rule.effects context))

def doWork : Work → Play Unit
  | .run resolution => discard (resolve resolution)
  | .trigger id event => fireTrigger id event
  | .announce event => announce event
  | .bury spell => do
    if (← lookup spell).zone = .setAside then
      send spell .graveyard

/-- Go through the scheduled work.  A fault in it drops whatever else is scheduled. -/
def settle : Nat → Play Unit
  | 0 => throw .unsettled
  | allowance + 1 => do
    processDeaths
    modify Duel.updateAuras
    let duel ← get
    if duel.isOver || duel.suspended.isSome then
      return ()
    else
      match duel.agenda.next? with
      | none => return ()
      | some (work, agenda) =>
        set { duel with agenda := agenda }
        onFault (doWork work) Duel.clearAgenda
        settle allowance

end CardDuel.Play
