import CardDuel.Duel.Judgement

/-!
# Selecting entities

A selector is read when its effect runs, so it always names the present hero, the
present field and the present hand.  Mixed selections list the controller's side
first: hero, minions from left to right, then the opponent's.
-/

namespace CardDuel

namespace Duel

/-- The handles that a selector names, whether or not they are in use. -/
def named (duel : Duel) (context : EffectContext) (scratch : Scratch) :
    Selector → List EntityId
  | .source => [context.source]
  | .target => context.target.toList
  | .hero => [duel.hero context.controller]
  | .enemyHero => [duel.hero context.controller.opponent]
  | .everyone => duel.side context.controller ++ duel.side context.controller.opponent
  | .allMinions => duel.field context.controller ++ duel.field context.controller.opponent
  | .allMinionsExceptSource =>
    (duel.field context.controller ++ duel.field context.controller.opponent).filter
      fun id => id ≠ context.source
  | .minions => duel.field context.controller
  | .minionsExceptSource =>
    (duel.field context.controller).filter fun id => id ≠ context.source
  | .enemyMinions => duel.field context.controller.opponent
  | .enemies => duel.side context.controller.opponent
  | .friends => duel.side context.controller
  | .weapon => (duel.weapon context.controller).toList
  | .enemyWeapon => (duel.weapon context.controller.opponent).toList
  | .hand => duel.hand context.controller
  | .enemyHand => duel.hand context.controller.opponent
  | .deck => duel.deck context.controller
  | .collected => scratch.collected
  | .eventSource => (context.event.bind Event.source).toList
  | .eventTarget => (context.event.bind Event.target).toList
  | .heroPower => [(duel.player context.controller).heroPower]
  | .nothing => []

end Duel

namespace Play

/-- The entities that a selector names.  Naming nothing on purpose is a violation. -/
def select (resolution : Resolution) (selector : Selector) : Play (List EntityId) := do
  let context := resolution.context
  if selector = .nothing then
    violate (.emptySelector context.source context.controller)
  else
    let duel ← get
    return (duel.named context resolution.scratch selector).filter duel.arena.contains

end Play

end CardDuel
