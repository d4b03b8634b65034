import CardDuel.Duel.Acting
import CardDuel.Duel.Opening
import CardDuel.Proofs.Reasoning

/-!
# Elementary changes

Everything that happens in a duel is made of the few changes listed here.  A `Stir`
leaves every entity where it is, a `Shift` may also move entities about, and a
`Change` may also touch what directs the match: steps, turns, choices and the list
that waits.  An invariant of whole matches is checked once for each of them.
-/

namespace CardDuel

open Relation

namespace Entity

/-- A rewriting of one entity that leaves it where it is. -/
inductive Revision : (Entity → Entity) → Prop
  | write (tag : Tag) (value : Int) : Revision fun entity => entity.setTag tag value
  | add (tag : Tag) (amount : Int) : Revision fun entity => entity.addTag tag amount
  | destroy : Revision fun entity => { entity with destroyed := true }
  | strike : Revision fun entity => (entity.addTag .attacksThisTurn 1).setTag .stealth 0
  | hit (amount : Int) (poisonous freezing : Bool) :
      Revision fun entity => entity.takeHit amount poisonous freezing
  | loseShield : Revision loseShield
  | newcomer : Revision newcomer
  | refresh : Revision refresh
  | thaw : Revision thaw
  | enchant (enchantment : Enchantment) : Revision fun entity => entity.enchant enchantment

end Entity

namespace PlayerState

/-- A rewriting of what a player has that touches neither the slots nor the standing. -/
inductive Adjustment : (PlayerState → PlayerState) → Prop
  | write (tag : Tag) (value : Int) : Adjustment fun state => state.setTag tag value
  | add (tag : Tag) (amount : Int) : Adjustment fun state => state.addTag tag amount
  | spend (amount : Int) : Adjustment fun state => state.spendMana amount
  | pay (entity : Entity) : Adjustment (Play.payForCard entity)
  | crystals (cap amount : Int) (filled : Bool) :
      Adjustment fun state => state.gainCrystals cap amount filled
  | temporary (cap amount : Int) : Adjustment fun state => state.gainTemporaryMana cap amount
  | renew (cap : Int) : Adjustment fun state => state.renewMana cap
  | refill (total : Int) : Adjustment fun state => state.refillMana total
  | restart : Adjustment fun state =>
      (state.setTag .cardsPlayedThisTurn 0).setTag .minionsPlayedThisTurn 0
  | enlist (cardClass : CardClass) : Adjustment fun state => { state with cardClass := cardClass }

end PlayerState

namespace Duel

/-- A change that leaves every entity where it is. -/
inductive Stir : Duel → Duel → Prop
  | roll (duel : Duel) (dice : Dice) : Stir duel { duel with dice := dice }
  | revise (duel : Duel) (id : EntityId) {change : Entity → Entity}
      (revision : Entity.Revision change) : Stir duel (duel.updateEntity id change)
  | heal (duel : Duel) {id : EntityId} {entity : Entity} (amount : Int)
      (known : duel.entity? id = some entity) :
      Stir duel (duel.updateEntity id fun patient =>
        patient.addTag .damage (-entity.healable amount))
  | silence (duel : Duel) (id : EntityId) :
      Stir duel ((duel.updateEntity id Entity.silence).dropTriggers id)
  | transform (duel : Duel) {id : EntityId} {entity : Entity} {form : CardId} {card : Card}
      (known : duel.entity? id = some entity) (listed : duel.catalogue.card? form = some card)
      (kind : EntityKind.ofCardType? card.cardType = some entity.kind) :
      Stir duel (((duel.dropTriggers id).updateEntity id fun entity =>
        entity.replacedBy card).startTriggers id entity.zone)
  | auras (duel : Duel) : Stir duel duel.updateAuras
  | expire (duel : Duel) : Stir duel duel.expireEnchantments
  | fall (duel : Duel) (fallen : List (EntityId × Nat)) : Stir duel (duel.markFallen fallen)
  | adjust (duel : Duel) (player : Player) {change : PlayerState → PlayerState}
      (adjustment : PlayerState.Adjustment change) : Stir duel (duel.updatePlayer player change)
  | announce (duel : Duel) (event : Event) : Stir duel (duel.announce event)
  | react (duel : Duel) (work : Work) : Stir duel (duel.addReaction work)
  | unregister (duel : Duel) (id : TriggerId) :
      Stir duel { duel with triggers := duel.triggers.unregister id }

/-- A change that may move entities about. -/
inductive Shift : Duel → Duel → Prop
  | stir {before after : Duel} (stir : Stir before after) : Shift before after
  | relocate (duel : Duel) {id : EntityId} {entity : Entity} {goal : ZoneKind}
      (placement : Placement) (known : duel.entity? id = some entity)
      (allowed : ¬ (entity.kind = .spell ∧ goal = .play))
      (room : usesSlot entity.kind goal = true ∨ entity.zone = goal ∨
        duel.zones.isFull entity.owner goal = false) :
      Shift duel (duel.relocate id entity goal placement)
  | handOver (duel : Duel) {id : EntityId} {entity : Entity} {owner : Player}
      (known : duel.entity? id = some entity) (other : entity.owner ≠ owner) :
      Shift duel ((duel.leaveZone id .unplaced).updateEntity id fun entity =>
        { entity with owner := owner })
  | create (duel : Duel) (owner : Player) {id : CardId} {card : Card} {kind : EntityKind}
      (listed : duel.catalogue.card? id = some card)
      (instantiable : EntityKind.ofCardType? card.cardType = some kind) :
      Shift duel { duel with arena := duel.arena.push (Entity.fresh owner card kind) }
  | shuffle (duel : Duel) (player : Player) {zone : Zone} {shuffled : List EntityId}
      (container : duel.zones.get? player .deck = some zone)
      (reordered : shuffled.Perm zone.members) :
      Shift duel
        ({ duel with
          zones := duel.zones.set player .deck { zone with members := shuffled } }.renumber
            player .deck)

/-- A change of a duel. -/
inductive Change : Duel → Duel → Prop
  | shift {before after : Duel} (shift : Shift before after) : Change before after
  | choose (duel : Duel) (player : Player) (choice : Option Choice) :
      Change duel (duel.setChoice player choice)
  | suspend (duel : Duel) (waiting : Option Resolution) :
      Change duel { duel with suspended := waiting }
  | schedule (duel : Duel) (works : List Work) :
      Change duel { duel with agenda := duel.agenda.addPhases works }
  | begin (duel : Duel) {work : Work} {rest : Agenda} (next : duel.agenda.next? = some (work, rest)) :
      Change duel { duel with agenda := rest }
  | clear (duel : Duel) : Change duel duel.clearAgenda
  | enter (duel : Duel) (step : Step) : Change duel { duel with step := step }
  | count (duel : Duel) : Change duel { duel with turn := duel.turn + 1 }
  | pass (duel : Duel) (player : Player) : Change duel { duel with current := player }
  | finish (duel : Duel) (losers : List Player) : Change duel (duel.finish losers)
  | concede (duel : Duel) (player : Player) : Change duel (duel.concede player)
  | record (duel : Duel) (player : Player) (action : Action) :
      Change duel (Play.record player action duel)

end Duel

end CardDuel
