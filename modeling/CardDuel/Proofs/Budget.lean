import CardDuel.Proofs.Lawful
import CardDuel.Proofs.Playing

/-!
# The mana budget

As long as no card writes the counters of a player or takes temporary mana away, both players stay
within the cap, and a card or a hero power costs its player exactly what it is worth.
-/

namespace CardDuel

open Relation

/-! ## Thrifty cards -/

namespace Effect

/-- Whether an effect, or one in its nested lists, writes a counter of mana or takes temporary mana
away. -/
inductive Tampers : Effect → Prop
  | setPlayerTag {tag : Tag} (value : Int) (mana : tag ∈ Tag.mana) :
      Tampers (.setPlayerTag tag value)
  | gainTemporaryMana {amount : Int} (negative : amount < 0) : Tampers (.gainTemporaryMana amount)
  | whenFlag {value : Bool} {effects : List Effect} {effect : Effect} (member : effect ∈ effects)
      (tampers : Tampers effect) : Tampers (.whenFlag value effects)
  | sequence {effects : List Effect} {effect : Effect} (member : effect ∈ effects)
      (tampers : Tampers effect) : Tampers (.sequence effects)
  | repeated {times : Nat} {effects : List Effect} {effect : Effect} (member : effect ∈ effects)
      (tampers : Tampers effect) : Tampers (.repeated times effects)

def Thrifty (effect : Effect) : Prop :=
  ¬ effect.Tampers

instance hereditary_thrifty : Hereditary Thrifty where
  attack := nofun
  whenFlag thrifty _ member tampers := thrifty (.whenFlag member tampers)
  sequence thrifty _ member tampers := thrifty (.sequence member tampers)
  repeated thrifty _ member tampers := thrifty (.repeated member tampers)

end Effect

/-- Whether no card of a catalogue tampers with mana. -/
def Catalogue.Thrifty (catalogue : Catalogue) : Prop :=
  ∀ entry ∈ catalogue.entries, entry.behaviour.Fits Effect.Thrifty

namespace Duel

variable {duel before after : Duel} {player : Player} {id : EntityId} {entity : Entity}
variable {fits : Effect → Prop}

/-! ## Both players stay within the cap -/

/-- Both players are within the cap of the match, as long as their sums fit. -/
def Covered (duel : Duel) : Prop :=
  ∀ player, (duel.player player).Covered duel.settings.maxMana

theorem Covered.congr_ledger (covered : before.Covered)
    (settings : after.settings = before.settings)
    (ledger : ∀ player, (after.player player).ledger = (before.player player).ledger) :
    after.Covered := by
  intro player
  obtain ⟨tags, sound⟩ := Prod.mk.inj (ledger player)
  rw [settings]
  exact (covered player).congr sound fun tag _ => congrArg (fun tags => tags.get tag) tags

theorem Covered.updatePlayer (covered : duel.Covered) (player : Player)
    {change : PlayerState → PlayerState}
    (kept : ∀ state, state.Covered duel.settings.maxMana →
      (change state).Covered duel.settings.maxMana) :
    (duel.updatePlayer player change).Covered := by
  intro other
  rw [player_updatePlayer]
  split
  · exact kept _ (covered other)
  · exact covered other

theorem ledger_interred (duel : Duel) (id : EntityId) (entity : Entity) (player : Player) :
    ((duel.interred id entity).player player).ledger = (duel.player player).ledger := by
  unfold interred
  split
  · rfl
  · exact ledger_relocate duel id entity .graveyard .top player

theorem ledger_buried (duel : Duel) (id : EntityId) (entity : Entity) (player : Player) :
    ((duel.buried id entity).player player).ledger = (duel.player player).ledger := by
  refine Eq.trans ?_ (ledger_interred duel id entity player)
  unfold buried mourned
  split <;> rfl

theorem ledger_finish (duel : Duel) (losers : List Player) (player : Player) :
    ((duel.finish losers).player player).ledger = (duel.player player).ledger := by
  cases player <;> rfl

/-- A lawful change keeps both players within the cap if no effect tampers with mana. -/
theorem Lawful.covered (lawful : Lawful Effect.Thrifty before after)
    (tidy : before.Tidy Effect.Thrifty) (covered : before.Covered) : after.Covered := by
  have untouched (ledger : ∀ player, (after.player player).ledger = (before.player player).ledger) :
      after.Covered :=
    covered.congr_ledger (Change.fixed_of_reaches (lawful.changes tidy)).1 ledger
  obtain ⟨demise, law⟩ := lawful
  cases law with
  | unruly after untidy => exact absurd tidy untidy
  | @relocate id entity goal placement known _ _ =>
      exact untouched (ledger_relocate before id entity goal placement)
  | @handOver id _ _ known other => exact untouched (ledger_leaveZone before id .unplaced)
  | @outlive id entity player known => exact untouched (ledger_interred before id entity)
  | @transform id entity form card known listed kind =>
      obtain ⟨triggers, started⟩ := startTriggers_eq
        ((before.dropTriggers id).updateEntity id fun entity => entity.replacedBy card) id
        entity.zone
      exact untouched fun player => by rw [started]; rfl
  | adjust player routine => exact covered.updatePlayer player routine.2
  | @award player tag value thrifty =>
      have spared : tag ∉ Tag.mana := fun mana => thrifty (.setPlayerTag value mana)
      exact covered.updatePlayer player fun state kept sound => (kept sound).setTag spared
  | @lend player amount thrifty =>
      have positive : 0 ≤ amount :=
        Int.not_lt.mp fun negative => thrifty (.gainTemporaryMana negative)
      exact covered.updatePlayer player fun state kept sound =>
        (kept (PlayerState.overflowed_watch.mp sound).1).gainTemporaryMana positive sound
  | @bury id entity known _ => exact untouched (ledger_buried before id entity)
  | finish losers => exact untouched (ledger_finish before losers)
  | concede loser =>
      refine untouched fun player => (ledger_finish _ [loser] player).trans ?_
      exact ledger_updatePlayer before loser player fun _ => rfl
  | @refill player total thrifty => exact absurd (.setPlayerTag total (by decide)) thrifty
  | _ => exact untouched fun _ => rfl

theorem maxMana_pos_of_validate {settings : Settings} (valid : settings.validate = .ok ()) :
    0 < settings.maxMana := by
  unfold Settings.validate at valid
  split at valid
  · cases valid
  split at valid
  · cases valid
  next room => exact Int.not_le.mp room

theorem bare_covered {settings : Settings} {catalogue : Catalogue}
    (begun : Duel.bare settings catalogue = .ok duel) :
    duel.settings = settings ∧ duel.Covered := by
  obtain ⟨_, valid, -⟩ := ok_of_bind begun
  have room := Int.le_of_lt (maxMana_pos_of_validate valid)
  obtain ⟨first, dice, zero, one, rfl⟩ := bare_eq begun
  refine ⟨rfl, fun player => ?_⟩
  cases player with
  | zero => exact fun _ => .initial .zero zero room
  | one => exact fun _ => .initial .one one room

/-! ## Payments -/

/-- The entity that an action pays for. -/
def bought? (duel : Duel) (player : Player) : Action → Option EntityId
  | .playCard card _ _ => some card
  | .heroPower _ => some (duel.player player).heroPower
  | .attack _ _ | .endTurn | .mulligan _ | .choose _ | .concede => none

/-- What an action that pays for an entity does to the counters of its player. -/
def payment (entity : Entity) : Action → PlayerState → PlayerState
  | .playCard _ _ _, state => Play.payForCard entity state
  | .heroPower _, state => state.spendMana entity.cost
  | .attack _ _, state | .endTurn, state | .mulligan _, state | .choose _, state
  | .concede, state => state

/-- What an action that pays for an entity does when it is paid. -/
def delivery (duel : Duel) (allowance : Nat) (player : Player) (entity : Entity) :
    Action → Play Unit
  | .playCard card target position => do
    Play.placePlayed player card entity position
    Play.runPhases allowance (duel.phasesFor player card target entity)
  | .heroPower target => do
    let power := (duel.player player).heroPower
    Play.change power fun entity => entity.setTag .exhausted 1
    let effects := ((← get).behaviourOf entity).effects
    Play.runPhases allowance
      [.run (Resolution.ofEffects effects ⟨player, power, target, none⟩),
        .announce (Event.aimed .inspire player power target)]
  | .attack _ _ | .endTurn | .mulligan _ | .choose _ | .concede => pure ()

/-- The duel in which an action is on record and paid. -/
def charged (duel : Duel) (player : Player) (action : Action) (entity : Entity) : Duel :=
  (Play.record player action duel).updatePlayer player (payment entity action)

/-- The cost of an entity is all that a player has less, and neither the crystals nor what is
locked of them change; the opponent pays nothing. -/
structure Charges (duel paid : Duel) (player : Player) (entity : Entity) : Prop where
  mana : (paid.player player).remainingMana = (duel.player player).remainingMana - entity.cost
  crystals : (paid.player player).tags.get .crystals = (duel.player player).tags.get .crystals
  locked :
    (paid.player player).tags.get .overloadLocked = (duel.player player).tags.get .overloadLocked
  opponent : paid.player player.opponent = duel.player player.opponent

/-- An action pays for an entity first of all, and goes on from there. -/
def Purchases (duel : Duel) (allowance : Nat) (player : Player) (action : Action) (id : EntityId) :
    Prop :=
  ∃ entity, duel.entity? id = some entity ∧
    Play.take allowance player action duel =
      Play.onFault (duel.delivery allowance player entity action) Duel.clearAgenda
        (duel.charged player action entity) ∧
      duel.Charges (duel.charged player action entity) player entity

/-- Whatever becomes of an accepted hero power, once it is paid it is exhausted and goes to its
phases. -/
theorem take_heroPower_eq {target : Option EntityId} (allowance : Nat)
    (known : duel.entity? (duel.player player).heroPower = some entity)
    (accepted : duel.check player (.heroPower target) = .ok ()) (running : duel.isOver = false) :
    Play.take allowance player (.heroPower target) duel =
      Play.onFault (duel.delivery allowance player entity (.heroPower target)) Duel.clearAgenda
        (duel.charged player (.heroPower target) entity) := by
  have recorded : (Play.record player (.heroPower target) duel).entity?
      ((Play.record player (.heroPower target) duel).player player).heroPower = some entity := known
  rw [Play.take_of_accepted allowance running accepted]
  refine Play.onFault_congr ?_
  change Play.useHeroPower allowance player target _ = _
  unfold Play.useHeroPower
  rw [Play.get_bind, Play.bind_of_ok (Play.lookup_of_entity? recorded)]
  rfl

theorem remainingMana_payment {action : Action} (bought : duel.bought? player action = some id)
    {state : PlayerState} (covered : entity.cost ≤ state.remainingMana) :
    (payment entity action state).remainingMana = state.remainingMana - entity.cost := by
  cases action with
  | playCard card target position => exact PlayerState.remainingMana_payForCard covered
  | heroPower target => exact PlayerState.remainingMana_spendMana entity.cost_nonneg covered
  | _ => cases bought

theorem get_payment {tag : Tag} (spared : tag ∈ [Tag.crystals, .overloadLocked]) (action : Action)
    (state : PlayerState) : (payment entity action state).tags.get tag = state.tags.get tag := by
  have away {other : Tag} (apart : other ∉ [Tag.crystals, .overloadLocked]) : tag ≠ other :=
    fun same => apart (same ▸ spared)
  have spends : (state.spendMana entity.cost).tags.get tag = state.tags.get tag :=
    PlayerState.get_spendMana (away (by decide)) (away (by decide))
  cases action with
  | playCard card target position =>
      exact (PlayerState.get_payForCard (away (by decide)) (away (by decide))).trans spends
  | heroPower target => exact spends
  | _ => rfl

theorem charges_charged {action : Action} (bought : duel.bought? player action = some id)
    (covered : entity.cost ≤ (duel.player player).remainingMana) :
    duel.Charges (duel.charged player action entity) player entity := by
  have paid : (duel.charged player action entity).player player =
      payment entity action (duel.player player) :=
    (player_updatePlayer _ player player _).trans (if_pos rfl)
  refine ⟨?_, ?_, ?_, ?_⟩
  · rw [paid, remainingMana_payment bought covered]
  · rw [paid, get_payment (by decide)]
  · rw [paid, get_payment (by decide)]
  · exact (player_updatePlayer _ player player.opponent _).trans (if_neg player.opponent_ne)

/-- An accepted card or hero power is paid. -/
theorem purchases_of_accepted {action : Action} (allowance : Nat)
    (accepted : duel.check player action = .ok ()) (bought : duel.bought? player action = some id) :
    duel.Purchases allowance player action id := by
  cases action with
  | playCard card target position =>
      cases bought
      obtain ⟨turn, checked⟩ := check_playCard accepted
      obtain ⟨entity, known, -, -, paid, -⟩ := checkCard_spec checked
      exact ⟨entity, known, take_playCard_eq allowance known accepted (running_of_checkTurn turn),
        charges_charged rfl (checkCost_spec paid)⟩
  | heroPower target =>
      cases bought
      obtain ⟨turn, checked⟩ := check_heroPower accepted
      obtain ⟨entity, known, paid, -⟩ := checkHeroPower_spec checked
      exact ⟨entity, known, take_heroPower_eq allowance known accepted (running_of_checkTurn turn),
        charges_charged rfl (checkCost_spec paid)⟩
  | _ => cases bought

end Duel

/-- A minion that lends its player the mana that it costs, and a spell that lends as much as a word
holds. -/
def Catalogue.squires : Catalogue :=
  .ofEntries
    [⟨Card.hero ⟨1⟩ "HERO" "" .mage 30 "POWER", Behaviour.none⟩,
      ⟨Card.power ⟨2⟩ "POWER" "" 2, Behaviour.none⟩,
      ⟨Card.minion ⟨3⟩ "SQUIRE" "" 1 1 1,
        { Behaviour.none with effects := [.gainTemporaryMana 1] }⟩,
      ⟨Card.spell ⟨4⟩ "BANKER" "" 0,
        { Behaviour.none with effects := [.gainTemporaryMana 0x7fffffff] }⟩]
    [(.mage, ⟨1⟩)] (by decide) (by decide)

/-- Player zero draws three squires and a banker. -/
def Settings.squires : Settings :=
  { Settings.standard with
    decks := [["SQUIRE", "SQUIRE", "SQUIRE", "BANKER"], []], shuffleDecks := false }

namespace Duel

theorem thrifty_squires : Catalogue.squires.Thrifty := by
  rw [Catalogue.Thrifty, Catalogue.squires, Catalogue.entries_ofEntries]
  have lends {amount : Int} (positive : 0 ≤ amount) :
      Behaviour.Fits Effect.Thrifty { Behaviour.none with effects := [.gainTemporaryMana amount] } := by
    refine { Behaviour.fits_none with effects := fun effect member => ?_ }
    rw [List.mem_singleton.mp member]
    rintro (_ | negative)
    exact Int.not_le.mpr negative positive
  exact List.forall_mem_cons.mpr ⟨Behaviour.fits_none, List.forall_mem_cons.mpr
    ⟨Behaviour.fits_none, List.forall_mem_cons.mpr ⟨lends (by decide),
      List.forall_mem_singleton.mpr (lends (by decide))⟩⟩⟩

end Duel

end CardDuel
