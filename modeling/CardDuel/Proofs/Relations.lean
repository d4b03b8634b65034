import CardDuel.Proofs.Frame
import CardDuel.Proofs.Mana

/-!
# Relations that plays follow

What a play does is said by a relation whose steps lead from the duel before to the duel
after, and the same play follows several: `Change` holds of all that can happen, a finer
relation only under assumptions.  Each class below lists the elementary changes that a
relation has to contain, so that a play is taken apart once for all of them.
-/

namespace CardDuel

open Relation

namespace Entity

theorem get_setTag (entity : Entity) {tag other : Tag} (value : Int) (away : other ≠ tag) :
    (entity.setTag tag value).tags.get other = entity.tags.get other := by
  rw [setTag, Tags.get_set, if_neg away]

theorem get_keepHealth (entity before : Entity) {tag : Tag} (away : tag ≠ .damage) :
    (entity.keepHealth before).tags.get tag = entity.tags.get tag := by
  unfold keepHealth
  split
  · exact entity.get_setTag _ away
  · rfl

/-- A change of auras rewrites no tag but the damage. -/
theorem get_withAura (entity : Entity) (total : AuraTotal) {tag : Tag} (away : tag ≠ .damage) :
    (entity.withAura total).tags.get tag = entity.tags.get tag := by
  unfold withAura
  split
  · rfl
  · exact get_keepHealth _ entity away

theorem get_silenced_keepHealth (entity before : Entity) :
    (entity.keepHealth before).tags.get .silenced = entity.tags.get .silenced :=
  entity.get_keepHealth before (by decide)

theorem get_addTag (entity : Entity) {tag other : Tag} (amount : Int) (away : other ≠ tag) :
    (entity.addTag tag amount).tags.get other = entity.tags.get other := by
  rw [addTag, Tags.get_add, if_neg away]

theorem damage_keepHealth (entity before : Entity) (sound : 0 ≤ entity.damage) :
    0 ≤ (entity.keepHealth before).damage := by
  unfold keepHealth
  split
  · rw [damage, setTag, Tags.get_set_self]
    exact Int.le_max_right _ _
  · exact sound

/-- A revision that neither silences an entity nor lifts a silence, and that takes no damage away
that was not there. -/
structure Routine (change : Entity → Entity) : Prop where
  revision : Revision change
  silenced : ∀ entity, (change entity).tags.get .silenced = entity.tags.get .silenced
  damage : ∀ entity, 0 ≤ entity.damage → 0 ≤ (change entity).damage

namespace Routine

/-- A revision that touches neither of the two tags. -/
theorem of_tags {change : Entity → Entity} (revision : Revision change)
    (silenced : ∀ entity, (change entity).tags.get .silenced = entity.tags.get .silenced)
    (damage : ∀ entity, (change entity).damage = entity.damage) : Routine change :=
  ⟨revision, silenced, fun entity sound => (damage entity).symm ▸ sound⟩

theorem write {tag : Tag} (value : Int) (spared : tag ≠ .silenced ∧ tag ≠ .damage) :
    Routine fun entity => entity.setTag tag value :=
  .of_tags (.write tag value) (fun entity => entity.get_setTag value spared.1.symm)
    fun entity => entity.get_setTag value spared.2.symm

theorem add {tag : Tag} (amount : Int) (spared : tag ≠ .silenced ∧ tag ≠ .damage) :
    Routine fun entity => entity.addTag tag amount :=
  .of_tags (.add tag amount) (fun entity => entity.get_addTag amount spared.1.symm)
    fun entity => entity.get_addTag amount spared.2.symm

theorem destroy : Routine fun entity => { entity with destroyed := true } :=
  .of_tags .destroy (fun _ => rfl) fun _ => rfl

theorem strike : Routine fun entity => (entity.addTag .attacksThisTurn 1).setTag .stealth 0 :=
  .of_tags .strike (fun entity => by simp [setTag, addTag, Tags.get_set, Tags.get_add])
    fun entity => by simp [Entity.damage, setTag, addTag, Tags.get_set, Tags.get_add]

theorem hit (amount : Int) (poisonous freezing : Bool) :
    Routine fun entity => entity.takeHit amount poisonous freezing where
  revision := .hit amount poisonous freezing
  silenced entity := by
    unfold takeHit
    simp only [apply_ite tags, apply_ite (Tags.get · Tag.silenced), setTag, addTag, Tags.get_set,
      Tags.get_add, reduceCtorEq, if_false, ite_self]
  damage entity sound := by
    unfold takeHit Entity.damage
    simp only [apply_ite tags, apply_ite (Tags.get · Tag.damage), setTag, addTag, Tags.get_set,
      Tags.get_add, reduceCtorEq, if_false, if_true, ite_self]
    split
    next harmful => exact Int.add_nonneg sound (Int.le_of_lt harmful)
    · exact sound

theorem loseShield : Routine loseShield :=
  .of_tags .loseShield (fun entity => by simp [Entity.loseShield, Tags.get_set])
    fun entity => by simp [Entity.damage, Entity.loseShield, Tags.get_set]

theorem newcomer : Routine newcomer :=
  .of_tags .newcomer (fun entity => by simp [Entity.newcomer, setTag, Tags.get_set])
    fun entity => by simp [Entity.damage, Entity.newcomer, setTag, Tags.get_set]

theorem refresh : Routine refresh := by
  refine .of_tags .refresh (fun entity => ?_) fun entity => ?_ <;>
    (unfold Entity.refresh
     dsimp only
     split <;> simp [Entity.damage, setTag, addTag, Tags.get_set, Tags.get_add])

theorem thaw : Routine thaw := by
  refine .of_tags .thaw (fun entity => ?_) fun entity => ?_ <;>
    (unfold Entity.thaw
     split <;> simp [Entity.damage, setTag, Tags.get_set])

theorem enchant (enchantment : Enchantment) : Routine fun entity => entity.enchant enchantment where
  revision := .enchant enchantment
  silenced entity := get_silenced_keepHealth _ entity
  damage entity sound := damage_keepHealth _ entity sound

end Routine

/-- A routine revision that leaves the count of the attacks alone. -/
structure Peaceful (change : Entity → Entity) : Prop where
  routine : Routine change
  attacks : ∀ entity,
    (change entity).tags.get .attacksThisTurn = entity.tags.get .attacksThisTurn

namespace Peaceful

theorem write {tag : Tag} (value : Int)
    (spared : tag ≠ .silenced ∧ tag ≠ .damage ∧ tag ≠ .attacksThisTurn) :
    Peaceful fun entity => entity.setTag tag value :=
  ⟨.write value ⟨spared.1, spared.2.1⟩, fun entity => entity.get_setTag value spared.2.2.symm⟩

theorem add {tag : Tag} (amount : Int)
    (spared : tag ≠ .silenced ∧ tag ≠ .damage ∧ tag ≠ .attacksThisTurn) :
    Peaceful fun entity => entity.addTag tag amount :=
  ⟨.add amount ⟨spared.1, spared.2.1⟩, fun entity => entity.get_addTag amount spared.2.2.symm⟩

theorem destroy : Peaceful fun entity => { entity with destroyed := true } :=
  ⟨.destroy, fun _ => rfl⟩

theorem hit (amount : Int) (poisonous freezing : Bool) :
    Peaceful fun entity => entity.takeHit amount poisonous freezing := by
  refine ⟨.hit amount poisonous freezing, fun entity => ?_⟩
  unfold takeHit
  simp only [apply_ite tags, apply_ite (Tags.get · Tag.attacksThisTurn), setTag, addTag,
    Tags.get_set, Tags.get_add, reduceCtorEq, if_false, ite_self]

theorem loseShield : Peaceful loseShield :=
  ⟨.loseShield, fun entity => by simp [Entity.loseShield, Tags.get_set]⟩

theorem thaw : Peaceful thaw := by
  refine ⟨.thaw, fun entity => ?_⟩
  unfold Entity.thaw
  split
  · exact entity.get_setTag 0 (by decide)
  · rfl

theorem enchant (enchantment : Enchantment) :
    Peaceful fun entity => entity.enchant enchantment :=
  ⟨.enchant enchantment, fun entity => get_keepHealth _ entity (by decide)⟩

end Peaceful

end Entity

theorem Agenda.toList_of_next {agenda rest : Agenda} {work : Work}
    (next : agenda.next? = some (work, rest)) : agenda.toList = work :: rest.toList := by
  have listed := agenda.next?_toList
  rw [next] at listed
  split at listed
  · cases listed
  · exact (Option.some.inj listed).symm

/-! ## Effects that a relation allows -/

/-- A property of effects that the nested lists of an effect inherit; attacks have it, since they
are not on any card. -/
class Effect.Hereditary (fits : Effect → Prop) : Prop where
  attack : fits .attack
  whenFlag : ∀ {value effects}, fits (.whenFlag value effects) → ∀ effect ∈ effects, fits effect
  sequence : ∀ {effects}, fits (.sequence effects) → ∀ effect ∈ effects, fits effect
  repeated : ∀ {times effects}, fits (.repeated times effects) → ∀ effect ∈ effects, fits effect

instance Effect.hereditary_true : Hereditary fun _ => True :=
  ⟨trivial, fun _ _ _ => trivial, fun _ _ _ => trivial, fun _ _ _ => trivial⟩

variable {fits : Effect → Prop}

/-- Whether all effects that are left in a list in progress are allowed. -/
def Resolution.Fits (fits : Effect → Prop) (resolution : Resolution) : Prop :=
  ∀ effects ∈ resolution.frames, ∀ effect ∈ effects, fits effect

/-- Whether a piece of work runs allowed effects only; a trigger is looked up when it fires. -/
def Work.Fits (fits : Effect → Prop) : Work → Prop
  | .run resolution => resolution.Fits fits
  | .trigger .. | .announce _ | .bury _ => True

/-- The handle of a trigger that is to fire, and the event that it reacts to. -/
def Work.alert? : Work → Option (TriggerId × Event)
  | .trigger id event => some (id, event)
  | .run _ | .announce _ | .bury _ => none

/-- Whether a piece of work announces a death. -/
def Work.tolls : Work → Bool
  | .announce event => event.kind = .death
  | .run _ | .trigger .. | .bury _ => false

/-- Whether a piece of work is a phase of an action: it runs allowed effects only, it fires no
trigger and it announces no death. -/
def Work.IsPhase (fits : Effect → Prop) (work : Work) : Prop :=
  work.Fits fits ∧ work.alert? = none ∧ work.tolls = false

/-- Whether a card does allowed effects only. -/
structure Behaviour.Fits (fits : Effect → Prop) (behaviour : Behaviour) : Prop where
  effects : ∀ effect ∈ behaviour.effects, fits effect
  combo : ∀ effect ∈ behaviour.combo, fits effect
  deathrattle : ∀ effect ∈ behaviour.deathrattle, fits effect
  trigger : ∀ rule, behaviour.trigger = some rule → ∀ effect ∈ rule.effects, fits effect

/-- Whether nothing but allowed effects is on the cards of a duel, in its book of triggers, and
still to be run. -/
structure Duel.Fits (fits : Effect → Prop) (duel : Duel) : Prop where
  listed : ∀ card behaviour, duel.catalogue.behaviour? card = some behaviour → behaviour.Fits fits
  booked : ∀ trigger ∈ duel.triggers.active, ∀ effect ∈ trigger.rule.effects, fits effect
  scheduled : ∀ work ∈ duel.agenda.toList, work.Fits fits
  waiting : ∀ resolution, duel.suspended = some resolution → resolution.Fits fits

theorem Resolution.fits_ofEffects {effects : List Effect} {context : EffectContext}
    (allowed : ∀ effect ∈ effects, fits effect) : (ofEffects effects context).Fits fits := by
  intro frame member
  rw [List.mem_singleton.mp member]
  exact allowed

theorem Resolution.Fits.leave {resolution : Resolution} (allowed : resolution.Fits fits) :
    resolution.leave.Fits fits :=
  fun frame member => allowed frame (List.mem_of_mem_tail member)

theorem Resolution.Fits.enter {resolution : Resolution} {effects : List Effect}
    (allowed : resolution.Fits fits) (entered : ∀ effect ∈ effects, fits effect) :
    (resolution.enter effects).Fits fits := by
  unfold Resolution.enter
  split
  · exact allowed
  · intro frame member
    rcases List.mem_cons.mp member with rfl | member
    · exact entered
    · exact allowed frame member

theorem Resolution.fits_true (resolution : Resolution) : resolution.Fits fun _ => True :=
  fun _ _ _ _ => trivial

theorem Work.fits_true (work : Work) : work.Fits fun _ => True := by
  cases work with
  | run resolution => exact resolution.fits_true
  | _ => trivial

theorem Duel.fits_true (duel : Duel) : duel.Fits fun _ => True where
  listed _ _ _ := ⟨fun _ _ => trivial, fun _ _ => trivial, fun _ _ => trivial,
    fun _ _ _ _ => trivial⟩
  booked _ _ _ _ := trivial
  scheduled work _ := work.fits_true
  waiting resolution _ := resolution.fits_true

theorem Behaviour.fits_none : Behaviour.none.Fits fits where
  effects _ := nofun
  combo _ := nofun
  deathrattle _ := nofun
  trigger _ := nofun

theorem Behaviour.Fits.effectsWhen {behaviour : Behaviour} (allowed : behaviour.Fits fits)
    (comboIsOn : Bool) : ∀ effect ∈ behaviour.effectsWhen comboIsOn, fits effect := by
  unfold Behaviour.effectsWhen
  split
  · exact allowed.combo
  · exact allowed.effects

theorem Duel.Fits.behaviourOf {duel : Duel} (allowed : duel.Fits fits) (entity : Entity) :
    (duel.behaviourOf entity).Fits fits := by
  unfold Duel.behaviourOf
  cases listed : duel.catalogue.behaviour? entity.card with
  | none => exact Behaviour.fits_none
  | some behaviour => exact allowed.listed entity.card behaviour listed

/-! ## What becomes of the dead -/

namespace Duel

/-- Whether an entity that is on its way to a zone finds no room there. -/
def TurnsAway (duel : Duel) (entity : Entity) (goal : ZoneKind) : Prop :=
  usesSlot entity.kind goal = false ∧ entity.zone ≠ goal ∧
    duel.zones.isFull entity.owner goal = true

instance (duel : Duel) (entity : Entity) (goal : ZoneKind) :
    Decidable (duel.TurnsAway entity goal) :=
  inferInstanceAs (Decidable (_ ∧ _ ∧ _))

theorem not_turnsAway_iff {duel : Duel} {entity : Entity} {goal : ZoneKind} :
    ¬ duel.TurnsAway entity goal ↔ usesSlot entity.kind goal = true ∨ entity.zone = goal ∨
      duel.zones.isFull entity.owner goal = false := by
  simp only [TurnsAway, Decidable.not_and_iff_not_or_not, Bool.not_eq_false, Bool.not_eq_true,
    ne_eq, Decidable.not_not]

/-- The duel after an entity is sent to the graveyard. -/
def interred (duel : Duel) (id : EntityId) (entity : Entity) : Duel :=
  if duel.TurnsAway entity .graveyard then duel else duel.relocate id entity .graveyard .top

/-- What an entity does when it dies: its deathrattle, unless it is silenced. -/
def lastWords (duel : Duel) (entity : Entity) : List Effect :=
  if entity.tags.has .silenced then [] else (duel.behaviourOf entity).deathrattle

/-- The list of effects that the death of an entity owes, for its owner and with itself as the
source. -/
def rattle (duel : Duel) (id : EntityId) (entity : Entity) : Resolution :=
  Resolution.ofEffects (duel.lastWords entity) ⟨entity.owner, id, none, none⟩

/-- The duel after an entity is sent to the graveyard and its deathrattle is queued. -/
def mourned (duel : Duel) (id : EntityId) (entity : Entity) : Duel :=
  if (duel.lastWords entity).isEmpty then duel.interred id entity
  else (duel.interred id entity).addReaction (.run (duel.rattle id entity))

/-- The duel after a burial: the death is announced when the deathrattle is queued. -/
def buried (duel : Duel) (id : EntityId) (entity : Entity) : Duel :=
  (duel.mourned id entity).announce (Event.caused .death entity.owner id)

/-- The duel after the weapon of a player has made room for another one: its death is announced. -/
def outlived (duel : Duel) (player : Player) (id : EntityId) (entity : Entity) : Duel :=
  (duel.interred id entity).announce (Event.caused .death player id)

end Duel

/-! ## Classes of relations -/

namespace Duel

/-- The duel when the work of a step has moved the clock: the first player begins, a turn is
counted, or the turn passes to the opponent. -/
def ticked (duel : Duel) (player : Player) : Step → Duel
  | .beginFirst => { duel with current := duel.first }
  | .mainReady => { duel with turn := duel.turn + 1 }
  | .mainNext => { duel with current := player.opponent }
  | _ => duel

/-- The duel when a step is entered and the clock has moved. -/
def entering (duel : Duel) (target : Step) : Duel :=
  ({ duel with step := target } : Duel).ticked duel.current target

/-- A relation that contains the throws of the dice. -/
class Rolling (step : Duel → Duel → Prop) : Prop where
  roll (duel : Duel) (dice : Dice) : step duel { duel with dice := dice }

/-- A relation that contains the changes by which entities are made and put somewhere. -/
class Placing (step : Duel → Duel → Prop) : Prop extends Rolling step where
  relocate (duel : Duel) {id : EntityId} {entity : Entity} {goal : ZoneKind}
    (placement : Placement) (known : duel.entity? id = some entity)
    (allowed : ¬ (entity.kind = .spell ∧ goal = .play))
    (room : usesSlot entity.kind goal = true ∨ entity.zone = goal ∨
      duel.zones.isFull entity.owner goal = false) :
    step duel (duel.relocate id entity goal placement)
  create (duel : Duel) (owner : Player) {id : CardId} {card : Card} {kind : EntityKind}
    (listed : duel.catalogue.card? id = some card)
    (instantiable : EntityKind.ofCardType? card.cardType = some kind) :
    step duel { duel with arena := duel.arena.push (Entity.fresh owner card kind) }

/-- A relation that contains the changes that leave every entity where it is and announce nothing. -/
class Revising (step : Duel → Duel → Prop) : Prop extends Rolling step where
  revise (duel : Duel) (id : EntityId) {change : Entity → Entity}
    (peaceful : Entity.Peaceful change) : step duel (duel.updateEntity id change)
  strike (duel : Duel) {id : EntityId} {entity : Entity} (known : duel.entity? id = some entity) :
    step duel (duel.updateEntity id fun entity =>
      (entity.addTag .attacksThisTurn 1).setTag .stealth 0)
  heal (duel : Duel) {id : EntityId} {entity : Entity} (amount : Int)
    (known : duel.entity? id = some entity) :
    step duel (duel.updateEntity id fun patient =>
      patient.addTag .damage (-entity.healable amount))
  silence (duel : Duel) (id : EntityId) :
    step duel ((duel.updateEntity id Entity.silence).dropTriggers id)
  transform (duel : Duel) {id : EntityId} {entity : Entity} {form : CardId} {card : Card}
    (known : duel.entity? id = some entity) (listed : duel.catalogue.card? form = some card)
    (kind : EntityKind.ofCardType? card.cardType = some entity.kind) :
    step duel (((duel.dropTriggers id).updateEntity id fun entity =>
      entity.replacedBy card).startTriggers id entity.zone)
  auras (duel : Duel) : step duel duel.updateAuras
  expire (duel : Duel) : step duel duel.expireEnchantments
  fall (duel : Duel) (fallen : List (EntityId × Nat)) : step duel (duel.markFallen fallen)
  adjust (duel : Duel) (player : Player) {change : PlayerState → PlayerState}
    (routine : PlayerState.Routine duel.settings.maxMana change) :
    step duel (duel.updatePlayer player change)

/-- A relation that contains the changes that leave every entity where it is, other than deaths. -/
class Stirring (step : Duel → Duel → Prop) : Prop extends Revising step where
  announce (duel : Duel) {event : Event} (living : event.kind ≠ .death) :
    step duel (duel.announce event)
  remind (duel : Duel) {event : Event} (living : event.kind ≠ .death) :
    step duel (duel.addReaction (.announce event))

/-- A relation that contains what damage and healing do: hits, lost shields, healing, and the
reports of it. -/
class Harming (step : Duel → Duel → Prop) : Prop where
  hit (duel : Duel) (id : EntityId) (amount : Int) (poisonous freezing : Bool) :
    step duel (duel.updateEntity id fun entity => entity.takeHit amount poisonous freezing)
  loseShield (duel : Duel) (id : EntityId) : step duel (duel.updateEntity id Entity.loseShield)
  heal (duel : Duel) {id : EntityId} {entity : Entity} (amount : Int)
    (known : duel.entity? id = some entity) :
    step duel (duel.updateEntity id fun patient =>
      patient.addTag .damage (-entity.healable amount))
  report (duel : Duel) {event : Event}
    (told : event.kind = .heal ∨ event.kind = .takeDamage ∨ event.kind = .dealDamage) :
    step duel (duel.announce event)

instance (step : Duel → Duel → Prop) [Stirring step] : Harming step where
  hit duel id amount poisonous freezing := Revising.revise duel id (.hit amount poisonous freezing)
  loseShield duel id := Revising.revise duel id .loseShield
  heal := Revising.heal
  report duel event told := Stirring.announce duel fun death => by simp [death] at told

/-- A relation that contains the changes of the table.  A minion that comes onto the field may take
several of them, and so may a weapon that makes room for another one. -/
class Shifting (step : Duel → Duel → Prop) : Prop extends Placing step, Stirring step where
  arrive (duel : Duel) {id : EntityId} {entity : Entity} (placement : Placement)
    (known : duel.entity? id = some entity)
    (allowed : ¬ (entity.kind = .spell ∧ ZoneKind.play = .play))
    (room : usesSlot entity.kind .play = true ∨ entity.zone = .play ∨
      duel.zones.isFull entity.owner .play = false) :
    ReflTransGen step duel ((duel.relocate id entity .play placement).updateEntity id
      Entity.newcomer)
  handOver (duel : Duel) {id : EntityId} {entity : Entity} {owner : Player}
    (known : duel.entity? id = some entity) (other : entity.owner ≠ owner) :
    step duel ((duel.leaveZone id .unplaced).updateEntity id fun entity =>
      { entity with owner := owner })
  shuffle (duel : Duel) (player : Player) {zone : Zone} {shuffled : List EntityId}
    (container : duel.zones.get? player .deck = some zone)
    (reordered : shuffled.Perm zone.members) :
    step duel
      ({ duel with
        zones := duel.zones.set player .deck { zone with members := shuffled } }.renumber
          player .deck)
  outlive (duel : Duel) {id : EntityId} {entity : Entity} (player : Player)
    (known : duel.entity? id = some entity) :
    ReflTransGen step duel (duel.outlived player id entity)

/-- A relation that contains what allowed effects do.  It need not say anything of duels on whose
cards or agenda there is something else. -/
class Performing (step : Duel → Duel → Prop) (fits : outParam (Effect → Prop)) : Prop
    extends Shifting step where
  inherits : Effect.Hereditary fits
  assume (duel : Duel) : duel.Fits fits ∨ ∀ after, step duel after
  write (duel : Duel) (id : EntityId) {selector : Selector} {tag : Tag} {value : Int}
    (allowed : fits (.setTag selector tag value)) :
    step duel (duel.updateEntity id fun entity => entity.setTag tag value)
  award (duel : Duel) (player : Player) {tag : Tag} {value : Int}
    (allowed : fits (.setPlayerTag tag value)) :
    step duel (duel.updatePlayer player fun state => state.setTag tag value)
  lend (duel : Duel) (player : Player) {amount : Int} (allowed : fits (.gainTemporaryMana amount)) :
    step duel (duel.updatePlayer player fun state =>
      state.gainTemporaryMana duel.settings.maxMana amount)
  bury (duel : Duel) {id : EntityId} {entity : Entity} (known : duel.entity? id = some entity)
    (allowed : ∀ effect ∈ duel.lastWords entity, fits effect) :
    ReflTransGen step duel (duel.buried id entity)

theorem Performing.hereditary (step : Duel → Duel → Prop) [performing : Performing step fits] :
    Effect.Hereditary fits :=
  performing.inherits

/-- A relation that contains all that happens within a step, when allowed effects are on the
cards. -/
class Working (step : Duel → Duel → Prop) (fits : outParam (Effect → Prop)) : Prop
    extends Performing step fits where
  refresh (duel : Duel) (id : EntityId) (ready : duel.step = .mainReady) :
    step duel (duel.updateEntity id Entity.refresh)
  fire (duel : Duel) {id : TriggerId} {trigger : Trigger}
    (live : duel.triggers.get? id = some trigger) (once : trigger.rule.once = true) :
    step duel { duel with triggers := duel.triggers.unregister id }
  choose (duel : Duel) (player : Player) (choice : Option Choice) :
    step duel (duel.setChoice player choice)
  suspend (duel : Duel) {waiting : Option Resolution}
    (allowed : ∀ resolution, waiting = some resolution → resolution.Fits fits) :
    step duel { duel with suspended := waiting }
  schedule (duel : Duel) {works : List Work} (phases : ∀ work ∈ works, work.IsPhase fits) :
    step duel { duel with agenda := duel.agenda.addPhases works }
  begin (duel : Duel) {work : Work} {rest : Agenda}
    (next : duel.agenda.next? = some (work, rest)) : step duel { duel with agenda := rest }
  herald (duel : Duel) {event : Event} {rest : Agenda}
    (next : duel.agenda.next? = some (.announce event, rest)) :
    ReflTransGen step duel ({ duel with agenda := rest }.announce event)
  clear (duel : Duel) : step duel duel.clearAgenda
  finish (duel : Duel) (losers : List Player) : step duel (duel.finish losers)
  concede (duel : Duel) (player : Player) : step duel (duel.concede player)

/-- A relation that contains all that happens once a request is on record, when allowed effects are
on the cards. -/
class Directing (step : Duel → Duel → Prop) (fits : outParam (Effect → Prop)) : Prop
    extends Working step fits where
  enter (duel : Duel) (target : Step) : ReflTransGen step duel (duel.entering target)

/-- A relation that contains all that happens when allowed effects are on the cards.  Crystals that
are set from outside are an effect like any other. -/
class Requesting (step : Duel → Duel → Prop) (fits : outParam (Effect → Prop)) : Prop
    extends Directing step fits where
  record (duel : Duel) {player : Player} {action : Action}
    (accepted : duel.check player action = .ok ()) : step duel (Play.record player action duel)
  refill (duel : Duel) (player : Player) {total : Int}
    (allowed : fits (.setPlayerTag .crystals total)) :
    step duel (duel.updatePlayer player fun state => state.refillMana total)

/-- A relation that contains all that happens when allowed effects are on the cards, setting the
crystals among them. -/
class Changing (step : Duel → Duel → Prop) (fits : outParam (Effect → Prop)) : Prop
    extends Requesting step fits where
  sets : ∀ total, fits (.setPlayerTag .crystals total)

/-! ### Deaths step by step -/

section Deaths

variable {step : Duel → Duel → Prop} {duel : Duel} {id : EntityId} {entity : Entity}

theorem reaches_interred [Placing step] (known : duel.entity? id = some entity) :
    ReflTransGen step duel (duel.interred id entity) := by
  unfold interred
  split
  · exact .refl
  next stays =>
    exact .single (Placing.relocate duel .top known (fun both => nomatch both.2)
      (not_turnsAway_iff.mp stays))

theorem reaches_outlived [Placing step] (player : Player)
    (announces : ∀ (duel : Duel) event, step duel (duel.announce event))
    (known : duel.entity? id = some entity) :
    ReflTransGen step duel (duel.outlived player id entity) :=
  (reaches_interred known).tail (announces _ _)

theorem reaches_buried [Placing step]
    (announces : ∀ (duel : Duel) event, step duel (duel.announce event))
    (reacts : ∀ left : Duel, step left (left.addReaction (.run (duel.rattle id entity))))
    (known : duel.entity? id = some entity) : ReflTransGen step duel (duel.buried id entity) := by
  unfold buried mourned
  split
  · exact (reaches_interred known).tail (announces _ _)
  · exact ((reaches_interred known).tail (reacts _)).tail (announces _ _)

end Deaths

/-- The clock moves by setting the step, counting the turn and passing it on. -/
theorem reaches_entering_of {step : Duel → Duel → Prop} (duel : Duel) (target : Step)
    (enters : step duel { duel with step := target })
    (counts : step { duel with step := target } { duel with step := target, turn := duel.turn + 1 })
    (passes : ∀ player,
      step { duel with step := target } { duel with step := target, current := player }) :
    ReflTransGen step duel (duel.entering target) := by
  refine .head enters ?_
  cases target with
  | beginFirst => exact .single (passes duel.first)
  | mainReady => exact .single counts
  | mainNext => exact .single (passes duel.current.opponent)
  | _ => exact .refl

/-- A shift that schedules nothing. -/
def Quiet (before after : Duel) : Prop :=
  Shift before after ∧ after.agenda = before.agenda

instance : Placing Quiet where
  roll duel dice := ⟨.stir (.roll duel dice), rfl⟩
  relocate duel _ entity goal placement known allowed room :=
    ⟨.relocate duel placement known allowed room, agenda_relocate duel _ entity goal placement⟩
  create duel owner _ _ _ listed instantiable := ⟨.create duel owner listed instantiable, rfl⟩

instance : Placing Shift where
  roll duel dice := .stir (.roll duel dice)
  relocate := .relocate
  create := .create

instance : Performing Shift fun _ => True where
  revise duel id _ peaceful := .stir (.revise duel id peaceful.routine.revision)
  strike duel id _ _ := .stir (.revise duel id .strike)
  heal duel _ _ amount known := .stir (.heal duel amount known)
  silence duel id := .stir (.silence duel id)
  transform duel _ _ _ _ known listed kind := .stir (.transform duel known listed kind)
  auras duel := .stir (.auras duel)
  expire duel := .stir (.expire duel)
  fall duel fallen := .stir (.fall duel fallen)
  adjust duel player _ routine := .stir (.adjust duel player routine.1)
  announce duel event _ := .stir (.announce duel event)
  remind duel _ _ := .stir (.react duel _)
  arrive duel id _ placement known allowed room :=
    .tail (.single (.relocate duel placement known allowed room)) (.stir (.revise _ id .newcomer))
  handOver := .handOver
  shuffle := .shuffle
  outlive _ _ _ player known :=
    reaches_outlived player (fun duel event => .stir (.announce duel event)) known
  inherits := Effect.hereditary_true
  assume duel := .inl duel.fits_true
  write duel id _ tag value _ := .stir (.revise duel id (.write tag value))
  award duel player tag value _ := .stir (.adjust duel player (.write tag value))
  lend duel player amount _ := .stir (.adjust duel player (.temporary duel.settings.maxMana amount))
  bury _ _ _ known _ := reaches_buried (fun duel event => .stir (.announce duel event))
    (fun duel => .stir (.react duel _)) known

instance : Placing Change where
  roll duel dice := .shift (Rolling.roll duel dice)
  relocate duel _ _ _ placement known allowed room :=
    .shift (Placing.relocate duel placement known allowed room)
  create duel owner _ _ _ listed instantiable :=
    .shift (Placing.create duel owner listed instantiable)

instance : Changing Change fun _ => True where
  revise duel id _ peaceful := .shift (Revising.revise duel id peaceful)
  strike duel _ _ known := .shift (Revising.strike duel known)
  heal duel _ _ amount known := .shift (Revising.heal duel amount known)
  silence duel id := .shift (Revising.silence duel id)
  transform duel _ _ _ _ known listed kind := .shift (Revising.transform duel known listed kind)
  auras duel := .shift (Revising.auras duel)
  expire duel := .shift (Revising.expire duel)
  fall duel fallen := .shift (Revising.fall duel fallen)
  adjust duel player _ routine := .shift (Revising.adjust duel player routine)
  announce duel _ living := .shift (Stirring.announce duel living)
  remind duel _ living := .shift (Stirring.remind duel living)
  arrive duel _ _ placement known allowed room :=
    ReflTransGen.mono (fun _ _ => .shift) _ _ (Shifting.arrive duel placement known allowed room)
  handOver duel _ _ _ known other := .shift (Shifting.handOver duel known other)
  shuffle duel player _ _ container reordered :=
    .shift (Shifting.shuffle duel player container reordered)
  outlive _ _ _ player known :=
    reaches_outlived player (fun duel event => .shift (.stir (.announce duel event))) known
  inherits := Effect.hereditary_true
  assume duel := .inl duel.fits_true
  write duel id _ tag value _ := .shift (.stir (.revise duel id (.write tag value)))
  award duel player tag value _ := .shift (.stir (.adjust duel player (.write tag value)))
  lend duel player _ allowed := .shift (Performing.lend duel player allowed)
  bury _ _ _ known _ := reaches_buried (fun duel event => .shift (.stir (.announce duel event)))
    (fun duel => .shift (.stir (.react duel _))) known
  refresh duel id _ := .shift (.stir (.revise duel id .refresh))
  fire duel id _ _ _ := .shift (.stir (.unregister duel id))
  choose := .choose
  suspend duel waiting _ := .suspend duel waiting
  schedule duel works _ := .schedule duel works
  begin := .begin
  herald duel event _ next :=
    .head (.begin duel next) (.single (.shift (.stir (.announce _ event))))
  clear := .clear
  finish := .finish
  concede := .concede
  enter duel target :=
    reaches_entering_of duel target (.enter duel target) (.count _) fun player => .pass _ player
  record duel player action _ := .record duel player action
  refill duel player total _ := .shift (.stir (.adjust duel player (.refill total)))
  sets _ := trivial

end Duel

end CardDuel
