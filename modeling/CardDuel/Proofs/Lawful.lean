import CardDuel.Proofs.Listeners
import CardDuel.Proofs.Registration

/-!
# Lawful changes

When only allowed effects are on the cards, a match goes on by the changes listed here: each is
lawful in the sense that nothing comes up that is not allowed.  Every play follows them, so an
invariant of the matches that are played with such cards is checked once for each of them.
-/

namespace CardDuel

open Relation

/-! ## What is scheduled -/

variable {fits : Effect → Prop}

/-- The effect list that a piece of work runs. -/
def Work.run? : Work → Option Resolution
  | .run resolution => some resolution
  | .trigger .. | .announce _ | .bury _ => none

/-- Whether a piece of work neither runs effects of its own nor announces a death. -/
def Work.Murmurs (work : Work) : Prop :=
  work.run? = none ∧ work.tolls = false

theorem Work.fits_of_murmurs {work : Work} (murmurs : work.Murmurs) : work.Fits fits := by
  cases work with
  | run resolution => exact nomatch murmurs.1
  | _ => trivial

/-- Some scheduled work is taken, and new work is added: in front of the phases the effect lists
that a death owes and then what murmurs, and further phases behind them. -/
structure Agenda.Goes (fits : Effect → Prop) (before : Agenda) (owed : List Resolution)
    (after : Agenda) : Prop where
  reactions : ∃ kept murmurs, after.reactions = kept ++ owed.map .run ++ murmurs ∧
    kept <:+ before.reactions ∧ ∀ work ∈ murmurs, work.Murmurs
  phases : ∃ kept works, after.phases = kept ++ works ∧ kept <:+ before.phases ∧
    ∀ work ∈ works, work.IsPhase fits

namespace Agenda

variable {agenda before after rest : Agenda} {owed : List Resolution} {works : List Work}

theorem goes_self (agenda : Agenda) : agenda.Goes fits [] agenda where
  reactions := ⟨agenda.reactions, [], by simp, List.suffix_rfl, List.forall_mem_nil _⟩
  phases := ⟨agenda.phases, [], by simp, List.suffix_rfl, List.forall_mem_nil _⟩

theorem goes_empty (agenda : Agenda) : agenda.Goes fits [] empty where
  reactions := ⟨[], [], rfl, List.nil_suffix, List.forall_mem_nil _⟩
  phases := ⟨[], [], rfl, List.nil_suffix, List.forall_mem_nil _⟩

theorem goes_next {work : Work} (next : agenda.next? = some (work, rest)) :
    agenda.Goes fits [] rest := by
  obtain ⟨phases, reactions⟩ := agenda
  cases reactions with
  | cons first reactions =>
      cases next
      exact ⟨⟨reactions, [], by simp, List.suffix_cons work reactions, List.forall_mem_nil _⟩,
        ⟨phases, [], by simp, List.suffix_rfl, List.forall_mem_nil _⟩⟩
  | nil =>
      cases phases with
      | nil => cases next
      | cons first phases =>
          cases next
          exact ⟨⟨[], [], rfl, List.nil_suffix, List.forall_mem_nil _⟩,
            ⟨phases, [], by simp, List.suffix_cons work phases, List.forall_mem_nil _⟩⟩

theorem goes_addPhases (agenda : Agenda) (phases : ∀ work ∈ works, work.IsPhase fits) :
    agenda.Goes fits [] (agenda.addPhases works) where
  reactions := ⟨agenda.reactions, [], by simp [addPhases], List.suffix_rfl, List.forall_mem_nil _⟩
  phases := ⟨agenda.phases, works, rfl, List.suffix_rfl, phases⟩

theorem goes_addReaction (agenda : Agenda) (resolution : Resolution) :
    agenda.Goes fits [resolution] (agenda.addReaction (.run resolution)) where
  reactions := ⟨agenda.reactions, [], by simp [addReaction], List.suffix_rfl, List.forall_mem_nil _⟩
  phases := ⟨agenda.phases, [], by simp [addReaction], List.suffix_rfl, List.forall_mem_nil _⟩

theorem Goes.murmur (goes : before.Goes fits owed after)
    (murmurs : ∀ work ∈ works, work.Murmurs) :
    before.Goes fits owed (after.addReactions works) where
  reactions := by
    obtain ⟨kept, others, same, suffix, plain⟩ := goes.reactions
    refine ⟨kept, others ++ works, ?_, suffix, ?_⟩
    · rw [addReactions, same, List.append_assoc _ others]
    · exact fun work member => (List.mem_append.mp member).elim (plain work) (murmurs work)
  phases := goes.phases

/-- Whatever holds of what was scheduled and of all that may be added holds of all that is
scheduled. -/
theorem Goes.forall {holds : Work → Prop} (goes : before.Goes fits owed after)
    (old : ∀ work ∈ before.toList, holds work) (murmurs : ∀ work : Work, work.Murmurs → holds work)
    (phases : ∀ work : Work, work.IsPhase fits → holds work)
    (runs : ∀ resolution ∈ owed, holds (.run resolution)) : ∀ work ∈ after.toList, holds work := by
  obtain ⟨kept, added, reactions, suffix, plain⟩ := goes.reactions
  obtain ⟨left, works, later, rest, phased⟩ := goes.phases
  intro work member
  rw [toList, reactions, later] at member
  simp only [List.mem_append, List.mem_map] at member
  rcases member with ((early | ⟨resolution, owes, rfl⟩) | new) | late | new
  · exact old work (List.mem_append_left _ (suffix.mem early))
  · exact runs resolution owes
  · exact murmurs work (plain work new)
  · exact old work (List.mem_append_right _ (rest.mem late))
  · exact phases work (phased work new)

end Agenda

/-- How an entity dies. -/
inductive Demise
  /-- It is dead and gets buried. -/
  | burial (id : EntityId) (entity : Entity)
  /-- It is the weapon of a player and makes room for another one. -/
  | replacement (player : Player) (id : EntityId) (entity : Entity)

/-- The effect lists that a death queues in a duel: a burial queues the deathrattle. -/
def Demise.rattles (duel : Duel) : Demise → List Resolution
  | .burial id entity =>
    if (duel.lastWords entity).isEmpty then [] else [duel.rattle id entity]
  | .replacement .. => []

namespace Duel

/-- Whether all scheduled work has a property. -/
def Schedules (holds : Work → Prop) (duel : Duel) : Prop :=
  ∀ work ∈ duel.agenda.toList, holds work

/-- Table and triggers agree, nothing is around but allowed effects, and no announcement of a death
is scheduled. -/
structure Tidy (fits : Effect → Prop) (duel : Duel) : Prop where
  attentive : duel.Attentive
  allowed : duel.Fits fits
  solemn : duel.Schedules fun work => work.tolls = false

/-- The changes of a tidy duel, each with the death that comes of it.  Of other duels nothing is
said. -/
inductive Law (fits : Effect → Prop) : Duel → Option Demise → Duel → Prop
  | unruly {before : Duel} (after : Duel) (untidy : ¬ before.Tidy fits) :
      Law fits before none after
  | roll (duel : Duel) (dice : Dice) : Law fits duel none { duel with dice := dice }
  | relocate (duel : Duel) {id : EntityId} {entity : Entity} {goal : ZoneKind}
      (placement : Placement) (known : duel.entity? id = some entity)
      (allowed : ¬ (entity.kind = .spell ∧ goal = .play))
      (room : usesSlot entity.kind goal = true ∨ entity.zone = goal ∨
        duel.zones.isFull entity.owner goal = false) :
      Law fits duel none (duel.relocate id entity goal placement)
  | create (duel : Duel) (owner : Player) {id : CardId} {card : Card} {kind : EntityKind}
      (listed : duel.catalogue.card? id = some card)
      (instantiable : EntityKind.ofCardType? card.cardType = some kind) :
      Law fits duel none { duel with arena := duel.arena.push (Entity.fresh owner card kind) }
  | handOver (duel : Duel) {id : EntityId} {entity : Entity} {owner : Player}
      (known : duel.entity? id = some entity) (other : entity.owner ≠ owner) :
      Law fits duel none ((duel.leaveZone id .unplaced).updateEntity id fun entity =>
        { entity with owner := owner })
  | shuffle (duel : Duel) (player : Player) {zone : Zone} {shuffled : List EntityId}
      (container : duel.zones.get? player .deck = some zone)
      (reordered : shuffled.Perm zone.members) :
      Law fits duel none
        ({ duel with
          zones := duel.zones.set player .deck { zone with members := shuffled } }.renumber
            player .deck)
  | outlive (duel : Duel) {id : EntityId} {entity : Entity} (player : Player)
      (known : duel.entity? id = some entity) :
      Law fits duel (some (.replacement player id entity)) (duel.outlived player id entity)
  | revise (duel : Duel) (id : EntityId) {change : Entity → Entity}
      (routine : Entity.Routine change) : Law fits duel none (duel.updateEntity id change)
  | heal (duel : Duel) {id : EntityId} {entity : Entity} (amount : Int)
      (known : duel.entity? id = some entity) :
      Law fits duel none (duel.updateEntity id fun patient =>
        patient.addTag .damage (-entity.healable amount))
  | silence (duel : Duel) (id : EntityId) :
      Law fits duel none ((duel.updateEntity id Entity.silence).dropTriggers id)
  | transform (duel : Duel) {id : EntityId} {entity : Entity} {form : CardId} {card : Card}
      (known : duel.entity? id = some entity) (listed : duel.catalogue.card? form = some card)
      (kind : EntityKind.ofCardType? card.cardType = some entity.kind) :
      Law fits duel none (((duel.dropTriggers id).updateEntity id fun entity =>
        entity.replacedBy card).startTriggers id entity.zone)
  | auras (duel : Duel) : Law fits duel none duel.updateAuras
  | expire (duel : Duel) : Law fits duel none duel.expireEnchantments
  | fall (duel : Duel) (fallen : List (EntityId × Nat)) :
      Law fits duel none (duel.markFallen fallen)
  | adjust (duel : Duel) (player : Player) {change : PlayerState → PlayerState}
      (routine : PlayerState.Routine duel.settings.maxMana change) :
      Law fits duel none (duel.updatePlayer player change)
  | announce (duel : Duel) {event : Event} (living : event.kind ≠ .death) :
      Law fits duel none (duel.announce event)
  | remind (duel : Duel) {event : Event} (living : event.kind ≠ .death) :
      Law fits duel none (duel.addReaction (.announce event))
  | write (duel : Duel) (id : EntityId) {selector : Selector} {tag : Tag} {value : Int}
      (allowed : fits (.setTag selector tag value)) :
      Law fits duel none (duel.updateEntity id fun entity => entity.setTag tag value)
  | award (duel : Duel) (player : Player) {tag : Tag} {value : Int}
      (allowed : fits (.setPlayerTag tag value)) :
      Law fits duel none (duel.updatePlayer player fun state => state.setTag tag value)
  | lend (duel : Duel) (player : Player) {amount : Int}
      (allowed : fits (.gainTemporaryMana amount)) :
      Law fits duel none (duel.updatePlayer player fun state =>
        state.gainTemporaryMana duel.settings.maxMana amount)
  | bury (duel : Duel) {id : EntityId} {entity : Entity} (known : duel.entity? id = some entity)
      (allowed : ∀ effect ∈ duel.lastWords entity, fits effect) :
      Law fits duel (some (.burial id entity)) (duel.buried id entity)
  | fire (duel : Duel) {id : TriggerId} {trigger : Trigger}
      (live : duel.triggers.get? id = some trigger) (once : trigger.rule.once = true) :
      Law fits duel none { duel with triggers := duel.triggers.unregister id }
  | choose (duel : Duel) (player : Player) (choice : Option Choice) :
      Law fits duel none (duel.setChoice player choice)
  | suspend (duel : Duel) {waiting : Option Resolution}
      (allowed : ∀ resolution, waiting = some resolution → resolution.Fits fits) :
      Law fits duel none { duel with suspended := waiting }
  | schedule (duel : Duel) {works : List Work} (phases : ∀ work ∈ works, work.IsPhase fits) :
      Law fits duel none { duel with agenda := duel.agenda.addPhases works }
  | begin (duel : Duel) {work : Work} {rest : Agenda}
      (next : duel.agenda.next? = some (work, rest)) :
      Law fits duel none { duel with agenda := rest }
  | herald (duel : Duel) {event : Event} {rest : Agenda}
      (next : duel.agenda.next? = some (.announce event, rest)) (living : event.kind ≠ .death) :
      Law fits duel none ({ duel with agenda := rest }.announce event)
  | clear (duel : Duel) : Law fits duel none duel.clearAgenda
  | finish (duel : Duel) (losers : List Player) : Law fits duel none (duel.finish losers)
  | concede (duel : Duel) (player : Player) : Law fits duel none (duel.concede player)
  | enter (duel : Duel) (reached : Step) : Law fits duel none { duel with step := reached }
  | count (duel : Duel) : Law fits duel none { duel with turn := duel.turn + 1 }
  | pass (duel : Duel) (player : Player) : Law fits duel none { duel with current := player }
  | record (duel : Duel) (player : Player) (action : Action) :
      Law fits duel none (Play.record player action duel)
  | refill (duel : Duel) (player : Player) {total : Int}
      (allowed : fits (.setPlayerTag .crystals total)) :
      Law fits duel none (duel.updatePlayer player fun state => state.refillMana total)

/-- Some change that is listed. -/
def Lawful (fits : Effect → Prop) (before after : Duel) : Prop :=
  ∃ demise, Law fits before demise after

instance (fits : Effect → Prop) : Placing (Lawful fits) where
  roll duel dice := ⟨none, .roll duel dice⟩
  relocate duel _ _ _ placement known allowed room :=
    ⟨none, .relocate duel placement known allowed room⟩
  create duel owner _ _ _ listed instantiable := ⟨none, .create duel owner listed instantiable⟩

instance (fits : Effect → Prop) [hereditary : Effect.Hereditary fits] :
    Requesting (Lawful fits) fits where
  arrive duel id _ placement known allowed room :=
    .tail (.single ⟨none, .relocate duel placement known allowed room⟩)
      ⟨none, .revise _ id .newcomer⟩
  handOver duel _ _ _ known other := ⟨none, .handOver duel known other⟩
  shuffle duel player _ _ container reordered := ⟨none, .shuffle duel player container reordered⟩
  outlive duel _ _ player known := .single ⟨_, .outlive duel player known⟩
  revise duel id _ peaceful := ⟨none, .revise duel id peaceful.routine⟩
  strike duel id _ _ := ⟨none, .revise duel id .strike⟩
  heal duel _ _ amount known := ⟨none, .heal duel amount known⟩
  silence duel id := ⟨none, .silence duel id⟩
  transform duel _ _ _ _ known listed kind := ⟨none, .transform duel known listed kind⟩
  auras duel := ⟨none, .auras duel⟩
  expire duel := ⟨none, .expire duel⟩
  fall duel fallen := ⟨none, .fall duel fallen⟩
  adjust duel player _ routine := ⟨none, .adjust duel player routine⟩
  announce duel _ living := ⟨none, .announce duel living⟩
  remind duel _ living := ⟨none, .remind duel living⟩
  inherits := hereditary
  assume duel := by
    by_cases tidy : duel.Tidy fits
    · exact .inl tidy.allowed
    · exact .inr fun after => ⟨none, .unruly after tidy⟩
  write duel id _ _ _ allowed := ⟨none, .write duel id allowed⟩
  award duel player _ _ allowed := ⟨none, .award duel player allowed⟩
  lend duel player _ allowed := ⟨none, .lend duel player allowed⟩
  bury duel _ _ known allowed := .single ⟨_, .bury duel known allowed⟩
  refresh duel id _ := ⟨none, .revise duel id .refresh⟩
  fire duel _ _ live once := ⟨none, .fire duel live once⟩
  choose duel player choice := ⟨none, .choose duel player choice⟩
  suspend duel _ allowed := ⟨none, .suspend duel allowed⟩
  schedule duel _ phases := ⟨none, .schedule duel phases⟩
  begin duel _ _ next := ⟨none, .begin duel next⟩
  herald duel event _ next := by
    apply ReflTransGen.single
    by_cases tidy : duel.Tidy fits
    · have living : event.kind ≠ .death := of_decide_eq_false (tidy.solemn (.announce event)
        (Agenda.toList_of_next next ▸ List.mem_cons_self))
      exact ⟨none, .herald duel next living⟩
    · exact ⟨none, .unruly _ tidy⟩
  clear duel := ⟨none, .clear duel⟩
  finish duel losers := ⟨none, .finish duel losers⟩
  concede duel player := ⟨none, .concede duel player⟩
  enter duel target := reaches_entering_of duel target ⟨none, .enter duel target⟩
    ⟨none, .count _⟩ fun player => ⟨none, .pass _ player⟩
  record duel player action _ := ⟨none, .record duel player action⟩
  refill duel player _ allowed := ⟨none, .refill duel player allowed⟩

instance : Changing (Lawful fun _ => True) fun _ => True where
  sets _ := trivial

variable {duel before after : Duel} {id : EntityId} {entity : Entity}

/-- Lawful changes are changes. -/
theorem Lawful.changes (lawful : Lawful fits before after) (tidy : before.Tidy fits) :
    ReflTransGen Change before after := by
  have stirs {after : Duel} (stir : Stir before after) : ReflTransGen Change before after :=
    .single (.shift (.stir stir))
  obtain ⟨demise, law⟩ := lawful
  cases law with
  | unruly after untidy => exact absurd tidy untidy
  | roll dice => exact stirs (.roll before dice)
  | relocate placement known allowed room =>
      exact .single (.shift (.relocate before placement known allowed room))
  | create owner listed instantiable =>
      exact .single (.shift (.create before owner listed instantiable))
  | handOver known other => exact .single (.shift (.handOver before known other))
  | shuffle player container reordered =>
      exact .single (.shift (.shuffle before player container reordered))
  | outlive player known => exact Shifting.outlive before player known
  | revise id routine => exact stirs (.revise before id routine.revision)
  | heal amount known => exact stirs (.heal before amount known)
  | silence id => exact stirs (.silence before id)
  | transform known listed kind => exact stirs (.transform before known listed kind)
  | auras => exact stirs (.auras before)
  | expire => exact stirs (.expire before)
  | fall fallen => exact stirs (.fall before fallen)
  | adjust player routine => exact stirs (.adjust before player routine.1)
  | announce living => exact stirs (.announce before _)
  | remind living => exact stirs (.react before _)
  | write id allowed => exact stirs (.revise before id (.write _ _))
  | award player allowed => exact stirs (.adjust before player (.write _ _))
  | lend player allowed => exact stirs (.adjust before player (.temporary _ _))
  | bury known allowed => exact Performing.bury before known fun _ _ => trivial
  | fire live once => exact stirs (.unregister before _)
  | choose player choice => exact .single (.choose before player choice)
  | suspend allowed => exact .single (.suspend before _)
  | schedule phases => exact .single (.schedule before _)
  | begin next => exact .single (.begin before next)
  | herald next living => exact Working.herald before next
  | clear => exact .single (.clear before)
  | finish losers => exact .single (.finish before losers)
  | concede player => exact .single (.concede before player)
  | enter reached => exact .single (.enter before reached)
  | count => exact .single (.count before)
  | pass player => exact .single (.pass before player)
  | record player action => exact .single (.record before player action)
  | refill player allowed => exact stirs (.adjust before player (.refill _))

theorem Change.attentive_of_reaches (reaches : ReflTransGen Change before after)
    (attentive : before.Attentive) : after.Attentive := by
  induction reaches with
  | refl => exact attentive
  | tail _ last ih => exact last.attentive ih

/-! ## What a lawful change schedules -/

theorem murmurs_alert (alerts : List Trigger) (event : Event) :
    ∀ work ∈ alerts.map fun trigger => Work.trigger trigger.id event, work.Murmurs := by
  intro work member
  obtain ⟨trigger, -, rfl⟩ := List.mem_map.mp member
  exact ⟨rfl, rfl⟩

theorem agenda_startTriggers (duel : Duel) (id : EntityId) (zone : ZoneKind) :
    (duel.startTriggers id zone).agenda = duel.agenda := by
  obtain ⟨triggers, started⟩ := startTriggers_eq duel id zone
  rw [started]

theorem agenda_interred (duel : Duel) (id : EntityId) (entity : Entity) :
    (duel.interred id entity).agenda = duel.agenda := by
  unfold interred
  split
  · rfl
  · exact agenda_relocate duel id entity .graveyard .top

theorem goes_announce (before : Agenda) {owed : List Resolution} {middle : Duel}
    (goes : before.Goes fits owed middle.agenda) (event : Event) :
    before.Goes fits owed (middle.announce event).agenda :=
  goes.murmur (murmurs_alert (middle.reactionsTo event) event)

theorem goes_buried (duel : Duel) (id : EntityId) (entity : Entity) :
    duel.agenda.Goes fits ((Demise.burial id entity).rattles duel)
      (duel.buried id entity).agenda := by
  unfold buried mourned
  apply goes_announce
  rw [Demise.rattles]
  split
  · rw [agenda_interred]
    exact duel.agenda.goes_self
  · rw [addReaction, agenda_interred]
    exact duel.agenda.goes_addReaction _

/-- What a lawful change does to the agenda: nothing but a death owes effects. -/
theorem Law.goes {demise : Option Demise} (law : Law fits before demise after)
    (tidy : before.Tidy fits) :
    before.agenda.Goes fits (demise.toList.flatMap (Demise.rattles before)) after.agenda := by
  have same (agenda : after.agenda = before.agenda) : before.agenda.Goes fits [] after.agenda := by
    rw [agenda]
    exact before.agenda.goes_self
  cases law with
  | unruly after untidy => exact absurd tidy untidy
  | @relocate id entity goal placement known _ _ =>
      exact same (agenda_relocate before id entity goal placement)
  | @handOver id _ _ known other => exact same (agenda_leaveZone before id .unplaced)
  | @transform id entity _ _ known listed kind => exact same (agenda_startTriggers _ id entity.zone)
  | @outlive id entity player known =>
      apply goes_announce
      rw [agenda_interred]
      exact before.agenda.goes_self
  | announce living => exact goes_announce before.agenda before.agenda.goes_self _
  | @remind event living =>
      exact before.agenda.goes_self.murmur
        (List.forall_mem_singleton.mpr ⟨rfl, decide_eq_false living⟩)
  | @bury id entity known _ =>
      rw [Option.toList_some, List.flatMap_singleton]
      exact before.goes_buried id entity
  | schedule phases => exact before.agenda.goes_addPhases phases
  | begin next => exact Agenda.goes_next next
  | herald next living => exact goes_announce before.agenda (Agenda.goes_next next) _
  | clear => exact before.agenda.goes_empty
  | finish losers => exact before.agenda.goes_empty
  | concede player => exact before.agenda.goes_empty
  | _ => exact same rfl

/-! ## What stays allowed -/

/-- A trigger that starts has its rule from a card. -/
theorem Fits.restarts (allowed : before.Fits fits) (kept : before.triggers.WellKept)
    (restarts : Restarts before after id) :
    ∀ trigger ∈ after.triggers.active, ∀ effect ∈ trigger.rule.effects, fits effect := by
  intro trigger live
  have others (old : trigger ∈ (before.triggers.dropOwner id).active) :
      ∀ effect ∈ trigger.rule.effects, fits effect := by
    rw [kept.active_dropOwner] at old
    exact allowed.booked trigger (List.mem_of_mem_filter old)
  rcases restarts.triggers with ⟨dropped, -⟩ | ⟨calling, rule, -, listed, -, registered⟩
  · rw [dropped] at live
    exact others live
  · rw [registered] at live
    rcases List.mem_append.mp live with old | new
    · exact others old
    · rw [List.mem_singleton.mp new]
      rw [ruleOf, restarts.catalogue] at listed
      have behaves :
          ((before.catalogue.behaviour? calling.card).getD Behaviour.none).Fits fits := by
        cases found : before.catalogue.behaviour? calling.card with
        | none => exact Behaviour.fits_none
        | some behaviour => exact allowed.listed calling.card behaviour found
      exact behaves.trigger rule listed

theorem Tidy.booked_interred (tidy : duel.Tidy fits) (known : duel.entity? id = some entity) :
    ∀ trigger ∈ (duel.interred id entity).triggers.active,
      ∀ effect ∈ trigger.rule.effects, fits effect := by
  unfold interred
  split
  · exact tidy.allowed.booked
  next stays =>
    obtain ⟨placed, listening⟩ := tidy.attentive
    exact tidy.allowed.restarts listening.kept
      (restarts_relocate .top placed listening known (not_turnsAway_iff.mp stays))

theorem Law.booked {demise : Option Demise} (law : Law fits before demise after)
    (tidy : before.Tidy fits) :
    ∀ trigger ∈ after.triggers.active, ∀ effect ∈ trigger.rule.effects, fits effect := by
  obtain ⟨placed, listening⟩ := tidy.attentive
  cases law with
  | unruly after untidy => exact absurd tidy untidy
  | relocate placement known _ room =>
      exact tidy.allowed.restarts listening.kept
        (restarts_relocate placement placed listening known room)
  | @handOver _ _ owner known other =>
      exact tidy.allowed.restarts listening.kept (restarts_handOver owner placed listening known)
  | outlive player known => exact tidy.booked_interred known
  | silence id => exact tidy.allowed.restarts listening.kept (restarts_silence before id)
  | transform known listed kind =>
      exact tidy.allowed.restarts listening.kept (restarts_transform known)
  | bury known _ =>
      have interred := tidy.booked_interred known
      unfold buried mourned
      split <;> exact interred
  | @fire id _ _ _ =>
      intro trigger live
      change trigger ∈ (before.triggers.unregister id).active at live
      rw [TriggerBook.active_unregister] at live
      exact tidy.allowed.booked trigger (List.mem_of_mem_filter live)
  | _ => exact tidy.allowed.booked

theorem suspended_startTriggers (duel : Duel) (id : EntityId) (zone : ZoneKind) :
    (duel.startTriggers id zone).suspended = duel.suspended := by
  obtain ⟨triggers, started⟩ := startTriggers_eq duel id zone
  rw [started]

theorem suspended_interred (duel : Duel) (id : EntityId) (entity : Entity) :
    (duel.interred id entity).suspended = duel.suspended := by
  unfold interred
  split
  · rfl
  · exact congrArg Control.suspended (control_relocate duel id entity .graveyard .top)

theorem Law.waiting {demise : Option Demise} (law : Law fits before demise after)
    (tidy : before.Tidy fits) :
    ∀ resolution, after.suspended = some resolution → resolution.Fits fits := by
  have same (kept : after.suspended = before.suspended) :
      ∀ resolution, after.suspended = some resolution → resolution.Fits fits :=
    kept ▸ tidy.allowed.waiting
  cases law with
  | unruly after untidy => exact absurd tidy untidy
  | @relocate id entity goal placement known _ _ =>
      exact same (congrArg Control.suspended (control_relocate before id entity goal placement))
  | @handOver id _ _ known other =>
      exact same (congrArg Control.suspended (control_leaveZone before id .unplaced))
  | @outlive id entity player known => exact same (suspended_interred before id entity)
  | @transform id entity _ _ known listed kind =>
      exact same (suspended_startTriggers _ id entity.zone)
  | @bury id entity known _ =>
      refine same (Eq.trans ?_ (suspended_interred before id entity))
      unfold buried mourned
      split <;> rfl
  | suspend allowed => exact allowed
  | finish losers => exact fun _ => nofun
  | concede player => exact fun _ => nofun
  | _ => exact same rfl

theorem Law.rattles_fit {demise : Option Demise} (law : Law fits before demise after) :
    ∀ resolution ∈ demise.toList.flatMap (Demise.rattles before), resolution.Fits fits := by
  cases law with
  | @bury id entity known words =>
      intro resolution owed
      rw [Option.toList_some, List.flatMap_singleton, Demise.rattles] at owed
      split at owed
      · cases owed
      · rw [List.mem_singleton.mp owed]
        exact Resolution.fits_ofEffects words
  | _ => exact List.forall_mem_nil _

/-- After a lawful change a tidy duel is tidy. -/
theorem Lawful.tidy (lawful : Lawful fits before after) (tidy : before.Tidy fits) :
    after.Tidy fits := by
  have reaches := lawful.changes tidy
  obtain ⟨demise, law⟩ := lawful
  have goes := law.goes tidy
  refine ⟨Change.attentive_of_reaches reaches tidy.attentive,
    ⟨?_, law.booked tidy, ?_, law.waiting tidy⟩, ?_⟩
  · rw [(Change.fixed_of_reaches reaches).2]
    exact tidy.allowed.listed
  · exact goes.forall tidy.allowed.scheduled (fun _ => Work.fits_of_murmurs)
      (fun _ phase => phase.1) law.rattles_fit
  · exact goes.forall tidy.solemn (fun _ murmurs => murmurs.2) (fun _ phase => phase.2.2)
      fun _ _ => rfl

theorem bare_tidy {settings : Settings} {catalogue : Catalogue}
    (begun : Duel.bare settings catalogue = .ok duel)
    (spared : ∀ entry ∈ catalogue.entries, entry.behaviour.Fits fits) : duel.Tidy fits := by
  refine ⟨bare_attentive begun, ?_, ?_⟩ <;> obtain ⟨first, dice, zero, one, rfl⟩ := bare_eq begun
  · refine ⟨fun card behaviour listed => ?_, fun _ => nofun, fun _ => nofun, fun _ => nofun⟩
    obtain ⟨card, member⟩ := Catalogue.mem_entries_of_behaviour? listed
    exact spared _ member
  · exact fun _ => nofun

/-! ## Invariants of lawful matches -/

/-- What a lawful change keeps holds along every lawful run. -/
theorem Lawful.along (holds : Duel → Prop) (steps : ReflTransGen (Lawful fits) before after)
    (tidy : before.Tidy fits) (now : holds before)
    (keeps : ∀ {before after : Duel}, before.Tidy fits → holds before →
      Lawful fits before after → holds after) : after.Tidy fits ∧ holds after := by
  induction steps with
  | refl => exact ⟨tidy, now⟩
  | tail _ last ih =>
      obtain ⟨tidy, now⟩ := ih
      exact ⟨last.tidy tidy, keeps tidy now last⟩

/-- What holds of a bare duel and is kept by lawful changes holds whatever is called. -/
theorem along_afterCalls (holds : Duel → Prop) [Effect.Hereditary fits] {settings : Settings}
    {catalogue : Catalogue} (created : Duel.create settings catalogue = .ok duel) (allowance : Nat)
    {calls : List Call} (spared : ∀ entry ∈ catalogue.entries, entry.behaviour.Fits fits)
    (allowed : ∀ call ∈ calls, call.Fits fits)
    (initially : ∀ bare, Duel.bare settings catalogue = .ok bare → holds bare)
    (keeps : ∀ {before after : Duel}, before.Tidy fits → holds before →
      Lawful fits before after → holds after) : holds (duel.afterCalls allowance calls) := by
  obtain ⟨bare, begun, placed⟩ : ∃ bare, Duel.bare settings catalogue = .ok bare ∧
      ReflTransGen (Lawful fits) bare duel := exists_bare created
  have steps := placed.trans (duel.steps_afterCalls_of_fits allowance allowed)
  exact (Lawful.along holds steps (bare_tidy begun spared) (initially bare begun) keeps).2

end Duel

end CardDuel
