import CardDuel.Proofs.Firings
import CardDuel.Proofs.Rounds

/-!
# Triggers that wait for their turn

A trigger that reacts to an event waits on the agenda while other work goes first, and until
it is taken its owner may have died, moved, changed sides or been silenced.  Its handle tells:
handles are given out once, and a live one stands for the registration that reacted.  So what
is taken either fires for that registration or lapses.
-/

namespace CardDuel

open Relation

/-- The triggers that wait, with the events that they react to. -/
def Agenda.alerts (agenda : Agenda) : List (TriggerId × Event) :=
  agenda.toList.filterMap Work.alert?

theorem Agenda.mem_alerts {agenda : Agenda} {alert : TriggerId × Event} :
    alert ∈ agenda.alerts ↔ ∃ work ∈ agenda.toList, work.alert? = some alert :=
  List.mem_filterMap

namespace Duel

/-! ## Runs with their past -/

/-- A change, and the event if it announces one.  Nothing else makes a trigger wait. -/
inductive Beats : Duel → Option Event → Duel → Prop
  | announce (duel : Duel) (event : Event) : Beats duel (some event) (duel.announce event)
  | keep {before after : Duel} (change : Change before after)
      (fewer : ∀ alert ∈ after.agenda.alerts, alert ∈ before.agenda.alerts) :
      Beats before none after

def Beat (before after : Duel) : Prop :=
  ∃ note, Beats before note after

/-- The duels that a run has gone through, the newest first, each with the event that was announced
in it. -/
abbrev Past := List (Duel × Option Event)

/-- A run from a duel to another one. -/
inductive Trace (start : Duel) : Past → Duel → Prop
  | start : Trace start [] start
  | beat {past : Past} {note : Option Event} {before after : Duel}
      (trace : Trace start past before) (beats : Beats before note after) :
      Trace start ((before, note) :: past) after

variable {duel start before after middle asked : Duel} {past earlier later onward : Past}
variable {note : Option Event} {event : Event} {id : TriggerId} {trigger : Trigger}

theorem Beats.change (beats : Beats before note after) : Change before after := by
  cases beats with
  | announce event => exact .shift (.stir (.announce before event))
  | keep change fewer => exact change

theorem Trace.trans (first : Trace start past middle) (second : Trace middle onward after) :
    Trace start (onward ++ past) after := by
  induction second with
  | start => exact first
  | beat _ beats ih => exact ih.beat beats

theorem exists_trace (reaches : ReflTransGen Beat before after) : ∃ past, Trace before past after := by
  induction reaches with
  | refl => exact ⟨[], .start⟩
  | tail _ last ih =>
      obtain ⟨past, trace⟩ := ih
      obtain ⟨note, beats⟩ := last
      exact ⟨_, trace.beat beats⟩

/-- A run comes through each duel of its past. -/
theorem Trace.parted (trace : Trace start (later ++ (asked, note) :: earlier) after) :
    Trace start earlier asked ∧ ∃ next, Beats asked note next ∧ Trace next later after := by
  induction later generalizing after with
  | nil =>
      cases trace with
      | beat trace beats => exact ⟨trace, after, beats, .start⟩
  | cons entry later ih =>
      cases trace with
      | beat trace beats =>
          obtain ⟨comes, next, asks, further⟩ := ih trace
          exact ⟨comes, next, asks, further.beat beats⟩

/-! ### Every play is such a run -/

theorem Beat.quiet (change : Change before after)
    (works : ∀ work ∈ after.agenda.toList, work ∈ before.agenda.toList ∨ work.alert? = none) :
    Beat before after := by
  refine ⟨none, .keep change fun alert waits => ?_⟩
  obtain ⟨work, scheduled, alerts⟩ := Agenda.mem_alerts.mp waits
  rcases works work scheduled with old | plain
  · exact Agenda.mem_alerts.mpr ⟨work, old, alerts⟩
  · cases plain.symm.trans alerts

theorem Beat.same (change : Change before after) (agenda : after.agenda = before.agenda) :
    Beat before after :=
  .quiet change fun _ scheduled => .inl (agenda ▸ scheduled)

theorem Beat.remind {work : Work} (plain : work.alert? = none) :
    Beat duel (duel.addReaction work) := by
  refine .quiet (.shift (.stir (.react duel work))) fun other scheduled => ?_
  refine (Agenda.mem_toList_addReactions.mp scheduled).imp_right fun new => ?_
  exact List.mem_singleton.mp new ▸ plain

instance : Placing Beat where
  roll duel dice := .same (.shift (Rolling.roll duel dice)) rfl
  relocate duel id entity goal placement known allowed room :=
    .same (.shift (Placing.relocate duel placement known allowed room))
      (agenda_relocate duel id entity goal placement)
  create duel owner _ _ _ listed instantiable :=
    .same (.shift (Placing.create duel owner listed instantiable)) rfl

theorem Beat.announce (duel : Duel) (event : Event) : Beat duel (duel.announce event) :=
  ⟨some event, .announce duel event⟩

theorem Beat.begin {work : Work} {rest : Agenda} (next : duel.agenda.next? = some (work, rest)) :
    Beat duel { duel with agenda := rest } :=
  .quiet (.begin duel next) fun _ left =>
    .inl (Agenda.toList_of_next next ▸ List.mem_cons_of_mem work left)

instance : Changing Beat fun _ => True where
  revise duel id _ peaceful := .same (.shift (Revising.revise duel id peaceful)) rfl
  strike duel _ _ known := .same (.shift (Revising.strike duel known)) rfl
  heal duel _ _ amount known := .same (.shift (Revising.heal duel amount known)) rfl
  silence duel id := .same (.shift (Revising.silence duel id)) rfl
  transform duel id entity _ _ known listed kind :=
    .same (.shift (Revising.transform duel known listed kind))
      (agenda_startTriggers _ id entity.zone)
  auras duel := .same (.shift (Revising.auras duel)) rfl
  expire duel := .same (.shift (Revising.expire duel)) rfl
  fall duel fallen := .same (.shift (Revising.fall duel fallen)) rfl
  adjust duel player _ routine := .same (.shift (Revising.adjust duel player routine)) rfl
  announce duel event _ := .announce duel event
  remind _ _ _ := .remind rfl
  arrive duel id entity placement known allowed room :=
    .tail (.single (Placing.relocate duel placement known allowed room))
      (.same (.shift (.stir (.revise _ id .newcomer))) rfl)
  handOver duel id _ _ known other :=
    .same (.shift (Shifting.handOver duel known other)) (agenda_leaveZone duel id .unplaced)
  shuffle duel player _ _ container reordered :=
    .same (.shift (Shifting.shuffle duel player container reordered)) rfl
  outlive _ _ _ player known := reaches_outlived player .announce known
  inherits := Effect.hereditary_true
  assume duel := .inl duel.fits_true
  write duel id _ tag value _ := .same (.shift (.stir (.revise duel id (.write tag value)))) rfl
  award duel player tag value _ :=
    .same (.shift (.stir (.adjust duel player (.write tag value)))) rfl
  lend duel player _ allowed := .same (.shift (Performing.lend duel player allowed)) rfl
  bury _ _ _ known _ := reaches_buried .announce (fun _ => .remind rfl) known
  refresh duel id _ := .same (.shift (.stir (.revise duel id .refresh))) rfl
  fire duel id _ _ _ := .same (.shift (.stir (.unregister duel id))) rfl
  choose duel player choice := .same (.choose duel player choice) rfl
  suspend duel waiting _ := .same (.suspend duel waiting) rfl
  schedule duel works phases := by
    refine .quiet (.schedule duel works) fun work scheduled => ?_
    exact (Agenda.mem_toList_addPhases.mp scheduled).imp_right fun new => (phases work new).2.1
  begin _ _ _ next := .begin next
  herald _ event _ next := .head (.begin next) (.single (.announce _ event))
  clear duel := .quiet (.clear duel) fun _ => nofun
  finish duel losers := .quiet (.finish duel losers) fun _ => nofun
  concede duel player := .quiet (.concede duel player) fun _ => nofun
  enter duel target := reaches_entering_of duel target (.same (.enter duel target) rfl)
    (.same (.count _) rfl) fun player => .same (.pass _ player) rfl
  record duel player action _ := .same (.record duel player action) rfl
  refill duel player total _ := .same (.shift (.stir (.adjust duel player (.refill total)))) rfl
  sets _ := trivial

/-! ## Registrations -/

/-- A trigger is live, its owner is in the zone of the rule and belongs to the controller, and if
the owner left that zone, the trigger would be struck out. -/
structure Registered (duel : Duel) (trigger : Trigger) : Prop where
  live : duel.triggers.get? trigger.id = some trigger
  stands : ∃ entity, duel.entity? trigger.owner = some entity ∧
    entity.zone = trigger.rule.zone ∧ entity.owner = trigger.controller
  leaving : ∀ goal, (duel.leaveZone trigger.owner goal).triggers.get? trigger.id = none

theorem Trace.attentive (trace : Trace start past after) (attentive : start.Attentive) :
    after.Attentive := by
  induction trace with
  | start => exact attentive
  | beat _ beats ih => exact beats.change.attentive ih

theorem Attentive.registered (attentive : duel.Attentive)
    (live : duel.triggers.get? id = some trigger) : duel.Registered trigger := by
  obtain ⟨listed, rfl⟩ := attentive.listening.kept.get?_eq_some_iff.mp live
  obtain ⟨entity, known, zone, owner, -⟩ := attentive.listening.agree.owned trigger listed
  refine ⟨live, ⟨entity, known, zone, owner⟩, fun goal => ?_⟩
  rw [attentive.listening.triggers_leaveZone known goal]
  exact attentive.listening.kept.get?_dropOwner listed

theorem Attentive.issued (attentive : duel.Attentive)
    (live : duel.triggers.get? id = some trigger) : id.number < duel.triggers.next := by
  obtain ⟨listed, rfl⟩ := attentive.listening.kept.get?_eq_some_iff.mp live
  exact attentive.listening.kept.issued trigger listed

theorem Restarts.succeeds {owner : EntityId} (restarts : Restarts before after owner) :
    after.triggers.Succeeds before.triggers := by
  rcases restarts.triggers with ⟨dropped, -⟩ | ⟨calling, rule, -, -, -, registered⟩
  · rw [dropped]
    exact before.triggers.succeeds_dropOwner owner
  · rw [registered]
    exact (TriggerBook.succeeds_register _ owner calling.owner rule).trans
      (before.triggers.succeeds_dropOwner owner)

theorem Change.succeeds (change : Change before after) (attentive : before.Attentive) :
    after.triggers.Succeeds before.triggers := by
  rcases change.triggers attentive with ⟨id, restarts⟩ | ⟨id, struck⟩ | same
  · exact restarts.succeeds
  · rw [struck]
    exact before.triggers.succeeds_unregister id
  · rw [same]
    exact .refl before.triggers

theorem Trace.succeeds (trace : Trace start past after) (attentive : start.Attentive) :
    after.triggers.Succeeds start.triggers := by
  induction trace with
  | start => exact .refl start.triggers
  | beat trace beats ih => exact (beats.change.succeeds (trace.attentive attentive)).trans ih

/-- A registration that is live at the end of a run, with a handle from before it, was there in
every duel on the way. -/
theorem Trace.registered (trace : Trace start past after) (attentive : start.Attentive)
    (issued : id.number < start.triggers.next) (live : after.triggers.get? id = some trigger) :
    start.Registered trigger ∧ ∀ entry ∈ past, entry.1.Registered trigger := by
  constructor
  · exact attentive.registered ((trace.succeeds attentive).live attentive.listening.kept issued live)
  · rintro ⟨between, note⟩ member
    obtain ⟨later, earlier, rfl⟩ := List.append_of_mem member
    obtain ⟨comes, next, beats, goes⟩ := trace.parted
    have there : between.Attentive := comes.attentive attentive
    have rest : Trace between (later ++ [(between, note)]) after := (Trace.start.beat beats).trans goes
    exact there.registered ((rest.succeeds there).live there.listening.kept
      (Nat.lt_of_lt_of_le issued (comes.succeeds attentive).next) live)

/-- A handle that is struck out stays so along every run. -/
theorem Trace.struck (trace : Trace start past after) (attentive : start.Attentive)
    (issued : id.number < start.triggers.next) (struck : start.triggers.get? id = none) :
    after.triggers.get? id = none :=
  (trace.succeeds attentive).struck attentive.listening.kept issued struck

/-! ## Where a trigger that waits comes from -/

/-- The event was announced in a duel of the past, and a trigger with the handle reacted to it. -/
def Past.Alerted (past : Past) (id : TriggerId) (event : Event) : Prop :=
  ∃ later asked earlier, past = later ++ (asked, some event) :: earlier ∧
    ∃ heard ∈ asked.reactionsTo event, heard.id = id

theorem Past.Alerted.cons {entry : Duel × Option Event} (alerted : past.Alerted id event) :
    Past.Alerted (entry :: past) id event := by
  obtain ⟨later, asked, earlier, rfl, heard⟩ := alerted
  exact ⟨entry :: later, asked, earlier, rfl, heard⟩

theorem mem_alerts_announce {alert : TriggerId × Event}
    (waits : alert ∈ (duel.announce event).agenda.alerts) :
    alert ∈ duel.agenda.alerts ∨ ∃ heard ∈ duel.reactionsTo event, alert = (heard.id, event) := by
  obtain ⟨work, scheduled, alerts⟩ := Agenda.mem_alerts.mp waits
  rcases Agenda.mem_toList_addReactions.mp scheduled with old | new
  · exact .inl (Agenda.mem_alerts.mpr ⟨work, old, alerts⟩)
  · obtain ⟨heard, reacts, rfl⟩ := List.mem_map.mp new
    exact .inr ⟨heard, reacts, (Option.some.inj alerts).symm⟩

/-- Whatever waits at the end of a run reacted to an event that the run announced, unless it waited
from the start. -/
theorem Trace.alerted (trace : Trace start past after) (silent : start.agenda.alerts = [])
    (waits : (id, event) ∈ after.agenda.alerts) : past.Alerted id event := by
  induction trace with
  | start =>
      rw [silent] at waits
      cases waits
  | beat _ beats ih =>
      cases beats with
      | announce announced =>
          rcases mem_alerts_announce waits with old | ⟨heard, reacts, same⟩
          · exact (ih old).cons
          · cases same
            exact ⟨[], _, _, rfl, heard, reacts, rfl⟩
      | keep change fewer => exact (ih (fewer _ waits)).cons

/-! ## Firing -/

/-- A trigger that fires once is struck out. -/
def spent (duel : Duel) (trigger : Trigger) : Duel :=
  if trigger.rule.once then { duel with triggers := duel.triggers.unregister trigger.id } else duel

/-- The duel in which the effects of a trigger start that is taken in a duel: if it is a secret, it
has been brought to the graveyard. -/
def sprung (duel : Duel) (trigger : Trigger) : Duel :=
  if trigger.rule.zone = .secret then
    match (duel.spent trigger).entity? trigger.owner with
    | none => duel.spent trigger
    | some entity => (duel.spent trigger).relocate trigger.owner entity .graveyard .top
  else duel.spent trigger

variable {entity : Entity}

theorem sprung_of_secret (secret : trigger.rule.zone = .secret)
    (known : (duel.spent trigger).entity? trigger.owner = some entity) :
    duel.sprung trigger = (duel.spent trigger).relocate trigger.owner entity .graveyard .top := by
  unfold sprung
  rw [if_pos secret, known]

theorem sprung_of_open (open' : trigger.rule.zone ≠ .secret) :
    duel.sprung trigger = duel.spent trigger :=
  if_neg open'

theorem entity?_spent (duel : Duel) (trigger : Trigger) (id : EntityId) :
    (duel.spent trigger).entity? id = duel.entity? id := by
  unfold spent
  split <;> rfl

theorem Registered.stands_spent (registered : duel.Registered trigger) :
    ∃ entity, (duel.spent trigger).entity? trigger.owner = some entity ∧
      entity.owner = trigger.controller := by
  obtain ⟨entity, known, -, owner⟩ := registered.stands
  exact ⟨entity, (duel.entity?_spent trigger trigger.owner).trans known, owner⟩

theorem reaches_spent (duel : Duel) (trigger : Trigger) :
    ReflTransGen Beat duel (duel.spent trigger) := by
  unfold spent
  split
  · exact .single (.same (.shift (.stir (.unregister duel trigger.id))) rfl)
  · exact .refl

theorem send_graveyard {owner : EntityId} (sound : duel.WellPlaced)
    (known : duel.entity? owner = some entity) :
    Play.send owner .graveyard duel =
      .ok () (duel.relocate owner entity .graveyard .top) := by
  have sends : (Play.send owner .graveyard).Yields duel
      (fun _ after => after = duel.relocate owner entity .graveyard .top) fun _ => False :=
    Play.yields_discard.mpr
      (Play.yields_move_of_room known (by simp) (sound.roomInGraveyard entity) rfl)
  obtain ⟨value, after, ran, same⟩ := sends.exists_ok
  rw [ran, same]

theorem Attentive.spent (attentive : duel.Attentive) (trigger : Trigger) :
    (duel.spent trigger).Attentive := by
  obtain ⟨past, trace⟩ := exists_trace (duel.reaches_spent trigger)
  exact trace.attentive attentive

theorem reaches_sprung (attentive : duel.Attentive) (trigger : Trigger) :
    ReflTransGen Beat duel (duel.sprung trigger) := by
  unfold sprung
  split
  · split
    · exact duel.reaches_spent trigger
    next entity known =>
      refine (duel.reaches_spent trigger).tail (.same (.shift (.relocate _ .top known (by simp)
        ((attentive.spent trigger).placed.roomInGraveyard entity))) ?_)
      exact agenda_relocate _ trigger.owner entity .graveyard .top
  · exact duel.reaches_spent trigger

theorem Attentive.sprung (attentive : duel.Attentive) (trigger : Trigger) :
    (duel.sprung trigger).Attentive := by
  obtain ⟨past, trace⟩ := exists_trace (reaches_sprung attentive trigger)
  exact trace.attentive attentive

/-- A live trigger that is taken starts its effects in the duel that is sprung. -/
theorem doWork_trigger (attentive : duel.Attentive) (registered : duel.Registered trigger)
    (event : Event) :
    Play.doWork (.trigger trigger.id event) duel =
      discard (Play.resolve (Resolution.ofEffects trigger.rule.effects
        ⟨trigger.controller, trigger.owner, event.target, some event⟩)) (duel.sprung trigger) := by
  obtain ⟨entity, known, -⟩ := registered.stands_spent
  have sent := send_graveyard (attentive.spent trigger).placed known
  generalize tasks : (discard (Play.resolve (Resolution.ofEffects trigger.rule.effects
    ⟨trigger.controller, trigger.owner, event.target, some event⟩)) : Play Unit) = acts
  -- What is left once the trigger is struck out, if it fires once.
  have shows : (do
      if trigger.rule.zone = .secret then Play.send trigger.owner .graveyard
      acts : Play Unit) (duel.spent trigger) = acts (duel.sprung trigger) := by
    by_cases secret : trigger.rule.zone = .secret
    · rw [if_pos secret, sprung_of_secret secret known]
      exact Play.bind_of_ok sent
    · rw [if_neg secret, sprung_of_open secret]
  rw [← shows]
  change Play.fireTrigger trigger.id event duel = _
  unfold Play.fireTrigger
  rw [Play.get_bind, registered.live]
  dsimp only
  rw [tasks]
  unfold spent
  split
  · rfl
  · rfl

/-- A trigger that is no longer live lapses. -/
theorem doWork_trigger_of_struck (struck : duel.triggers.get? id = none) (event : Event) :
    Play.doWork (.trigger id event) duel = .ok () duel := by
  change Play.fireTrigger id event duel = _
  unfold Play.fireTrigger
  rw [Play.get_bind, struck]
  rfl

/-- Whose triggers restart loses the one that is live. -/
theorem Restarts.strikes (restarts : Restarts before after trigger.owner)
    (kept : before.triggers.WellKept) (live : trigger ∈ before.triggers.active) :
    after.triggers.get? trigger.id = none := by
  have dropped := kept.get?_dropOwner live
  rcases restarts.triggers with ⟨same, -⟩ | ⟨calling, rule, -, -, -, registered⟩
  · rw [same]
    exact dropped
  · rw [registered]
    exact (TriggerBook.succeeds_register _ _ _ rule).struck (kept.dropOwner trigger.owner)
      (Nat.lt_of_lt_of_le (kept.issued trigger live)
        (before.triggers.succeeds_dropOwner trigger.owner).next) dropped

theorem get?_spent (once : trigger.rule.once = true) :
    (duel.spent trigger).triggers.get? trigger.id = none := by
  unfold spent
  rw [if_pos once]
  exact duel.triggers.get?_unregister_self trigger.id

theorem next_spent (duel : Duel) (trigger : Trigger) :
    (duel.spent trigger).triggers.next = duel.triggers.next := by
  unfold spent
  split
  · exact duel.triggers.next_unregister trigger.id
  · rfl

/-- A trigger that fires once or is a secret is struck out before its effects start. -/
theorem struck_sprung (attentive : duel.Attentive) (registered : duel.Registered trigger)
    (last : trigger.rule.once = true ∨ trigger.rule.zone = .secret) :
    (duel.sprung trigger).triggers.get? trigger.id = none := by
  obtain ⟨entity, known, -⟩ := registered.stands_spent
  have listed : trigger ∈ duel.triggers.active := List.mem_of_find?_eq_some registered.live
  obtain ⟨placed, listening⟩ := attentive.spent trigger
  have restarts := restarts_relocate .top placed listening known (placed.roomInGraveyard entity)
  by_cases secret : trigger.rule.zone = .secret
  · rw [sprung_of_secret secret known]
    by_cases once : trigger.rule.once = true
    · have issued := attentive.listening.kept.issued trigger listed
      rw [← duel.next_spent trigger] at issued
      exact restarts.succeeds.struck listening.kept issued (get?_spent once)
    · have unspent : duel.spent trigger = duel := if_neg once
      refine restarts.strikes listening.kept ?_
      rw [unspent]
      exact listed
  · rw [sprung_of_open secret]
    exact get?_spent (last.resolve_right secret)

/-- A secret is in its owner's graveyard before its effects start. -/
theorem revealed_sprung (attentive : duel.Attentive) (registered : duel.Registered trigger)
    (secret : trigger.rule.zone = .secret) :
    ∃ entity, (duel.sprung trigger).entity? trigger.owner = some entity ∧
      entity.owner = trigger.controller ∧ entity.zone = .graveyard ∧
        trigger.owner ∈ (duel.sprung trigger).members trigger.controller .graveyard := by
  obtain ⟨entity, known, own⟩ := registered.stands_spent
  have placed := (attentive.spent trigger).placed
  have posted : (duel.sprung trigger).table.post? trigger.owner =
      some ⟨trigger.controller, entity.kind, .graveyard⟩ := by
    rw [sprung_of_secret secret known, ← own]
    exact (post?_relocate .top placed known (placed.roomInGraveyard entity)).trans (if_pos rfl)
  obtain ⟨buried, found, owner, -, zone⟩ := exists_of_post? posted
  have contained : buried.seat.InContainer := by
    unfold Seat.InContainer
    rw [show buried.seat.zone = .graveyard from zone]
    exact ⟨by decide, nofun⟩
  exact ⟨buried, found, owner, zone, ((attentive.sprung trigger).placed.placed.mem_iff _ _ _).mpr
    ⟨nofun, buried.seat, seat?_of_entity? found, contained, owner, zone⟩⟩

/-! ## What settling takes -/

/-- After a round of settling this is the next piece of work. -/
structure Picks (settled moment : Duel) (work : Work) (rest : Agenda) : Prop where
  round : settled.Rounds moment
  running : moment.isOver = false
  free : moment.suspended = none
  next : moment.agenda.next? = some (work, rest)

/-- Settling a duel comes to take a piece of work, first of all or when other work has been done. -/
inductive Takes : Duel → Duel → Work → Agenda → Prop
  | next {settled moment : Duel} {work : Work} {rest : Agenda}
      (picks : settled.Picks moment work rest) : Takes settled moment work rest
  | later {settled middle left moment : Duel} {first work : Work} {agenda rest : Agenda}
      (picks : settled.Picks middle first agenda)
      (worked : Play.doWork first { middle with agenda := agenda } = .ok () left)
      (takes : Takes left moment work rest) : Takes settled moment work rest

/-- Settling a duel takes some pieces of work, one after the other, and ends as it does.  Each piece
comes with the duel in which it is taken and with what is left on the agenda. -/
inductive GoesThrough : Duel → List (Duel × Work × Agenda) → EStateM.Result Fault Duel Unit → Prop
  | spent (duel : Duel) : GoesThrough duel [] (.error .unsettled duel)
  | unburied {duel left : Duel} {fault : Fault}
      (broken : Play.processDeaths duel = .error fault left) :
      GoesThrough duel [] (.error fault left)
  | rests {duel left : Duel} (round : duel.Rounds left)
      (nothing : ∀ work rest, ¬ duel.Picks left work rest) : GoesThrough duel [] (.ok () left)
  | breaks {duel moment left : Duel} {work : Work} {rest : Agenda} {fault : Fault}
      (picks : duel.Picks moment work rest)
      (broken : Play.doWork work { moment with agenda := rest } = .error fault left) :
      GoesThrough duel [(moment, work, rest)] (.error fault left.clearAgenda)
  | works {duel moment left : Duel} {work : Work} {rest : Agenda}
      {taken : List (Duel × Work × Agenda)} {result : EStateM.Result Fault Duel Unit}
      (picks : duel.Picks moment work rest)
      (worked : Play.doWork work { moment with agenda := rest } = .ok () left)
      (further : GoesThrough left taken result) :
      GoesThrough duel ((moment, work, rest) :: taken) result

variable {settled moment left : Duel} {work : Work} {rest : Agenda}

theorem exists_goesThrough (allowance : Nat) (duel : Duel) :
    ∃ taken, duel.GoesThrough taken (Play.settle allowance duel) := by
  induction allowance generalizing duel with
  | zero => exact ⟨[], .spent duel⟩
  | succ allowance ih =>
      rw [Play.settle_succ]
      split
      next fault left broken => exact ⟨[], .unburied broken⟩
      next buried ran =>
        have round : duel.Rounds buried.updateAuras := ⟨buried, ran, rfl⟩
        have alone {work : Work} {rest : Agenda} {left : Duel}
            (picks : duel.Picks left work rest) : left = buried.updateAuras := by
          obtain ⟨other, ranToo, rfl⟩ := picks.round
          cases ran.symm.trans ranToo
          rfl
        split
        next stops =>
          refine ⟨[], .rests round fun work rest picks => ?_⟩
          rw [picks.running, picks.free] at stops
          cases stops
        next open' =>
          rw [Bool.or_eq_true, not_or, Bool.not_eq_true, Option.not_isSome_iff_eq_none] at open'
          split
          next empty =>
            exact ⟨[], .rests round fun work rest picks => nomatch empty.symm.trans picks.next⟩
          next work rest next =>
            have picks : duel.Picks buried.updateAuras work rest :=
              ⟨round, open'.1, open'.2, next⟩
            split
            next fault left broken => exact ⟨_, .breaks picks broken⟩
            next left worked =>
              obtain ⟨taken, through⟩ := ih left
              exact ⟨_, .works picks worked through⟩

theorem settle_of_picks (allowance : Nat) (picks : settled.Picks moment work rest) :
    Play.settle (allowance + 1) settled =
      match Play.doWork work { moment with agenda := rest } with
      | .error fault left => .error fault left.clearAgenda
      | .ok _ left => Play.settle allowance left := by
  obtain ⟨buried, ran, rfl⟩ := picks.round
  rw [Play.settle_succ, ran]
  dsimp only
  rw [picks.running, picks.free, picks.next]
  rfl

/-- What settling comes to take is what it takes within some allowance. -/
theorem takes_iff_goesThrough : settled.Takes moment work rest ↔
    ∃ allowance taken, settled.GoesThrough taken (Play.settle allowance settled) ∧
      (moment, work, rest) ∈ taken := by
  constructor
  · intro takes
    induction takes with
    | @next settled moment work rest picks =>
        refine ⟨1, [(moment, work, rest)], ?_, List.mem_singleton_self _⟩
        rw [settle_of_picks 0 picks]
        split
        next broken => exact .breaks picks broken
        next left worked => exact .works picks worked (.spent left)
    | @later settled middle left moment first work agenda rest picks worked _ ih =>
        obtain ⟨allowance, taken, through, member⟩ := ih
        refine ⟨allowance + 1, (middle, first, agenda) :: taken, ?_, List.mem_cons_of_mem _ member⟩
        rw [settle_of_picks allowance picks, worked]
        exact .works picks worked through
  · rintro ⟨allowance, taken, through, member⟩
    generalize Play.settle allowance settled = result at through
    induction through with
    | spent | unburied | rests => cases member
    | breaks picks broken =>
        cases List.mem_singleton.mp member
        exact .next picks
    | works picks worked _ ih =>
        rcases List.mem_cons.mp member with here | further
        · cases here
          exact .next picks
        · exact .later picks worked (ih further)

theorem Picks.reaches (picks : settled.Picks moment work rest) :
    ReflTransGen Beat settled moment := by
  obtain ⟨buried, ran, rfl⟩ := picks.round
  have buries : Play.Follows Beat Play.processDeaths := Play.follows_processDeaths
  exact (buries.ensures.of_ok ran).tail (Revising.auras buried)

theorem reaches_doWork (next : duel.agenda.next? = some (work, rest))
    (worked : Play.doWork work { duel with agenda := rest } = .ok () left) :
    ReflTransGen Beat duel left :=
  (Play.yields_doWork work.fits_true next).of_ok worked

theorem Takes.reaches (takes : settled.Takes moment work rest) :
    ReflTransGen Beat settled moment := by
  induction takes with
  | next picks => exact picks.reaches
  | later picks worked _ ih => exact (picks.reaches.trans (reaches_doWork picks.next worked)).trans ih

theorem Takes.next? (takes : settled.Takes moment work rest) :
    moment.agenda.next? = some (work, rest) := by
  induction takes with
  | next picks => exact picks.next
  | later _ _ _ ih => exact ih

/-! ## What becomes of a trigger that is taken -/

/-- A trigger that settling takes fires: for the registration that reacted to the event, as its
owner stands, with its own effects, and for the last time if it fires once or is a secret. -/
structure Fires (past : Past) (moment taken : Duel) (trigger : Trigger) (event : Event) : Prop where
  /-- Nothing was struck out since the trigger reacted. -/
  since : ∀ later asked earlier, past = later ++ (asked, some event) :: earlier →
    ∀ heard ∈ asked.reactionsTo event, heard.id = trigger.id →
      heard = trigger ∧ asked.Registered trigger ∧ ∀ entry ∈ later, entry.1.Registered trigger
  registered : moment.Registered trigger
  comes : ∃ past, Trace moment past (taken.sprung trigger)
  acts : Play.doWork (.trigger trigger.id event) taken =
    discard (Play.resolve (Resolution.ofEffects trigger.rule.effects
      ⟨trigger.controller, trigger.owner, event.target, some event⟩)) (taken.sprung trigger)
  /-- A secret has been brought to the graveyard. -/
  revealed : trigger.rule.zone = .secret →
    ∃ entity, (taken.sprung trigger).entity? trigger.owner = some entity ∧
      entity.owner = trigger.controller ∧ entity.zone = .graveyard ∧
        trigger.owner ∈ (taken.sprung trigger).members trigger.controller .graveyard
  /-- Whatever else waits with the handle lapses from then on. -/
  last : trigger.rule.once = true ∨ trigger.rule.zone = .secret →
    ∀ onward after, Trace (taken.sprung trigger) onward after →
      after.triggers.get? trigger.id = none ∧
        ∀ again, Play.doWork (.trigger trigger.id again) after = .ok () after

/-- Who reacted to an event is registered as long as its handle is live. -/
theorem Trace.since (trace : Trace start (later ++ (asked, some event) :: earlier) after)
    (attentive : start.Attentive) (live : after.triggers.get? id = some trigger) {heard : Trigger}
    (reacts : heard ∈ asked.reactionsTo event) (same : heard.id = id) :
    heard = trigger ∧ asked.Registered trigger ∧ ∀ entry ∈ later, entry.1.Registered trigger := by
  obtain ⟨comes, next, beats, goes⟩ := trace.parted
  have there : asked.Attentive := comes.attentive attentive
  have heardLive : asked.triggers.get? id = some heard :=
    same ▸ TriggerBook.live_of_mem_reactions reacts
  have rest : Trace asked (later ++ [(asked, some event)]) after := (Trace.start.beat beats).trans goes
  obtain ⟨registered, between⟩ := rest.registered there (there.issued heardLive) live
  have own : trigger.id = id := by simpa using List.find?_some live
  have stillLive : asked.triggers.get? id = some trigger := own ▸ registered.live
  exact ⟨Option.some.inj (heardLive.symm.trans stillLive), registered,
    fun entry member => between entry (List.mem_append_left _ member)⟩

theorem Trace.fires (trace : Trace start past moment) (attentive : start.Attentive)
    (next : moment.agenda.next? = some (.trigger trigger.id event, rest))
    (live : moment.triggers.get? trigger.id = some trigger) :
    Fires past moment { moment with agenda := rest } trigger event := by
  have begins : Beat moment { moment with agenda := rest } := .begin next
  have here : moment.Attentive := trace.attentive attentive
  have taken : ({ moment with agenda := rest } : Duel).Attentive :=
    Change.attentive (.begin moment next) here
  have registered : ({ moment with agenda := rest } : Duel).Registered trigger :=
    taken.registered live
  refine ⟨?_, here.registered live, exists_trace (.head begins (reaches_sprung taken trigger)),
    doWork_trigger taken registered event, revealed_sprung taken registered, ?_⟩
  · rintro later asked earlier rfl heard reacts same
    exact trace.since attentive live reacts same
  · intro fires onward after goes
    obtain ⟨springing, springs⟩ := exists_trace (reaches_sprung taken trigger)
    have issued := Nat.lt_of_lt_of_le (taken.issued live) (springs.succeeds taken).next
    have struck := goes.struck (taken.sprung trigger) issued (struck_sprung taken registered fires)
    exact ⟨struck, doWork_trigger_of_struck struck⟩

/-- Whatever is done with a duel that was set up is a run from a bare one.  Any trigger that settling
takes in such a run reacted to an event that was announced in it, and either its handle has been
struck out since and it lapses, or it fires. -/
theorem fires_of_takes {settings : Settings} {catalogue : Catalogue}
    (created : Duel.create settings catalogue = .ok duel) :
    ∃ bare, Duel.bare settings catalogue = .ok bare ∧
      (∀ allowance deeds, ∃ past, Trace bare past (duel.afterDeeds allowance deeds)) ∧
        ∀ past settled moment id event rest, Trace bare past settled →
          settled.Takes moment (.trigger id event) rest →
            (∃ since, Trace bare (since ++ past) moment) ∧ ∀ whole, Trace bare whole moment →
              whole.Alerted id event ∧
                (moment.triggers.get? id = none ∧
                    Play.doWork (.trigger id event) { moment with agenda := rest } =
                      .ok () { moment with agenda := rest } ∨
                  ∃ trigger, trigger.id = id ∧
                    Fires whole moment { moment with agenda := rest } trigger event) := by
  obtain ⟨bare, begun, placed⟩ : ∃ bare, Duel.bare settings catalogue = .ok bare ∧
      ReflTransGen Beat bare duel := exists_bare created
  have attentive := bare_attentive begun
  have silent : bare.agenda.alerts = [] := by
    obtain ⟨first, dice, zero, one, rfl⟩ := bare_eq begun
    rfl
  refine ⟨bare, begun, fun allowance deeds =>
    exists_trace (placed.trans (duel.steps_afterDeeds allowance deeds)), ?_⟩
  intro past settled moment id event rest trace takes
  constructor
  · obtain ⟨since, goes⟩ := exists_trace takes.reaches
    exact ⟨since, trace.trans goes⟩
  intro whole trace
  have waits : (id, event) ∈ moment.agenda.alerts := by
    refine Agenda.mem_alerts.mpr ⟨.trigger id event, ?_, rfl⟩
    rw [Agenda.toList_of_next takes.next?]
    exact List.mem_cons_self
  refine ⟨trace.alerted silent waits, ?_⟩
  cases live : moment.triggers.get? id with
  | none =>
      have struck : ({ moment with agenda := rest } : Duel).triggers.get? id = none := live
      exact .inl ⟨rfl, doWork_trigger_of_struck struck event⟩
  | some trigger =>
      obtain ⟨-, rfl⟩ := (trace.attentive attentive).listening.kept.get?_eq_some_iff.mp live
      exact .inr ⟨trigger, rfl, trace.fires attentive takes.next? live⟩

end Duel

/-- A mage, its hero power and a secret that gains armor when the opponent's turn ends. -/
def Catalogue.ambushes : Catalogue :=
  .ofEntries
    [⟨Card.hero ⟨1⟩ "HERO" "" .mage 30 "POWER", Behaviour.none⟩,
      ⟨Card.power ⟨2⟩ "POWER" "" 2, Behaviour.none⟩,
      ⟨{ Card.spell ⟨3⟩ "AMBUSH" "" 0 with tags := Tags.empty.set .secret 1 },
        { Behaviour.none with
          trigger := some ⟨.turnEnd, .enemy, [.gainArmor 1], none, false, .secret⟩ }⟩]
    [(.mage, ⟨1⟩)] (by decide) (by decide)

/-- Player zero draws the secret. -/
def Settings.ambushes : Settings :=
  { Settings.standard with decks := [["AMBUSH"], []], shuffleDecks := false }

namespace Duel

/-- Whether settling takes the trigger of a secret when the turn of the second player ends. -/
def springsAtTurnEnd (duel : Duel) : Bool :=
  match Play.processDeaths (({ duel with step := .mainEndTriggers } : Duel).announce
      (Event.plain .turnEnd .one)) with
  | .error _ _ => false
  | .ok _ buried => !buried.updateAuras.isOver && buried.updateAuras.suspended.isNone &&
    match buried.updateAuras.agenda.next? with
    | some (.trigger id event, _) => event = Event.plain .turnEnd .one &&
      (buried.updateAuras.triggers.get? id).any fun trigger => trigger.rule.zone = .secret
    | _ => false

/-- The secret lies in wait, and the turn of the opponent comes to its end. -/
theorem fires_of_takes_ambushes :
    ∃ duel bare past settled moment rest trigger whole,
      Duel.create Settings.ambushes Catalogue.ambushes = .ok duel ∧
        Duel.bare Settings.ambushes Catalogue.ambushes = .ok bare ∧ Trace bare past settled ∧
          settled.Takes moment (.trigger trigger.id (Event.plain .turnEnd .one)) rest ∧
            trigger.rule.zone = .secret ∧ Trace bare whole moment ∧
              whole.Alerted trigger.id (Event.plain .turnEnd .one) ∧
                Fires whole moment { moment with agenda := rest } trigger
                  (Event.plain .turnEnd .one) := by
  obtain ⟨duel, after, created, runs, comes⟩ :=
    exists_of_outcome Settings.ambushes Catalogue.ambushes 100
      [.start, .take .zero (.play ⟨4⟩), .take .zero .endTurn] springsAtTurnEnd (by decide +kernel)
  have did : duel.afterDeeds 100
      [.call .start, .call (.take .zero (.play ⟨4⟩)), .call (.take .zero .endTurn)] = after :=
    afterDeeds_of_runs runs
  obtain ⟨bare, begun, reaches, taken⟩ := fires_of_takes created
  obtain ⟨past, trace⟩ := reaches 100
    [.call .start, .call (.take .zero (.play ⟨4⟩)), .call (.take .zero .endTurn)]
  rw [did] at trace
  unfold springsAtTurnEnd at comes
  split at comes
  · cases comes
  next buried ran =>
    simp only [Bool.and_eq_true, Bool.not_eq_true', Option.isNone_iff_eq_none] at comes
    obtain ⟨⟨running, free⟩, comes⟩ := comes
    split at comes
    next id event rest next =>
      simp only [Bool.and_eq_true, decide_eq_true_eq, Option.any_eq_true] at comes
      obtain ⟨rfl, trigger, live, secret⟩ := comes
      have settled := (trace.beat (.keep (.enter after .mainEndTriggers) fun _ waits => waits)).beat
        (.announce _ (Event.plain .turnEnd .one))
      have takes := Takes.next ⟨⟨buried, ran, rfl⟩, running, free, next⟩
      obtain ⟨⟨since, whole⟩, fate⟩ := taken _ _ _ _ _ _ settled takes
      obtain ⟨alerted, ⟨struck, -⟩ | ⟨fired, rfl, fires⟩⟩ := fate _ whole
      · cases struck.symm.trans live
      · cases live.symm.trans fires.registered.live
        exact ⟨duel, bare, _, _, _, rest, _, _, created, begun, settled, takes, secret, whole,
          alerted, fires⟩
    · cases comes

end Duel

end CardDuel
