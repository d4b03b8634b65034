import CardDuel.Proofs.Alerts
import CardDuel.Proofs.Coherence
import CardDuel.Proofs.Enumeration
import CardDuel.Proofs.Selections

/-!
# Lists on their way

A list of effects begins when a piece of work is taken from the agenda, or it goes on when the
choice that it waits for is answered.  In between it has its cards under guard, and so it does
whenever it selects.
-/

namespace CardDuel

open Relation

namespace Duel

variable {duel before after : Duel} {held : Option Resolution} {made named : List EntityId}
variable {resolution : Resolution} {player : Player}

theorem Arisen.attentive (arisen : duel.Arisen) : duel.Attentive := by
  obtain ⟨_, _, start, created, reached⟩ := arisen
  obtain ⟨bare, begun, quiets⟩ := create_quiet created
  have all := (Shift.changes (Quiet.shifts quiets)).trans reached
  clear reached
  induction all with
  | refl => exact bare_attentive begun
  | tail _ change ih => exact change.attentive ih

/-- Nothing is under guard, or what a list has made that waits. -/
inductive Calm (duel : Duel) : Prop
  | idle (guarded : duel.Guarded none [] []) : Calm duel
  | parks {resolution : Resolution} (attends : resolution.Attends (some resolution) duel) : Calm duel

theorem Calm.guarding (calm : before.Calm)
    (keeps : ∀ held made named, Guarding held made named before after) : after.Calm := by
  cases calm with
  | idle guarded => exact .idle (keeps _ _ _ guarded)
  | parks attends => exact .parks (attends.keep (keeps _ _ _ attends.guarded))

theorem Calm.guarded (calm : duel.Calm) : ∃ held made, duel.Guarded held made [] := by
  cases calm with
  | idle guarded => exact ⟨none, [], guarded⟩
  | parks attends => exact ⟨_, _, attends.guarded.forget (List.nil_subset _)⟩

theorem Calm.idle_of_free (calm : duel.Calm) (free : duel.suspended = none) :
    duel.Guarded none [] [] := by
  cases calm with
  | idle guarded => exact guarded
  | parks attends => cases attends.guarded.waiting.symm.trans free

theorem Guarded.suspend (guarded : duel.Guarded held made named) (waiting : Option Resolution) :
    Guarded waiting made named { duel with suspended := waiting } :=
  { guarded with
    arisen := guarded.arisen.later (.single (.suspend duel waiting))
    waiting := rfl }

/-- A list that takes no cards over names those that its context names. -/
theorem Guarded.begins (guarded : duel.Guarded none [] []) (fresh : resolution.scratch = .initial)
    (known : ∀ id ∈ resolution.context.names, duel.entity? id ≠ none) :
    resolution.Attends none duel := by
  obtain ⟨frames, context, scratch⟩ := resolution
  obtain rfl : scratch = .initial := fresh
  refine ⟨guarded.naming fun id member => known id ?_, fun _ _ => nofun, List.nodup_nil⟩
  simpa [Resolution.named, Scratch.initial] using member

/-- A list that waits goes on with its cards under guard. -/
theorem Calm.takes (calm : duel.Calm) (waiting : duel.suspended = some resolution) :
    resolution.Attends none { duel with suspended := none } := by
  cases calm with
  | idle guarded => cases guarded.waiting.symm.trans waiting
  | parks attends =>
      cases attends.guarded.waiting.symm.trans waiting
      exact { attends with guarded := attends.guarded.suspend none }

end Duel

namespace Play

open Duel

variable {α : Type} {action : Play α} {duel : Duel} {resolution : Resolution} {player : Player}

theorem leads_calm (leads : ∀ held made named, Guarded held made named duel →
    Leads (Guarding held made named) duel action) : Leads (Keeping Calm) duel action :=
  leads_given fun calm => leads_of_yields <| by
    cases calm with
    | idle guarded =>
        exact (Leads.keeps (leads _ _ _ guarded) guarded).mono (fun _ _ => .idle) fun _ => .idle
    | parks attends =>
        exact (Leads.keeps (leads _ _ _ attends.guarded) attends.guarded).mono
          (fun _ _ kept => .parks (attends.keep kept)) fun _ kept => .parks (attends.keep kept)

theorem follows_calm
    (follows : ∀ held made named, Follows (Guarding held made named) action) :
    Follows (Keeping Calm) action :=
  fun duel => leads_calm fun _ _ _ _ => follows _ _ _ duel

/-- An effect and the aura pass after it leave the cards of the list under guard. -/
theorem minds_tidied {held : Option Resolution} {effect : Effect}
    (attends : resolution.Attends held duel) :
    (perform resolution effect).Yields duel (fun answer left => answer.2.Attends held left.updateAuras)
      (Guarded held [] []) :=
  Yields.mono (minds_perform attends)
    (fun _ left kept => kept.keep (guarding_stir (.auras left) rfl kept.guarded)) fun _ kept => kept

/-- A list runs to its end or is put aside with its cards under guard. -/
theorem yields_resolveWithin_calm (steps : Nat) (attends : resolution.Attends none duel) :
    (resolveWithin steps resolution).Yields duel (fun _ => Calm) Calm := by
  induction steps generalizing resolution duel with
  | zero => exact .idle attends.guarded.released
  | succ steps ih =>
      rw [resolveWithin, yields_bind, yields_get]
      split
      · exact .idle attends.guarded.released
      split
      · exact .idle attends.guarded.released
      · exact ih (attends.of_same rfl rfl rfl)
      next effect rest outer frames =>
        have taken : Resolution.Attends none { resolution with frames := rest :: outer } duel :=
          attends.of_same rfl rfl rfl
        rw [yields_bind]
        refine (minds_tidied taken).mono (fun answer middle tidied => ?_) fun _ kept => .idle kept
        obtain ⟨outcome, next⟩ := answer
        rw [yields_bind, yields_modify]
        cases outcome with
        | complete => exact ih tidied
        | stop => exact ih (tidied.of_same rfl rfl rfl)
        | suspended => exact .parks { tidied with guarded := tidied.guarded.suspend (some next) }

theorem yields_resolve_calm (attends : resolution.Attends none duel) :
    (discard (resolve resolution) : Play Unit).Yields duel (fun _ => Calm) Calm :=
  yields_discard.mpr (yields_resolveWithin_calm _ attends)

end Play

/-! ## What calls keep under guard -/

namespace Duel

variable {duel : Duel} {held : Option Resolution} {made named : List EntityId}
variable {trigger : Trigger} {event : Event} {work : Work} {rest : Agenda}

theorem Guarded.begin (guarded : duel.Guarded held made named)
    (next : duel.agenda.next? = some (work, rest)) :
    Guarded held made named { duel with agenda := rest } ∧ work.Known duel := by
  have listed := Agenda.toList_of_next next
  refine ⟨guarded.of_table (.begin duel next) rfl rfl rfl fun other left => .inl ?_,
    guarded.scheduled work ?_⟩ <;> rw [listed]
  · exact List.mem_cons_of_mem work left
  · exact List.mem_cons_self

/-- A trigger that is sprung starts with nothing under guard but what was. -/
theorem Guarded.sprung (guarded : duel.Guarded held [] named) (trigger : Trigger) :
    (duel.sprung trigger).Guarded held [] named := by
  have spent : (duel.spent trigger).Guarded held [] named := by
    unfold spent
    split
    · exact guarding_stir (.unregister duel trigger.id) rfl guarded
    · exact guarded
  unfold Duel.sprung
  split
  · split
    · exact spent
    next entity known =>
      exact spent.relocate .top (List.not_mem_nil) known (fun both => nomatch both.2)
        (spent.arisen.sound.roomInGraveyard entity)
  · exact spent

/-- The list of a trigger names its owner and whomever the event names. -/
theorem Guarded.fires (guarded : duel.Guarded none [] [])
    (live : duel.triggers.get? trigger.id = some trigger)
    (known : ∀ id ∈ event.names, duel.entity? id ≠ none) :
    (Resolution.ofEffects trigger.rule.effects
      ⟨trigger.controller, trigger.owner, event.target, some event⟩).Attends none
        (duel.sprung trigger) := by
  obtain ⟨entity, stands, -⟩ := (guarded.arisen.attentive.registered live).stands
  have owner : duel.entity? trigger.owner ≠ none := Option.ne_none_iff_exists'.mpr ⟨entity, stands⟩
  have named := (guarded.naming (List.forall_mem_cons.mpr ⟨owner, known⟩)).sprung trigger
  refine (guarded.sprung trigger).begins rfl fun id member => named.known id ?_
  simp only [Resolution.ofEffects, EffectContext.names, Option.map_some, Option.getD_some,
    List.mem_cons, List.mem_append] at member
  rcases member with rfl | target | told
  · exact List.mem_cons_self
  · exact List.mem_cons_of_mem _ (List.mem_append_right _ target)
  · exact List.mem_cons_of_mem _ told

end Duel

namespace Play

open Duel

variable {duel : Duel} {player : Player} {work : Work} {rest : Agenda}

theorem yields_doWork_calm (guarded : duel.Guarded none [] [])
    (next : duel.agenda.next? = some (work, rest)) :
    (doWork work).Yields { duel with agenda := rest } (fun _ => Calm) Calm := by
  obtain ⟨begun, known⟩ := guarded.begin next
  have idle {action : Play Unit} (follows : Follows (Guarding none [] []) action) :
      action.Yields { duel with agenda := rest } (fun _ => Calm) Calm :=
    (Leads.keeps (follows _) begun).mono (fun _ _ => .idle) fun _ => .idle
  cases work with
  | run resolution => exact yields_resolve_calm (begun.begins known.1 known.2)
  | trigger id event =>
      cases live : ({ duel with agenda := rest } : Duel).triggers.get? id with
      | none =>
          unfold Yields
          rw [doWork_trigger_of_struck live]
          exact .idle begun
      | some trigger =>
          have attentive := begun.arisen.attentive
          obtain ⟨-, rfl⟩ := attentive.listening.kept.get?_eq_some_iff.mp live
          unfold Yields
          rw [doWork_trigger attentive (attentive.registered live)]
          exact yields_resolve_calm (begun.fires live known)
  | announce event => exact .idle (begun.announce known)
  | bury spell =>
      refine idle (follows_lookup.bind fun entity => ?_)
      split
      · exact follows_send_guarded List.not_mem_nil
      · exact follows_pure

section Aims

variable {source : EntityId} {target : Option EntityId} {effects : List Effect}

theorem known_announce (known : ∀ id ∈ source :: target.toList, duel.entity? id ≠ none)
    (kind : EventKind) : Work.Known duel (.announce (Event.aimed kind player source target)) :=
  known

theorem known_run (known : ∀ id ∈ source :: target.toList, duel.entity? id ≠ none) :
    Work.Known duel (.run (.ofEffects effects ⟨player, source, target, none⟩)) :=
  ⟨rfl, by simpa [Resolution.ofEffects, EffectContext.names] using known⟩

/-- The phases of a play name the card and its target. -/
theorem known_phasesOf {kind : EntityKind} {isSecret : Bool}
    (known : ∀ id ∈ source :: target.toList, duel.entity? id ≠ none) :
    ∀ work ∈ phasesOf kind isSecret source (fun kind => Event.aimed kind player source target)
      (.ofEffects effects ⟨player, source, target, none⟩), work.Known duel := by
  have announced (kind : EventKind) :
      Work.Known duel (.announce (Event.aimed kind player source target)) :=
    known_announce known kind
  have runs : Work.Known duel (.run (.ofEffects effects ⟨player, source, target, none⟩)) :=
    known_run known
  have buries : Work.Known duel (.bury source) := trivial
  cases kind <;> cases isSecret <;> simp [phasesOf, announced, runs, buries]

end Aims

/-- Work that names whoever is named may be scheduled. -/
theorem follows_schedule_guarded {held : Option Resolution} {made named ids : List EntityId}
    {works : List Work}
    (known : ∀ duel : Duel, (∀ id ∈ ids, duel.entity? id ≠ none) → ∀ work ∈ works, work.Known duel) :
    Follows (Guarding held made (ids ++ named))
      (modify fun duel => { duel with agenda := duel.agenda.addPhases works }) :=
  follows_modify fun duel guarded => guarded.schedule <|
    known duel fun id member => guarded.known id (List.mem_append_left named member)

theorem known_of_suits_all {source : EntityId} {target : Option EntityId}
    (known : duel.entity? source ≠ none) (suits : duel.Suits player source target) :
    ∀ id ∈ source :: target.toList, duel.entity? id ≠ none := by
  refine List.forall_mem_cons.mpr ⟨known, fun id member => ?_⟩
  rw [Option.mem_toList.mp member] at suits
  exact known_of_suits suits

/-- A play is prepared with whom the check has seen. -/
theorem leads_prepare_calm {action : Action} (accepted : duel.check player action = .ok ()) :
    Leads (Keeping Calm) duel (prepare player action) := by
  cases action with
  | playCard card target position =>
      obtain ⟨-, checked⟩ := check_playCard accepted
      obtain ⟨entity, known, own, zone, -, -, playable⟩ := checkCard_spec checked
      have aims := known_of_suits_all (Option.ne_none_iff_exists'.mpr ⟨entity, known⟩)
        (suits_of_checkPlay playable)
      refine leads_calm fun held made named guarded => leads_naming_all aims ?_
      have apart : card ∉ made :=
        guarded.not_mem_of_posted (post?_of_entity? known) (by simp [zone])
      unfold prepare
      refine leads_lookup_bind fun found knownFound => leads_get_bind ?_
      cases known.symm.trans knownFound
      let paid := duel.updatePlayer player (payForCard entity)
      have stands : paid.entity? card = some entity := known
      refine leads_modify_bind (.single (guarding_stir (.adjust duel player (.pay entity)) rfl))
        (leads_get_bind ?_)
      exact (leads_placePlayed_guarded apart stands own).bind fun _ left _ =>
        follows_schedule_guarded (fun _ => known_phasesOf) left
  | attack attacker defender =>
      obtain ⟨turn, checked⟩ := check_attack accepted
      obtain ⟨able, exposed⟩ := (checkAttack_iff (checkTurn_iff.mp turn).2.1).mp checked
      obtain ⟨entity, known, -⟩ := canAttack_spec able
      have aims : ∀ id ∈ [attacker, defender], duel.entity? id ≠ none := by
        have other := Option.isSome_iff_ne_none.mp (known_of_mem_attackTargets exposed)
        simp [known, other]
      refine leads_calm fun held made named guarded => leads_naming_all aims ?_
      refine follows_schedule_guarded (fun _ known => ?_) duel
      exact List.forall_mem_cons.mpr ⟨known_announce known .attack,
        List.forall_mem_singleton.mpr (known_run known)⟩
  | heroPower target =>
      obtain ⟨-, checked⟩ := check_heroPower accepted
      obtain ⟨entity, known, -, playable⟩ := checkHeroPower_spec checked
      have aims := known_of_suits_all (Option.ne_none_iff_exists'.mpr ⟨entity, known⟩)
        (suits_of_checkPlay playable)
      refine leads_calm fun held made named guarded => leads_naming_all aims ?_
      unfold prepare
      refine leads_get_bind (leads_lookup_bind fun entity _ => ?_)
      refine ((follows_adjust fun _ => .spend entity).bind fun _ =>
        (follows_change (.write 1 (by decide))).bind fun _ => follows_get.bind fun _ =>
          follows_schedule_guarded fun _ known => ?_) duel
      exact List.forall_mem_cons.mpr ⟨known_run known,
        List.forall_mem_singleton.mpr (known_announce known .inspire)⟩
  | endTurn | mulligan _ | choose _ | concede => exact leads_pure

/-- A list that waits is taken up with its cards under guard. -/
theorem leads_resume_calm (calm : duel.Calm) : Leads (Keeping Calm) duel resume := by
  unfold resume
  apply leads_get_bind
  split
  · exact leads_pure
  next resolution waiting =>
    have taken := calm.takes waiting
    exact leads_modify_bind (.single fun _ => .idle taken.guarded.released)
      (leads_of_yields (yields_resolve_calm taken))

section TakesUp

variable {pick : EntityId} {options : List EntityId}

/-- The options of a choice are none of the cards that the waiting list has made. -/
theorem leads_answer_calm (pending : duel.choice? player = some ⟨.discover, options⟩) :
    Leads (Keeping Calm) duel (do
      modify fun duel => duel.setChoice player none
      settleOptions pick options) := leads_calm fun held made named guarded => by
  have apart (id : EntityId) (option : id ∈ options) : id ∉ made :=
    (guarded.offered player _ pending id option).2
  exact leads_modify_bind (.single fun guarded => guarded.choose fun _ => nofun)
    (follows_settleOptions_guarded apart _)

theorem leads_takeUp_calm (pending : duel.choice? player = some ⟨.discover, options⟩) :
    Leads (Keeping Calm) duel (takeUp player pick options) := by
  unfold takeUp
  simpa only [bind_assoc] using
    (leads_answer_calm pending).bind fun _ left _ => leads_given leads_resume_calm

end TakesUp

theorem steers_calm : Steers Calm where
  lights duel calm := calm.guarding fun _ _ _ => guarding_stir (.auras duel) rfl
  clears duel calm := calm.guarding fun _ _ _ guarded =>
    guarded.of_table (.clear duel) rfl rfl rfl fun _ scheduled =>
      absurd scheduled List.not_mem_nil
  enters duel step calm := calm.guarding fun _ _ _ =>
    guarding_clock (.enter duel step) rfl rfl rfl rfl
  records duel player action calm _ := calm.guarding fun _ _ _ =>
    guarding_clock (.record duel player action) rfl rfl rfl rfl
  concedes duel player calm := by
    obtain ⟨held, made, guarded⟩ := calm.guarded
    refine .idle (guarded.of_clear (.concede duel player) ?_ rfl rfl rfl)
    exact (table_finish _ _).trans (table_updatePlayer duel player fun _ => rfl)
  answers duel player calm := calm.guarding fun _ _ _ guarded => guarded.choose (by rintro _ ⟨⟩)
  refills duel player total calm := calm.guarding fun _ _ _ =>
    guarding_stir (.adjust duel player (.refill total)) rfl
  buries duel := leads_given fun calm => leads_of_yields <| by
    cases calm with
    | idle guarded =>
        exact (yields_processDeaths_guarded guarded).mono (fun _ _ kept => .idle (kept.elim id id))
          fun _ => .idle
    | parks attends =>
        exact (yields_processDeaths_guarded attends.guarded).mono
          (fun _ _ kept => kept.elim (fun kept => .parks (attends.keep kept)) .idle)
          fun _ kept => .parks (attends.keep kept)
  steps player step := follows_calm fun _ _ _ => follows_stepWork_guarded
  works calm free next := yields_doWork_calm (calm.idle_of_free free) next
  prepares _ accepted := leads_prepare_calm accepted
  exchanges _ pending among := leads_calm fun _ _ _ guarded =>
    follows_exchange_guarded (fun id member => (guarded.offered _ _ pending id (among member)).2) _
  takesUp _ pending := leads_takeUp_calm pending
  gives player code := follows_calm fun _ _ _ => follows_give_guarded

end Play

namespace Duel

variable {start duel : Duel} {resolution : Resolution}

theorem calm_of_created {settings : Settings} {catalogue : Catalogue}
    (created : Duel.create settings catalogue = .ok duel) : duel.Calm := by
  obtain ⟨docket, agenda⟩ := fresh_of_created created
  have nothing : duel.suspended = none := congrArg Docket.suspended docket
  have choices : duel.choices = PerPlayer.const none := congrArg Docket.choices docket
  constructor
  constructor
  case arisen => exact ⟨_, _, duel, created, .refl⟩
  case loyal => exact loyal_of_created created
  case waiting => exact nothing
  case distinct => exact List.nodup_nil
  case aside | unslotted | known =>
    intro id member
    cases member
  case offered =>
    intro player choice pending
    rw [choice?, choices, PerPlayer.get_const] at pending
    cases pending
  case scheduled =>
    intro work scheduled
    rw [agenda] at scheduled
    cases scheduled

/-- A list of effects on its way through a match.  It begins when it is taken from the agenda or when
a trigger is sprung, it goes on when the choice that it waits for is answered, and then it performs
its effects one after another. -/
inductive Underway (start : Duel) : Resolution → Duel → Prop
  | runs {duel : Duel} {resolution : Resolution} {rest : Agenda} (moment : Play.Moment start duel)
      (free : duel.suspended = none) (next : duel.agenda.next? = some (.run resolution, rest)) :
      Underway start resolution { duel with agenda := rest }
  | fires {duel : Duel} {trigger : Trigger} {event : Event} {rest : Agenda}
      (moment : Play.Moment start duel) (free : duel.suspended = none)
      (next : duel.agenda.next? = some (.trigger trigger.id event, rest))
      (live : duel.triggers.get? trigger.id = some trigger) :
      Underway start (.ofEffects trigger.rule.effects
          ⟨trigger.controller, trigger.owner, event.target, some event⟩)
        (({ duel with agenda := rest } : Duel).sprung trigger)
  | resumes {duel left : Duel} {resolution : Resolution} {player : Player} {pick : EntityId}
      {options : List EntityId} (moment : Play.Moment start duel)
      (pending : duel.choice? player = some ⟨.discover, options⟩)
      (sorted : Play.settleOptions pick options (duel.setChoice player none) = .ok () left)
      (waiting : left.suspended = some resolution) :
      Underway start resolution { left with suspended := none }
  | performs {duel left : Duel} {resolution next : Resolution} {effect : Effect}
      {rest : List Effect} {outer : List (List Effect)} {outcome : Outcome}
      (underway : Underway start resolution duel)
      (frames : resolution.frames = (effect :: rest) :: outer)
      (ran : Play.perform { resolution with frames := rest :: outer } effect duel =
        .ok (outcome, next) left) : Underway start next left.updateAuras
  | leaves {duel : Duel} {resolution : Resolution} (underway : Underway start resolution duel) :
      Underway start resolution.leave duel

/-- Running a list takes it on its way, and it is on its way when it is put aside. -/
theorem Underway.resolves {steps : Nat} (underway : start.Underway resolution duel) :
    (Play.resolveWithin steps resolution).Ensures duel fun outcome left => outcome = .suspended →
      ∃ rest before, start.Underway rest before ∧ left = { before with suspended := some rest } := by
  induction steps generalizing resolution duel with
  | zero => exact nofun
  | succ steps ih =>
      rw [Play.resolveWithin, Play.ensures_get_bind]
      split
      · exact nofun
      split
      · exact nofun
      · exact ih underway.leaves
      next effect rest outer frames =>
        refine Play.Ensures.bind (Play.ensures_of_ok fun _ _ ran => ran) fun answer left ran => ?_
        obtain ⟨outcome, next⟩ := answer
        have performed := underway.performs frames ran
        rw [Play.ensures_modify_bind]
        cases outcome with
        | complete => exact ih performed
        | stop => exact ih performed.leaves
        | suspended => exact fun _ => ⟨next, _, performed, rfl⟩

/-- On its way a list has its cards under guard. -/
theorem Underway.attends {settings : Settings} {catalogue : Catalogue}
    (created : Duel.create settings catalogue = .ok start)
    (underway : start.Underway resolution duel) : resolution.Attends none duel := by
  have calm {duel : Duel} : Play.Moment start duel → duel.Calm :=
    Play.steers_calm.moment (calm_of_created created)
  induction underway with
  | runs moment free next =>
      obtain ⟨begun, fresh, known⟩ := ((calm moment).idle_of_free free).begin next
      exact begun.begins fresh known
  | fires moment free next live =>
      obtain ⟨begun, known⟩ := ((calm moment).idle_of_free free).begin next
      exact begun.fires live known
  | @resumes duel left resolution player pick options moment pending sorted waiting =>
      have answers : Play.Leads (Keeping Calm) duel (do
          modify fun duel => duel.setChoice player none
          Play.settleOptions pick options) := Play.leads_answer_calm pending
      exact (Play.Yields.of_ok (answers.keeps (calm moment)) sorted).takes waiting
  | @performs duel left resolution next effect rest outer outcome underway frames ran attends =>
      have taken : Resolution.Attends none { resolution with frames := rest :: outer } duel :=
        attends.of_same rfl rfl rfl
      exact (Play.minds_tidied taken).of_ok ran
  | leaves underway attends => exact attends.of_same rfl rfl rfl

end Duel

namespace Play

open Duel

/-- Calls go through nothing but moments, and a list that is put aside is on its way.  Whenever a list
on its way selects, it selects known entities, and nobody twice. -/
theorem exists_selection {settings : Settings} {catalogue : Catalogue} {start : Duel}
    (created : Duel.create settings catalogue = .ok start) :
    (∀ allowance calls, Moment start (start.afterCalls allowance calls)) ∧
      ∀ duel resolution, start.Underway resolution duel →
        (∀ steps left, resolveWithin steps resolution duel = .ok .suspended left →
          ∃ rest before, start.Underway rest before ∧
            left = { before with suspended := some rest }) ∧
        ∀ selector, selector ≠ .nothing → ∃ ids, select resolution selector duel = .ok ids duel ∧
          ids.Nodup ∧ ∀ id ∈ ids, duel.entity? id ≠ none := by
  refine ⟨fun allowance calls => (steers_moment start).afterCalls .start calls, ?_⟩
  intro duel resolution underway
  refine ⟨fun _ left ran => underway.resolves.of_ok ran rfl, fun selector named => ?_⟩
  have selects : select resolution selector duel = _ := select_eq named duel
  obtain ⟨-, distinct, known⟩ := (yields_select (underway.attends created)).of_ok selects
  exact ⟨_, selects, distinct, fun id member => (known id member).1⟩

end Play

/-- A mage whose hero power strikes everybody that it has collected, and a minion. -/
def Catalogue.storms : Catalogue :=
  .ofEntries
    [⟨Card.hero ⟨1⟩ "MAGE" "" .mage 30 "STORM", Behaviour.none⟩,
      ⟨Card.power ⟨2⟩ "STORM" "" 0,
        { Behaviour.none with effects := [.collect .everyone, .damage .collected 1 false] }⟩,
      ⟨Card.minion ⟨3⟩ "WISP" "" 0 1 1, Behaviour.none⟩]
    [(.mage, ⟨1⟩)] (by decide) (by decide)

def Settings.storms : Settings :=
  { Settings.standard with decks := [["WISP"], []], shuffleDecks := false }

namespace Play

open Duel

/-- Whether the next piece of work is a list whose first effect collects three. -/
def collectsThree (duel : Duel) : Bool :=
  duel.suspended.isNone && match duel.agenda.next? with
    | some (.run ⟨(effect :: rest) :: outer, context, scratch⟩, others) =>
      (perform ⟨rest :: outer, context, scratch⟩ effect).ends { duel with agenda := others }
        fun answer left => (select answer.2 .collected).ends left.updateAuras
          fun ids _ => ids.length = 3
    | _ => false

/-- A hero power collects both heroes and a minion. -/
theorem exists_selection_storms :
    ∃ start duel resolution ids, Duel.create Settings.storms Catalogue.storms = .ok start ∧
      start.Underway resolution duel ∧
        select resolution .collected duel = .ok ids duel ∧ ids.length = 3 ∧ ids.Nodup ∧
          ∀ id ∈ ids, duel.entity? id ≠ none := by
  let power : Action := .heroPower none
  let prepared (duel : Duel) : Duel := (prepare .zero power).left (record .zero power duel)
  obtain ⟨start, after, created, runs, comes⟩ :=
    exists_of_outcome Settings.storms Catalogue.storms 100 [.start, .take .zero (.play ⟨4⟩)]
      (fun after => after.accepts .zero power && collectsThree (prepared after)) (by decide +kernel)
  obtain ⟨moments, all⟩ := exists_selection created
  have moment := moments 100 [.start, .take .zero (.play ⟨4⟩)]
  rw [afterCalls_of_runs runs] at moment
  obtain ⟨accepted, comes⟩ := Bool.and_eq_true_iff.mp comes
  have accepted := accepts_iff.mp accepted
  have ready : Moment start (prepared after) := .prepares (.records moment accepted) accepted
  unfold collectsThree at comes
  obtain ⟨free, comes⟩ := Bool.and_eq_true_iff.mp comes
  split at comes
  next effect rest outer context scratch others next =>
    obtain ⟨⟨outcome, resolution⟩, left, ran, comes⟩ := exists_of_ends comes
    obtain ⟨ids, later, selected, three⟩ := exists_of_ends comes
    have taken := Underway.runs ready (Option.isNone_iff_eq_none.mp free) next
    have underway := taken.performs rfl ran
    obtain ⟨-, selection⟩ := all _ _ underway
    obtain ⟨same, selects, distinct, known⟩ := selection .collected (by decide)
    cases selects.symm.trans selected
    exact ⟨start, _, resolution, ids, created, underway, selects, of_decide_eq_true three, distinct,
      known⟩
  · cases comes

end Play

end CardDuel
