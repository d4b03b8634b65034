import CardDuel.Proofs.Lawful

/-!
# Triggers that have fired

While no effect writes the tag that silences, every entity that ought to listen does: it
has exactly one live trigger.  The only exception is a trigger that fires once and has
fired since its entity last moved, changed hands or took on another form.
-/

namespace CardDuel

open Relation

/-! ## Effects that write a tag -/

namespace Effect

/-- Whether an effect, or one in its nested lists, writes a tag of entities. -/
inductive Writes (tag : Tag) : Effect → Prop
  | setTag (selector : Selector) (value : Int) : Writes tag (.setTag selector tag value)
  | whenFlag {value : Bool} {effects : List Effect} {effect : Effect} (member : effect ∈ effects)
      (writes : Writes tag effect) : Writes tag (.whenFlag value effects)
  | sequence {effects : List Effect} {effect : Effect} (member : effect ∈ effects)
      (writes : Writes tag effect) : Writes tag (.sequence effects)
  | repeated {times : Nat} {effects : List Effect} {effect : Effect} (member : effect ∈ effects)
      (writes : Writes tag effect) : Writes tag (.repeated times effects)

def Spares (tag : Tag) (effect : Effect) : Prop :=
  ¬ effect.Writes tag

instance hereditary_spares (tag : Tag) : Hereditary (Spares tag) where
  attack := nofun
  whenFlag spares _ member writes := spares (.whenFlag member writes)
  sequence spares _ member writes := spares (.sequence member writes)
  repeated spares _ member writes := spares (.repeated member writes)

end Effect

/-- Whether no card of a catalogue writes a tag of entities. -/
def Catalogue.Spares (catalogue : Catalogue) (tag : Tag) : Prop :=
  ∀ entry ∈ catalogue.entries, entry.behaviour.Fits (Effect.Spares tag)

/-! ## The log of firings -/

/-- What can happen to the triggers of an entity. -/
inductive Mark
  /-- All are struck out, and the one that is due starts. -/
  | anew
  /-- One that fires once has fired. -/
  | fired
deriving DecidableEq

/-- What happened to whose triggers along a run, the newest first. -/
abbrev TriggerLog := List (EntityId × Mark)

namespace TriggerLog

/-- Whether the trigger of an entity has fired since it started. -/
def Fired (log : TriggerLog) (id : EntityId) : Prop :=
  log.lookup id = some .fired

variable {log : TriggerLog} {id other : EntityId} {mark : Mark}

theorem fired_cons_self : Fired ((id, mark) :: log) id ↔ mark = .fired := by
  simp [Fired]

theorem fired_cons_of_ne (away : id ≠ other) : Fired ((other, mark) :: log) id ↔ log.Fired id := by
  rw [Fired, List.lookup_cons, beq_false_of_ne away]
  rfl

end TriggerLog

namespace Duel

variable {duel before after start : Duel} {id : EntityId} {entity : Entity} {log : TriggerLog}

/-- What a change means for the triggers, as far as it silences nobody but by silencing. -/
inductive Marks : Duel → Option (EntityId × Mark) → Duel → Prop
  | move (duel : Duel) {id : EntityId} {entity : Entity} {goal : ZoneKind}
      (placement : Placement) (known : duel.entity? id = some entity)
      (allowed : ¬ (entity.kind = .spell ∧ goal = .play))
      (room : usesSlot entity.kind goal = true ∨ entity.zone = goal ∨
        duel.zones.isFull entity.owner goal = false) :
      Marks duel (some (id, .anew)) (duel.relocate id entity goal placement)
  | handOver (duel : Duel) {id : EntityId} {entity : Entity} {owner : Player}
      (known : duel.entity? id = some entity) (other : entity.owner ≠ owner) :
      Marks duel (some (id, .anew))
        ((duel.leaveZone id .unplaced).updateEntity id fun entity =>
          { entity with owner := owner })
  | create (duel : Duel) (owner : Player) {id : CardId} {card : Card} {kind : EntityKind}
      (listed : duel.catalogue.card? id = some card)
      (instantiable : EntityKind.ofCardType? card.cardType = some kind) :
      Marks duel (some (duel.arena.nextId, .anew))
        { duel with arena := duel.arena.push (Entity.fresh owner card kind) }
  | transform (duel : Duel) {id : EntityId} {entity : Entity} {form : CardId} {card : Card}
      (known : duel.entity? id = some entity) (listed : duel.catalogue.card? form = some card)
      (kind : EntityKind.ofCardType? card.cardType = some entity.kind) :
      Marks duel (some (id, .anew))
        (((duel.dropTriggers id).updateEntity id fun entity =>
          entity.replacedBy card).startTriggers id entity.zone)
  | silence (duel : Duel) (id : EntityId) :
      Marks duel none ((duel.updateEntity id Entity.silence).dropTriggers id)
  | fire (duel : Duel) {id : TriggerId} {trigger : Trigger}
      (live : duel.triggers.get? id = some trigger) (once : trigger.rule.once = true) :
      Marks duel (some (trigger.owner, .fired))
        { duel with triggers := duel.triggers.unregister id }
  | keep {before after : Duel} (change : Change before after)
      (triggers : after.triggers = before.triggers)
      (stances : ∀ id, after.stance? id = before.stance? id) : Marks before none after

/-- A run from a duel to another one, with the log of its firings. -/
inductive Account (start : Duel) : TriggerLog → Duel → Prop
  | start : Account start [] start
  | step {log : TriggerLog} {mark : Option (EntityId × Mark)} {before after : Duel}
      (account : Account start log before) (marks : Marks before mark after) :
      Account start (mark.toList ++ log) after

/-- Every entity that ought to listen has exactly one live trigger, unless that fires once and has
fired. -/
def Listens (duel : Duel) (log : TriggerLog) : Prop :=
  ∀ id rule, duel.Due id rule →
    (duel.triggers.ownedBy id).length = 1 ∨ rule.once = true ∧ log.Fired id

theorem Marks.change {mark : Option (EntityId × Mark)} (marks : Marks before mark after) :
    Change before after := by
  cases marks with
  | move placement known allowed room =>
      exact .shift (.relocate before placement known allowed room)
  | handOver known other => exact .shift (.handOver before known other)
  | create owner listed instantiable => exact .shift (.create before owner listed instantiable)
  | transform known listed kind => exact .shift (.stir (.transform before known listed kind))
  | silence id => exact .shift (.stir (.silence before id))
  | fire live once => exact .shift (.stir (.unregister before _))
  | keep change triggers stances => exact change

theorem due_iff {rule : TriggerRule} : duel.Due id rule ↔
    ∃ stance, duel.stance? id = some stance ∧ stance.silenced = false ∧
      duel.ruleOf stance.card = some rule ∧ rule.zone = stance.zone ∧ rule.zone ≠ .unplaced := by
  constructor
  · rintro ⟨entity, known, spoken, ruled, zone⟩
    exact ⟨entity.stance, congrArg (Option.map Entity.stance) known, spoken, ruled, zone⟩
  · rintro ⟨stance, stands, spoken, ruled, zone⟩
    obtain ⟨entity, known, rfl⟩ := Option.map_eq_some_iff.mp stands
    exact ⟨entity, known, spoken, ruled, zone⟩

theorem Due.congr {rule : TriggerRule} (due : after.Due id rule)
    (catalogue : after.catalogue = before.catalogue)
    (stances : after.stance? id = before.stance? id) : before.Due id rule := by
  obtain ⟨stance, stands, spoken, ruled, zone⟩ := due_iff.mp due
  refine due_iff.mpr ⟨stance, stances.symm.trans stands, spoken, ?_, zone⟩
  rw [ruleOf, ← catalogue]
  exact ruled

/-- An entity whose triggers start anew listens if it ought to, and the others go on as before. -/
theorem Listens.restarts {later : TriggerLog} (listens : before.Listens log)
    (kept : before.triggers.WellKept) (restarts : Restarts before after id)
    (others : ∀ other, other ≠ id → log.Fired other → later.Fired other) :
    after.Listens later := by
  intro other rule due
  by_cases own : other = id
  · rcases restarts.triggers with ⟨-, idle⟩ | ⟨calling, started, -, -, -, registered⟩
    · exact absurd (own ▸ due) (idle rule)
    · left
      rw [registered, TriggerBook.ownedBy_register, kept.ownedBy_dropOwner, if_pos own, if_pos own]
      rfl
  · have untouched : after.triggers.ownedBy other = before.triggers.ownedBy other := by
      rcases restarts.triggers with ⟨dropped, -⟩ | ⟨calling, started, -, -, -, registered⟩
      · rw [dropped, kept.ownedBy_dropOwner, if_neg own]
      · rw [registered, TriggerBook.ownedBy_register, if_neg own, kept.ownedBy_dropOwner,
          if_neg own]
    rw [untouched]
    exact (listens other rule (due.congr restarts.catalogue (restarts.others other own))).imp_right
      fun fired => ⟨fired.1, others other own fired.2⟩

/-- When a trigger that fires once has fired, its owner need not listen any more. -/
theorem Listens.fire {trigger : Trigger} (listens : duel.Listens log) (listening : duel.Listening)
    (live : trigger ∈ duel.triggers.active) (once : trigger.rule.once = true) :
    ({ duel with triggers := duel.triggers.unregister trigger.id } : Duel).Listens
      ((trigger.owner, .fired) :: log) := by
  intro id rule due
  have dueBefore : duel.Due id rule := due
  by_cases own : id = trigger.owner
  · right
    obtain ⟨entity, known, -, ruled, -⟩ := dueBefore
    obtain ⟨held, knownHeld, -, -, listed⟩ := listening.agree.owned trigger live
    rw [own] at known
    cases known.symm.trans knownHeld
    cases ruled.symm.trans listed
    rw [own]
    exact ⟨once, TriggerLog.fired_cons_self.mpr rfl⟩
  · change ((duel.triggers.unregister trigger.id).ownedBy id).length = 1 ∨ _
    rw [listening.kept.ownedBy_unregister live own, TriggerLog.fired_cons_of_ne own]
    exact listens id rule dueBefore

theorem Listens.marks {mark : Option (EntityId × Mark)} (listens : before.Listens log)
    (sound : before.WellPlaced) (listening : before.Listening) (marks : Marks before mark after) :
    after.Listens (mark.toList ++ log) := by
  have anew (id : EntityId) {after : Duel} (restarts : Restarts before after id) :
      after.Listens ((id, .anew) :: log) :=
    listens.restarts listening.kept restarts fun other away fired =>
      (TriggerLog.fired_cons_of_ne away).mpr fired
  cases marks with
  | @move id entity goal placement known allowed room =>
      exact anew id (restarts_relocate placement sound listening known room)
  | @handOver id entity owner known other =>
      exact anew id (restarts_handOver owner sound listening known)
  | create owner listed instantiable => exact anew before.arena.nextId (restarts_create listening)
  | @transform id entity form card known listed kind => exact anew id (restarts_transform known)
  | silence id =>
      exact listens.restarts listening.kept (restarts_silence before id) fun _ _ fired => fired
  | @fire id trigger live once =>
      have same : trigger.id = id := by simpa using List.find?_some live
      rw [← same]
      exact listens.fire listening (List.mem_of_find?_eq_some live) once
  | keep change triggers stances =>
      intro id rule due
      rw [triggers]
      exact listens id rule (due.congr change.fixed.2 (stances id))

theorem Account.attentive (account : Account start log duel) (attentive : start.Attentive) :
    duel.Attentive := by
  induction account with
  | start => exact attentive
  | step _ marks ih => exact marks.change.attentive ih

/-- Along every account of a run the entities listen if they did at first. -/
theorem Account.listens (account : Account start log duel) (attentive : start.Attentive)
    (listens : start.Listens []) : duel.Listens log := by
  induction account with
  | start => exact listens
  | step account marks ih =>
      obtain ⟨placed, listening⟩ := account.attentive attentive
      exact ih.marks placed listening marks

/-! ## Runs without a silencing tag -/

/-- The changes of a duel in which nothing writes the tag that silences. -/
abbrev Marked := Lawful (Effect.Spares .silenced)

instance : Changing Marked (Effect.Spares .silenced) where
  sets _ := nofun

/-- An account goes on along a change that leaves triggers and stances alone. -/
theorem Account.keep (account : Account start log before) (change : Change before after)
    (triggers : after.triggers = before.triggers)
    (stances : ∀ id, after.stance? id = before.stance? id) : Account start log after :=
  account.step (.keep change triggers stances)

theorem Account.announce (account : Account start log duel) (event : Event) :
    Account start log (duel.announce event) :=
  account.keep (.shift (.stir (.announce duel event))) rfl fun _ => rfl

theorem Account.addReaction (account : Account start log duel) (work : Work) :
    Account start log (duel.addReaction work) :=
  account.keep (.shift (.stir (.react duel work))) rfl fun _ => rfl

theorem Account.interred (account : Account start log duel)
    (known : duel.entity? id = some entity) :
    ∃ log, Account start log (duel.interred id entity) := by
  unfold Duel.interred
  split
  · exact ⟨log, account⟩
  next stays =>
    exact ⟨_, account.step (.move duel .top known (fun both => nomatch both.2)
      (not_turnsAway_iff.mp stays))⟩

theorem Account.buried (account : Account start log duel)
    (known : duel.entity? id = some entity) :
    ∃ log, Account start log (duel.buried id entity) := by
  obtain ⟨log, rests⟩ := account.interred known
  refine ⟨log, Account.announce ?_ _⟩
  unfold mourned
  split
  · exact rests
  · exact rests.addReaction _

/-- An account goes on along every change that silences nobody but by silencing. -/
theorem Account.marked (account : Account start log before)
    (tidy : before.Tidy (Effect.Spares .silenced)) (marked : Marked before after) :
    ∃ log, Account start log after := by
  have stirs {after : Duel} (stir : Stir before after) (triggers : after.triggers = before.triggers)
      (stances : ∀ id, after.stance? id = before.stance? id) : ∃ log, Account start log after :=
    ⟨log, account.keep (.shift (.stir stir)) triggers stances⟩
  have directs {after : Duel} (change : Change before after)
      (triggers : after.triggers = before.triggers) (arena : after.arena = before.arena) :
      ∃ log, Account start log after := by
    refine ⟨log, account.keep change triggers fun id => ?_⟩
    unfold stance? entity?
    rw [arena]
  obtain ⟨demise, law⟩ := marked
  cases law with
  | unruly after untidy => exact absurd tidy untidy
  | roll dice => exact stirs (.roll before dice) rfl fun _ => rfl
  | relocate placement known allowed room =>
      exact ⟨_, account.step (.move before placement known allowed room)⟩
  | create owner listed instantiable =>
      exact ⟨_, account.step (.create before owner listed instantiable)⟩
  | handOver known other => exact ⟨_, account.step (.handOver before known other)⟩
  | shuffle player container reordered =>
      exact ⟨log, account.keep (.shift (.shuffle before player container reordered)) rfl
        (stance?_shuffle tidy.attentive.placed container reordered)⟩
  | outlive player known =>
      obtain ⟨log, rests⟩ := account.interred known
      exact ⟨log, rests.announce _⟩
  | revise id routine =>
      exact stirs (.revise before id routine.revision) rfl fun other =>
        before.map_updateEntity id other routine.stance
  | heal amount known =>
      exact stirs (.heal before amount known) rfl fun other =>
        before.map_updateEntity _ other ((Entity.Revision.add .damage _).stance_of_silenced
          fun entity => entity.get_addTag _ (by decide))
  | silence id => exact ⟨_, account.step (.silence before id)⟩
  | transform known listed kind => exact ⟨_, account.step (.transform before known listed kind)⟩
  | auras => exact stirs (.auras before) rfl before.stance?_updateAuras
  | expire => exact stirs (.expire before) rfl before.stance?_expireEnchantments
  | fall fallen => exact stirs (.fall before fallen) rfl (before.stance?_markFallen fallen)
  | adjust player routine => exact stirs (.adjust before player routine.1) rfl fun _ => rfl
  | announce living => exact ⟨log, account.announce _⟩
  | remind living => exact ⟨log, account.addReaction _⟩
  | @write id selector tag value allowed =>
      have spared : tag ≠ .silenced := fun same => allowed (same ▸ .setTag selector value)
      exact stirs (.revise before id (.write tag value)) rfl fun other =>
        before.map_updateEntity id other ((Entity.Revision.write tag value).stance_of_silenced
          fun entity => entity.get_setTag value spared.symm)
  | award player allowed => exact stirs (.adjust before player (.write _ _)) rfl fun _ => rfl
  | lend player allowed => exact stirs (.adjust before player (.temporary _ _)) rfl fun _ => rfl
  | bury known words => exact account.buried known
  | fire live once => exact ⟨_, account.step (.fire before live once)⟩
  | choose player choice => exact directs (.choose before player choice) rfl rfl
  | suspend allowed => exact directs (.suspend before _) rfl rfl
  | schedule phases => exact directs (.schedule before _) rfl rfl
  | begin next => exact directs (.begin before next) rfl rfl
  | herald next living =>
      obtain ⟨log, begun⟩ := directs (.begin before next) rfl rfl
      exact ⟨log, begun.announce _⟩
  | clear => exact directs (.clear before) rfl rfl
  | finish losers => exact directs (.finish before losers) rfl rfl
  | concede player => exact directs (.concede before player) rfl rfl
  | enter reached => exact directs (.enter before reached) rfl rfl
  | count => exact directs (.count before) rfl rfl
  | pass player => exact directs (.pass before player) rfl rfl
  | record player action => exact directs (.record before player action) rfl rfl
  | refill player allowed => exact stirs (.adjust before player (.refill _)) rfl fun _ => rfl

/-- Changes from a tidy duel give an account as long as nothing writes the tag that silences. -/
theorem exists_account (marked : ReflTransGen Marked start after)
    (tidy : start.Tidy (Effect.Spares .silenced)) : ∃ log, Account start log after :=
  (Lawful.along (fun duel => ∃ log, Account start log duel) marked tidy ⟨[], .start⟩
    fun tidy ⟨_, account⟩ lawful => account.marked tidy lawful).2

theorem bare_listens {settings : Settings} {catalogue : Catalogue}
    (begun : Duel.bare settings catalogue = .ok duel) : duel.Listens [] := by
  obtain ⟨first, dice, zero, one, rfl⟩ := bare_eq begun
  rintro id rule ⟨entity, known, -⟩
  cases (Arena.get?_empty id).symm.trans known

/-- Whatever is asked of a duel that was set up, the live triggers agree with the table; and when no
card writes the tag that silences, the entities listen according to every account of what happened
since the table was bare. -/
theorem triggersAgree_afterCalls {settings : Settings} {catalogue : Catalogue}
    (created : Duel.create settings catalogue = .ok duel) (allowance : Nat) (calls : List Call) :
    (duel.afterCalls allowance calls).TriggersAgree ∧
      (catalogue.Spares .silenced → ∃ bare, Duel.bare settings catalogue = .ok bare ∧
        (∃ log, Account bare log (duel.afterCalls allowance calls)) ∧
          ∀ log, Account bare log (duel.afterCalls allowance calls) →
            (duel.afterCalls allowance calls).Listens log) := by
  obtain ⟨bare, begun, quiets⟩ := create_quiet created
  have sound := bare_wellPlaced begun
  have listening := bare_listening begun
  have reaches := (Shift.changes (Quiet.shifts quiets)).trans
    (reaches_afterCalls duel allowance calls)
  refine ⟨(listening_of_reaches reaches sound listening).agree, fun spared => ⟨bare, begun, ?_, ?_⟩⟩
  · obtain ⟨same, begunToo, placed⟩ : ∃ bare, Duel.bare settings catalogue = .ok bare ∧
        ReflTransGen Marked bare duel := exists_bare created
    cases begun.symm.trans begunToo
    exact exists_account (placed.trans (duel.steps_afterCalls allowance calls))
      (bare_tidy begun spared)
  · exact fun log account => account.listens ⟨sound, listening⟩ (bare_listens begun)

end Duel

/-- A sentry that sounds an alarm at the end of the first turn that it sees: it gains armor for its
player, once. -/
def Catalogue.sentries : Catalogue :=
  .ofEntries
    [⟨Card.hero ⟨1⟩ "HERO" "" .mage 30 "POWER", Behaviour.none⟩,
      ⟨Card.power ⟨2⟩ "POWER" "" 2, Behaviour.none⟩,
      ⟨Card.minion ⟨3⟩ "SENTRY" "" 0 1 1,
        { Behaviour.none with
          trigger := some ⟨.turnEnd, .friendly, [.gainArmor 1], none, true, .play⟩ }⟩]
    [(.mage, ⟨1⟩)] (by decide) (by decide)

/-- Player zero draws the sentry. -/
def Settings.sentries : Settings :=
  { Settings.standard with decks := [["SENTRY"], []], shuffleDecks := false }

namespace Duel

theorem spares_sentries : Catalogue.sentries.Spares .silenced := by
  rw [Catalogue.Spares, Catalogue.sentries, Catalogue.entries_ofEntries]
  refine List.forall_mem_cons.mpr ⟨Behaviour.fits_none, List.forall_mem_cons.mpr
    ⟨Behaviour.fits_none, List.forall_mem_singleton.mpr ?_⟩⟩
  refine ⟨fun _ => nofun, fun _ => nofun, fun _ => nofun, ?_⟩
  rintro rule ⟨⟩ effect member
  rw [List.mem_singleton.mp member]
  exact nofun

/-- The sentry is played and the turn ends. -/
theorem triggersAgree_afterCalls_sentries :
    ∃ duel bare after, Duel.create Settings.sentries Catalogue.sentries = .ok duel ∧
      Catalogue.sentries.Spares .silenced ∧
        Duel.bare Settings.sentries Catalogue.sentries = .ok bare ∧
          duel.afterCalls 100 [.start, .take .zero (.play ⟨4⟩), .take .zero .endTurn] = after ∧
            after.TriggersAgree ∧ (∃ log, Account bare log after) ∧
              (∀ log, Account bare log after → after.Listens log) ∧
                (∃ rule, after.Due ⟨4⟩ rule) ∧ after.triggers.ownedBy ⟨4⟩ = [] := by
  obtain ⟨duel, after, created, runs, comes⟩ :=
    exists_of_outcome Settings.sentries Catalogue.sentries 100
      [.start, .take .zero (.play ⟨4⟩), .take .zero .endTurn]
      (fun after => (after.triggers.ownedBy ⟨4⟩).isEmpty &&
        (after.entity? ⟨4⟩).any fun entity => !entity.tags.has .silenced &&
          (after.triggerRule? entity).any fun rule =>
            rule.zone = entity.zone && rule.zone ≠ .unplaced) (by decide +kernel)
  simp only [Bool.and_eq_true, Option.any_eq_true, Bool.not_eq_true', decide_eq_true_eq,
    List.isEmpty_iff] at comes
  obtain ⟨idle, entity, known, spoken, rule, ruled, zone, placed⟩ := comes
  obtain ⟨agrees, listens⟩ := triggersAgree_afterCalls created 100
    [.start, .take .zero (.play ⟨4⟩), .take .zero .endTurn]
  obtain ⟨bare, begun, account, heard⟩ := listens spares_sentries
  have ends := afterCalls_of_runs runs
  rw [ends] at agrees account heard
  exact ⟨duel, bare, after, created, spares_sentries, begun, ends, agrees, account, heard,
    ⟨rule, entity, known, spoken, ruled, zone, placed⟩, idle⟩

end Duel

end CardDuel
