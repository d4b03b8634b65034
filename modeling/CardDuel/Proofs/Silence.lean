import CardDuel.Proofs.Bonuses
import CardDuel.Proofs.Keywords
import CardDuel.Proofs.Runs
import CardDuel.Proofs.Steadiness

/-!
# Silence

A silence takes the enchantments, the keywords and the triggers of an entity.  The tag that it
leaves does the rest for as long as it stays on, wherever the entity goes: no trigger of the entity
is registered, no pass looks for its aura, and it dies without a deathrattle.  What still waits for
one of its old triggers lapses, because handles are never given out twice.
-/

namespace CardDuel

open Relation

theorem Tags.get_clear_of_mem (tags : Tags) {which : List Tag} {tag : Tag} (member : tag ∈ which) :
    (tags.clear which).get tag = 0 := by
  induction which generalizing tags with
  | nil => cases member
  | cons first others ih =>
      by_cases later : tag ∈ others
      · exact ih (tags.set first 0) later
      · obtain rfl := (List.mem_cons.mp member).resolve_right later
        exact ((tags.set tag 0).get_clear later).trans (tags.get_set_self tag 0)

namespace Entity

variable {entity : Entity}

/-- An entity that has just been silenced: it has no enchantments, and of the keywords that a
silence takes just those that auras grant. -/
structure Stripped (entity : Entity) : Prop where
  silenced : entity.tags.get .silenced = 1
  unenchanted : entity.enchantments = []
  keywords : ∀ tag ∈ Tag.silenceable, entity.has tag = true ↔ tag ∈ entity.aura.grants

theorem stripped_silence (entity : Entity) : entity.silence.Stripped := by
  have unenchanted : entity.silence.enchantments = [] := enchantments_keepHealth _ entity
  refine ⟨(get_silenced_keepHealth _ entity).trans (Tags.get_set_self _ _ _), unenchanted,
    fun tag member => ?_⟩
  have apart : tag ≠ .damage ∧ tag ≠ .silenced := by
    constructor <;> rintro rfl <;> revert member <;> decide
  have lost : entity.silence.tags.get tag = 0 := by
    unfold silence
    rw [get_keepHealth _ _ apart.1, Tags.get_set, if_neg apart.2, Tags.get_clear_of_mem _ member]
  have bare : ¬ entity.silence.IsCharmed tag := by
    rintro ⟨mark, carried, -⟩
    rw [unenchanted] at carried
    cases carried
  have off : entity.silence.tags.has tag = false := by
    rw [Tags.has, lost]
    rfl
  rw [has_iff, off, or_iff_left bare, or_iff_right Bool.false_ne_true]

end Entity

namespace Duel

variable {settings : Settings} {catalogue : Catalogue}
variable {duel start before after now pass hushed : Duel} {past since later : Past}
variable {id other source : EntityId} {entity : Entity}

def Silent (duel : Duel) (id : EntityId) : Prop :=
  ∃ entity, duel.entity? id = some entity ∧ entity.tags.has .silenced = true

theorem silent_of_entity? (silent : duel.Silent id) (known : duel.entity? id = some entity) :
    entity.tags.has .silenced = true := by
  obtain ⟨held, knownHeld, silenced⟩ := silent
  cases known.symm.trans knownHeld
  exact silenced

theorem Silent.congr (silent : before.Silent id) (same : after.stance? id = before.stance? id) :
    after.Silent id := by
  obtain ⟨entity, known, silenced⟩ := silent
  unfold stance? at same
  rw [known] at same
  obtain ⟨held, knownHeld, stance⟩ := Option.map_eq_some_iff.mp same
  exact ⟨held, knownHeld, (congrArg Stance.silenced stance).trans silenced⟩

/-- Whether something holds all along a run, from its first duel to its last. -/
def Past.Throughout (holds : Duel → Prop) (past : Past) (now : Duel) : Prop :=
  holds now ∧ ∀ entry ∈ past, holds entry.1

theorem attentive_of_created (created : Duel.create settings catalogue = .ok start) :
    start.Attentive := by
  obtain ⟨bare, begun, reaches⟩ : ∃ bare, Duel.bare settings catalogue = .ok bare ∧
      ReflTransGen Change bare start := exists_bare created
  exact Change.attentive_of_reaches reaches (bare_attentive begun)

theorem Trace.reaches (trace : Trace start past after) : ReflTransGen Change start after := by
  induction trace with
  | start => exact .refl
  | beat _ beats ih => exact ih.tail beats.change

/-! ## Triggers -/

/-- When triggers start anew, nobody who is silenced gets one. -/
theorem Restarts.idle (restarts : Restarts before after other) (kept : before.triggers.WellKept)
    (silent : after.Silent id) (idle : before.triggers.ownedBy id = []) :
    after.triggers.ownedBy id = [] := by
  have dropped : (before.triggers.dropOwner other).ownedBy id = [] := by
    rw [kept.ownedBy_dropOwner, idle, ite_self]
  by_cases itself : id = other
  · subst itself
    obtain ⟨entity, known, silenced⟩ := silent
    rw [restarts.silent entity known silenced, dropped]
  · rcases restarts.triggers with ⟨same, -⟩ | ⟨calling, rule, -, -, -, same⟩
    · rw [same, dropped]
    · rw [same, TriggerBook.ownedBy_register, if_neg itself, dropped]

/-- A change that leaves an entity silenced gives it no trigger. -/
theorem Change.idle (change : Change before after) (attentive : before.Attentive)
    (silent : after.Silent id) (idle : before.triggers.ownedBy id = []) :
    after.triggers.ownedBy id = [] := by
  rcases change.triggers attentive with ⟨other, restarts⟩ | ⟨struck, same⟩ | same
  · exact restarts.idle attentive.listening.kept silent idle
  · rw [same, TriggerBook.ownedBy, TriggerBook.active_unregister]
    have fewer := (List.filter_sublist (p := fun trigger : Trigger => trigger.id ≠ struck)
      (l := before.triggers.active)).filter fun trigger => decide (trigger.owner = id)
    exact List.eq_nil_of_sublist_nil (idle ▸ fewer)
  · rw [same, idle]

theorem Trace.idle (trace : Trace start past now) (attentive : start.Attentive)
    (silent : past.Throughout (·.Silent id) now) (idle : start.triggers.ownedBy id = []) :
    now.triggers.ownedBy id = [] := by
  induction trace with
  | start => exact idle
  | @beat past note before after trace beats ih =>
      obtain ⟨silentBefore, earlier⟩ := List.forall_mem_cons.mp silent.2
      exact beats.change.idle (trace.attentive attentive) silent.1 (ih ⟨silentBefore, earlier⟩)

/-- Whatever waits for a trigger lapses when the owner, who had it once, has none any more. -/
theorem Trace.lapses {entry : Duel × Option Event} {trigger : Trigger}
    (trace : Trace start past now) (attentive : start.Attentive) (member : entry ∈ past)
    (owned : trigger ∈ entry.1.triggers.ownedBy id) (idle : now.triggers.ownedBy id = [])
    (event : Event) : Play.doWork (.trigger trigger.id event) now = .ok () now := by
  obtain ⟨between, note⟩ := entry
  obtain ⟨listed, own⟩ := TriggerBook.mem_ownedBy.mp owned
  obtain ⟨later, earlier, rfl⟩ := List.append_of_mem member
  obtain ⟨comes, next, beats, goes⟩ := trace.parted
  have there : between.Attentive := comes.attentive attentive
  have rest : Trace between (later ++ [(between, note)]) now := (Trace.start.beat beats).trans goes
  have kept := there.listening.kept
  have struck : now.triggers.get? trigger.id = none := by
    cases live : now.triggers.get? trigger.id with
    | none => rfl
    | some held =>
        have old := (rest.succeeds there).live kept (kept.issued trigger listed) live
        cases (kept.get?_eq_some_iff.mpr ⟨listed, rfl⟩).symm.trans old
        have still := TriggerBook.mem_ownedBy.mpr ⟨List.mem_of_find?_eq_some live, own⟩
        rw [idle] at still
        cases still
  exact doWork_trigger_of_struck struck event

/-! ## Auras -/

/-- Who is silenced contributes nothing. -/
theorem contributionsOf_of_silent (silent : duel.Silent source) (player : Player) :
    duel.contributionsOf player source = [] := by
  obtain ⟨entity, known, silenced⟩ := silent
  unfold contributionsOf projected?
  simp only [known, silenced, Bool.true_or, if_true]

/-- What all sources but one contribute. -/
def contributionsBut (duel : Duel) (source : EntityId) : List (EntityId × Modifier) :=
  Player.both.flatMap fun player =>
    ((duel.auraSources player).filter fun other => other ≠ source).flatMap fun other =>
      duel.contributionsOf player other

theorem contributionsBut_of_silent (silent : duel.Silent source) :
    duel.contributionsBut source = duel.contributions := by
  refine List.flatMap_congr fun player _ => ?_
  induction duel.auraSources player with
  | nil => rfl
  | cons first sources ih =>
      rw [List.flatMap_cons, ← ih]
      by_cases itself : first = source
      · rw [List.filter_cons_of_neg (by simpa using itself), itself,
          contributionsOf_of_silent silent, List.nil_append]
      · rw [List.filter_cons_of_pos (by simpa using itself), List.flatMap_cons]

/-- Whether nothing reaches anybody but what all sources but one contributed to one of some
passes. -/
def LitWithout (duel : Duel) (source : EntityId) (passes : List Duel) : Prop :=
  ∀ id entity, duel.entity? id = some entity → entity.aura = AuraTotal.zero ∨
    ∃ pass ∈ passes, entity.aura = totalFor (pass.contributionsBut source) id

theorem litWithout_updateAuras {passes : List Duel} (silent : pass.Silent source) :
    pass.updateAuras.LitWithout source (pass :: passes) := by
  intro id entity reached
  refine .inr ⟨pass, List.mem_cons_self, ?_⟩
  rw [entity?_updateAuras] at reached
  obtain ⟨old, -, rfl⟩ := Option.map_eq_some_iff.mp reached
  rw [Entity.aura_withAura, contributionsBut_of_silent silent]

theorem LitWithout.mono {passes more : List Duel} (lit : duel.LitWithout source passes)
    (some : passes ⊆ more) : duel.LitWithout source more := by
  intro id entity known
  rcases lit id entity known with none' | ⟨pass, member, total⟩
  · exact .inl none'
  · exact .inr ⟨pass, some member, total⟩

/-- From a pass on, a silenced source reaches nobody. -/
theorem Trace.litWithout (trace : Trace pass.updateAuras later now)
    (silentPass : pass.Silent source) (silent : later.Throughout (·.Silent source) now) :
    now.LitWithout source (pass :: later.map Prod.fst) := by
  induction trace with
  | start => exact litWithout_updateAuras silentPass
  | @beat later note before after trace beats ih =>
      obtain ⟨silentBefore, earlier⟩ := List.forall_mem_cons.mp silent.2
      rcases beats.change.fades with rfl | fades
      · have lit : before.updateAuras.LitWithout source [before] :=
          litWithout_updateAuras silentBefore
        refine lit.mono ?_
        simp
      · have lit : after.LitWithout source (pass :: later.map Prod.fst) := by
          intro id entity known
          rcases fades id entity known with none' | ⟨old, knownOld, same⟩
          · exact .inl none'
          · rw [← same]
            exact ih ⟨silentBefore, earlier⟩ id old knownOld
        refine lit.mono ?_
        simp

/-! ## Deathrattles -/

theorem lastWords_of_silenced (silenced : entity.tags.has .silenced = true) :
    duel.lastWords entity = [] :=
  if_pos silenced

/-- A death pass queues no effects but the deathrattles of those who have one. -/
theorem exists_pass_rattling (created : Duel.create settings catalogue = .ok start)
    (reaches : ReflTransGen Change start before) :
    ∃ after, Play.processDeaths before = .ok () after ∧
      ∀ resolution, Work.run resolution ∈ after.agenda.reactions →
        Work.run resolution ∈ before.agenda.reactions ∨
          ∃ id entity, before.entity? id = some entity ∧ before.lastWords entity ≠ [] ∧
            resolution = before.rattle id entity := by
  cases running : before.isOver with
  | true => exact ⟨before, Play.processDeaths_of_over running, fun _ => .inl⟩
  | false =>
      obtain ⟨mid, ran, reaps⟩ := exists_pass created reaches running
      refine ⟨_, ran, fun resolution queued => ?_⟩
      split at queued
      · rw [reaps.reactions, List.mem_append, List.mem_flatMap] at queued
        rcases queued with old | ⟨entry, -, owed⟩
        · exact .inl old
        unfold dirge at owed
        split at owed
        next entity held known _ =>
          rcases List.mem_append.mp owed with rattles | alerts
          · obtain ⟨rattle, rattles, same⟩ := List.mem_map.mp rattles
            cases same
            rw [Demise.rattles] at rattles
            split at rattles
            · cases rattles
            next spoken =>
              exact .inr ⟨entry.1, entity, known, List.isEmpty_iff.not.mp spoken,
                List.mem_singleton.mp rattles⟩
          · obtain ⟨trigger, -, same⟩ := List.mem_map.mp alerts
            cases same
        · cases owed
      · cases queued

/-! ## As long as the tag stays on -/

/-- What a silence comes to at a later time in a match, if the entity has been silenced ever since:
after the past up to the silence and what has come since. -/
structure Muted (past since : Past) (now : Duel) (id : EntityId) : Prop where
  idle : now.triggers.ownedBy id = []
  /-- Whatever waits for a trigger that the entity ever had does nothing. -/
  lapses : ∀ entry ∈ since ++ past, ∀ trigger ∈ entry.1.triggers.ownedBy id, ∀ event,
    Play.doWork (.trigger trigger.id event) now = .ok () now
  dark : ∀ player, now.contributionsOf player id = []
  /-- If there was a pass since, nothing reaches anybody but what others contributed then or
  later. -/
  unlit : ∀ later pass note earlier, since = later ++ (pass, note) :: earlier →
    Trace pass.updateAuras later now → now.LitWithout id (pass :: later.map Prod.fst)
  /-- When it is buried, nothing is queued but the triggers that react to its death. -/
  dies : ∀ entity, now.entity? id = some entity → ∃ after, Play.bury id now = .ok () after ∧
    Death.IsUnanswered ⟨now, .burial id entity, after⟩
  /-- A death pass queues the deathrattles of others only. -/
  passes : ∃ after, Play.processDeaths now = .ok () after ∧
    ∀ resolution, Work.run resolution ∈ after.agenda.reactions →
      Work.run resolution ∈ now.agenda.reactions ∨
        ∃ other entity, other ≠ id ∧ now.entity? other = some entity ∧
          resolution = now.rattle other entity

/-- Along every run in which an entity is silenced throughout, the silence lasts. -/
theorem Trace.muted (created : Duel.create settings catalogue = .ok start)
    (comes : Trace start past before) (goes : Trace before since now)
    (silent : since.Throughout (·.Silent id) now) (idle : before.triggers.ownedBy id = []) :
    Muted past since now id := by
  have attentive : start.Attentive := attentive_of_created created
  have whole : Trace start (since ++ past) now := comes.trans goes
  have idleNow := goes.idle (comes.attentive attentive) silent idle
  refine ⟨idleNow, fun entry member trigger owned =>
      whole.lapses attentive member owned idleNow,
    contributionsOf_of_silent silent.1, ?_, fun entity known => ?_, ?_⟩
  · rintro later pass note earlier rfl further
    have inside := silent.2
    refine further.litWithout (inside (pass, note) (by simp)) ⟨silent.1, fun entry member => ?_⟩
    exact inside entry (List.mem_append_left _ member)
  · refine ⟨now.buried id entity, Play.bury_eq known, ?_⟩
    have words : now.lastWords entity = [] :=
      lastWords_of_silenced (silent_of_entity? silent.1 known)
    have queued := reactions_buried known
    unfold dirge at queued
    rw [known] at queued
    dsimp only at queued
    rw [Demise.rattles, words] at queued
    exact queued
  · obtain ⟨after, ran, rattling⟩ := exists_pass_rattling created whole.reaches
    refine ⟨after, ran, fun resolution queued => ?_⟩
    rcases rattling resolution queued with old | ⟨other, entity, known, words, same⟩
    · exact .inl old
    · refine .inr ⟨other, entity, ?_, known, same⟩
      rintro rfl
      exact words (lastWords_of_silenced (silent_of_entity? silent.1 known))

theorem ownedBy_silenced (attentive : before.Attentive) (id : EntityId) :
    ((before.updateEntity id Entity.silence).dropTriggers id).triggers.ownedBy id = [] :=
  (attentive.listening.kept.ownedBy_dropOwner id id).trans (if_pos rfl)

/-! ## Silencing whoever is selected -/

theorem beats_silence (ran : Play.silence id before = .ok () hushed) : Beats before none hushed := by
  obtain ⟨entity, known, rfl⟩ := Play.exists_of_silence ran
  exact .keep (.shift (.stir (.silence before id))) fun _ waits => waits

/-- On the way from one duel to another an entity is silenced, and it is left stripped. -/
structure Hushes (before left : Duel) (id : EntityId) : Prop where
  silenced : ∃ earlier asked hushed later, Trace before earlier asked ∧
    Play.silence id asked = .ok () hushed ∧ Trace hushed later left
  stripped : ∃ entity, left.entity? id = some entity ∧ entity.Stripped

/-- Whoever is stripped stays so when somebody is silenced. -/
theorem stripped_of_silence (ran : Play.silence other before = .ok () hushed)
    (stripped : ∃ entity, before.entity? id = some entity ∧ entity.Stripped) :
    ∃ entity, hushed.entity? id = some entity ∧ entity.Stripped := by
  obtain ⟨entity, known, stripped⟩ := stripped
  obtain ⟨_, -, rfl⟩ := Play.exists_of_silence ran
  change ∃ entity, (before.updateEntity other Entity.silence).entity? id = some entity ∧ _
  rw [entity?_updateEntity, known]
  split
  · exact ⟨_, rfl, entity.stripped_silence⟩
  · exact ⟨entity, rfl, stripped⟩

theorem stripped_self (ran : Play.silence id before = .ok () hushed) :
    ∃ entity, hushed.entity? id = some entity ∧ entity.Stripped := by
  obtain ⟨entity, known, rfl⟩ := Play.exists_of_silence ran
  refine ⟨entity.silence, ?_, entity.stripped_silence⟩
  change (before.updateEntity id Entity.silence).entity? id = _
  rw [entity?_updateEntity, if_pos rfl, known]
  rfl

/-- Silencing one after the other strips them all, and strips nobody less. -/
theorem ensures_forM_silence (ids : List EntityId) (before : Duel) :
    (ids.forM Play.silence).Ensures before fun _ left => (∃ past, Trace before past left) ∧
      (∀ id, (∃ entity, before.entity? id = some entity ∧ entity.Stripped) →
        ∃ entity, left.entity? id = some entity ∧ entity.Stripped) ∧
      ∀ id ∈ ids, before.Hushes left id := by
  induction ids generalizing before with
  | nil => exact ⟨⟨[], .start⟩, fun _ stripped => stripped, fun _ => nofun⟩
  | cons first ids ih =>
      refine Play.Ensures.bind (Play.ensures_of_ok fun _ _ ran => ran) fun _ hushed ran => ?_
      refine (ih hushed).mono fun _ left rest => ?_
      obtain ⟨⟨past, goes⟩, strips, hushes⟩ := rest
      have begins : Trace before [(before, none)] hushed := Trace.start.beat (beats_silence ran)
      refine ⟨⟨_, begins.trans goes⟩, fun id stripped => strips id (stripped_of_silence ran stripped),
        List.forall_mem_cons.mpr ⟨?_, fun id member => ?_⟩⟩
      · exact ⟨⟨_, before, hushed, past, .start, ran, goes⟩, strips first (stripped_self ran)⟩
      · obtain ⟨⟨earlier, asked, next, later, comes, silences, further⟩, stripped⟩ := hushes id member
        exact ⟨⟨_, asked, next, later, begins.trans comes, silences, further⟩, stripped⟩

/-- The effect silences whoever is selected. -/
theorem exists_hushes_of_perform {resolution : Resolution} {selector : Selector}
    {answer : Outcome × Resolution} {left : Duel}
    (ran : Play.perform resolution (.silence selector) before = .ok answer left) :
    ∃ ids, Play.select resolution selector before = .ok ids before ∧
      ∀ id ∈ ids, before.Hushes left id := by
  have named : selector ≠ .nothing := by
    rintro rfl
    cases ran
  have selects : Play.select resolution selector before = _ := Play.select_eq named before
  have hushes : (Play.perform resolution (.silence selector)).Ensures before fun _ left =>
      ∀ id ∈ (before.named resolution.context resolution.scratch selector).filter
        before.arena.contains, before.Hushes left id := by
    rw [Play.perform]
    refine Play.Ensures.bind ?_ fun _ _ hushes => hushes
    refine Play.Ensures.bind (Play.ensures_of_ok fun _ _ ran => ran) fun ids seen ran => ?_
    cases selects.symm.trans ran
    exact (ensures_forM_silence _ _).mono fun _ _ all => all.2.2
  exact ⟨_, selects, hushes.of_ok ran⟩

/-- Whatever is done with a duel that was set up is a run from it, and a run comes to wherever a list
of effects is on its way.  There the effect silences whoever is selected, one after the other.  When
a run comes to silence an entity, the entity is stripped at once, and from then on it is muted in
every duel up to which its tag has stayed on. -/
theorem muted_of_silence (created : Duel.create settings catalogue = .ok duel) :
    (∀ allowance deeds, ∃ past, Trace duel past (duel.afterDeeds allowance deeds)) ∧
      (∀ resolution before, duel.Underway resolution before → ∃ past, Trace duel past before) ∧
      (∀ resolution selector before answer left,
        Play.perform resolution (.silence selector) before = .ok answer left →
          ∃ ids, Play.select resolution selector before = .ok ids before ∧
            ∀ id ∈ ids, before.Hushes left id) ∧
      ∀ past before hushed id, Trace duel past before → Play.silence id before = .ok () hushed →
        (∃ entity, before.entity? id = some entity ∧ hushed.entity? id = some entity.silence ∧
            entity.silence.Stripped ∧ entity.silence.aura = entity.aura) ∧
          Trace duel ((before, none) :: past) hushed ∧
            ∀ since now, Trace hushed since now → since.Throughout (·.Silent id) now →
              Muted ((before, none) :: past) since now id := by
  have attentive : duel.Attentive := attentive_of_created created
  refine ⟨fun allowance deeds => exists_trace (duel.steps_afterDeeds allowance deeds),
    fun _ _ underway => underway.exists_trace attentive,
    fun _ _ _ _ _ ran => exists_hushes_of_perform ran, ?_⟩
  intro past before hushed id comes ran
  have silences : Beats before none hushed := beats_silence ran
  obtain ⟨entity, known, rfl⟩ := Play.exists_of_silence ran
  refine ⟨⟨entity, known, ?_, entity.stripped_silence, Entity.aura_keepHealth _ entity⟩,
    comes.beat silences, fun since now goes silent => ?_⟩
  · change (before.updateEntity id Entity.silence).entity? id = _
    rw [entity?_updateEntity, if_pos rfl, known]
    rfl
  · exact Trace.muted created (comes.beat silences) goes silent
      (ownedBy_silenced (comes.attentive attentive) id)

end Duel

/-- A banshee that has taunt, makes the other minions of its player stronger, and gives armor when a
turn ends and when it dies. -/
def Catalogue.banshees : Catalogue :=
  .ofEntries
    [⟨Card.hero ⟨1⟩ "HERO" "" .mage 30 "POWER", Behaviour.none⟩,
      ⟨Card.power ⟨2⟩ "POWER" "" 2, Behaviour.none⟩,
      ⟨{ Card.minion ⟨3⟩ "BANSHEE" "" 0 1 1 with tags := Tags.empty.set .taunt 1 },
        { Behaviour.none with
          deathrattle := [.gainArmor 1]
          trigger := some ⟨.turnEnd, .everyone, [.gainArmor 1], none, false, .play⟩
          aura := some ⟨.fieldExceptSource, { Modifier.none with attack := 1 }, none⟩ }⟩]
    [(.mage, ⟨1⟩)] (by decide) (by decide)

/-- Player zero draws two banshees. -/
def Settings.banshees : Settings :=
  { Settings.standard with decks := [["BANSHEE", "BANSHEE"], []], shuffleDecks := false }

namespace Duel

/-- Whether an entity has a trigger, reaches somebody with an aura and owes a deathrattle. -/
def wails (duel : Duel) (id : EntityId) : Bool :=
  !(duel.triggers.ownedBy id).isEmpty && !(duel.contributionsOf .zero id).isEmpty &&
    (duel.entity? id).any fun entity => !(duel.lastWords entity).isEmpty

/-- One of two banshees is silenced, and auras are brought up to date. -/
theorem muted_of_silence_banshees :
    ∃ duel past before hushed, Duel.create Settings.banshees Catalogue.banshees = .ok duel ∧
      Trace duel past before ∧ before.wails ⟨4⟩ = true ∧
        Play.silence ⟨4⟩ before = .ok () hushed ∧
          Trace hushed [(hushed, none)] hushed.updateAuras ∧
            Past.Throughout (·.Silent ⟨4⟩) [(hushed, none)] hushed.updateAuras ∧
              Muted ((before, none) :: past) [(hushed, none)] hushed.updateAuras ⟨4⟩ := by
  obtain ⟨duel, before, created, runs, wails⟩ :=
    exists_of_outcome Settings.banshees Catalogue.banshees 100
      [.start, .take .zero (.play ⟨4⟩), .take .zero (.play ⟨5⟩)] (·.wails ⟨4⟩) (by decide +kernel)
  have did : duel.afterDeeds 100 [.call .start, .call (.take .zero (.play ⟨4⟩)),
      .call (.take .zero (.play ⟨5⟩))] = before :=
    afterDeeds_of_runs runs
  obtain ⟨reaches, -, -, mutes⟩ := muted_of_silence created
  obtain ⟨past, comes⟩ := reaches 100
    [.call .start, .call (.take .zero (.play ⟨4⟩)), .call (.take .zero (.play ⟨5⟩))]
  rw [did] at comes
  obtain ⟨entity, known⟩ : ∃ entity, before.entity? ⟨4⟩ = some entity := by
    have owes := (Bool.and_eq_true_iff.mp wails).2
    obtain ⟨entity, known, -⟩ := (Option.any_eq_true ..).mp owes
    exact ⟨entity, known⟩
  obtain ⟨hushed, ran⟩ : ∃ hushed, Play.silence ⟨4⟩ before = .ok () hushed :=
    ⟨_, Play.silence_eq known⟩
  obtain ⟨⟨_, -, there, stripped, -⟩, -, muted⟩ := mutes past before hushed ⟨4⟩ comes ran
  have silent : hushed.Silent ⟨4⟩ := ⟨_, there, by rw [Tags.has, stripped.silenced]; rfl⟩
  have goes : Trace hushed [(hushed, none)] hushed.updateAuras :=
    Trace.start.beat (.keep (.shift (.stir (.auras hushed))) fun _ waits => waits)
  have throughout : Past.Throughout (·.Silent ⟨4⟩) [(hushed, none)] hushed.updateAuras :=
    ⟨silent.congr (hushed.stance?_updateAuras ⟨4⟩), List.forall_mem_singleton.mpr silent⟩
  exact ⟨duel, past, before, hushed, created, comes, wails, ran, goes, throughout,
    muted _ _ goes throughout⟩

end Duel

end CardDuel
