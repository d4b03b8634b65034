import CardDuel.Proofs.Firings

/-!
# What happens to an attacker

The attacks of a turn are counted on the character that makes them.  The count is set back when the
character is readied, it goes up when the character strikes, and it is lost when the character
becomes another one.  Every run has a log of these events, together with the attacks by the
character that are put on record, as long as no effect writes the count itself.
-/

namespace CardDuel

open Relation

/-! ## The log of a character -/

/-- What can happen to a character as far as its attacks go. -/
inductive Feat
  /-- A turn begins. -/
  | dawn
  /-- It is readied because a turn of its player begins. -/
  | rested
  /-- It comes onto the field. -/
  | arrived
  /-- An attack by it is accepted, as the duel stands then. -/
  | asked (duel : Duel)
  /-- It strikes. -/
  | struck
  /-- It is new, moves, changes hands or takes on another form. -/
  | renewed

/-- What happened to a character along a run, the newest first. -/
abbrev FeatLog := List Feat

def Feat.isAsked : Feat → Bool
  | asked _ => true
  | dawn | rested | arrived | struck | renewed => false

/-- Whether an attack by a character is on record. -/
def ActionRecord.isAttackBy (id : EntityId) (record : ActionRecord) : Bool :=
  match record.action with
  | .attack attacker _ => attacker = id
  | _ => false

namespace Entity

variable {tag : Tag}

theorem get_expire (entity : Entity) (away : tag ≠ .damage) :
    entity.expire.tags.get tag = entity.tags.get tag := by
  unfold expire
  split
  · exact get_keepHealth _ entity away
  · rfl

theorem get_silence (entity : Entity) (away : tag ≠ .damage) (speaks : tag ≠ .silenced)
    (lasts : tag ∉ Tag.silenceable) : entity.silence.tags.get tag = entity.tags.get tag := by
  refine (get_keepHealth _ entity away).trans ?_
  rw [Tags.get_set, if_neg speaks, Tags.get_clear _ lasts]

end Entity

namespace Duel

variable {start duel before after : Duel} {id : EntityId} {entity : Entity} {log : FeatLog}

/-! ## The count of the attacks -/

def attacks? (duel : Duel) (id : EntityId) : Option Int :=
  (duel.entity? id).map fun entity => entity.tags.get .attacksThisTurn

/-- How many attacks are counted on a character. -/
def attacksBy (duel : Duel) (id : EntityId) : Int :=
  (duel.attacks? id).getD 0

theorem attacksBy_of_entity? (known : duel.entity? id = some entity) :
    duel.attacksBy id = entity.tags.get .attacksThisTurn := by
  rw [attacksBy, attacks?, known]
  rfl

theorem attacksBy_congr (same : after.attacks? id = before.attacks? id) :
    after.attacksBy id = before.attacksBy id := by
  rw [attacksBy, same]
  rfl

/-! ## What happens to a character -/

/-- The changes after which a character is another one, as far as its attacks go. -/
inductive Renewal (id : EntityId) : Duel → Duel → Prop
  | created {before : Duel} {entity : Entity} (new : before.arena.nextId = id) :
      Renewal id before { before with arena := before.arena.push entity }
  | moved {before : Duel} {entity : Entity} {goal : ZoneKind} (placement : Placement)
      (known : before.entity? id = some entity) :
      Renewal id before (before.relocate id entity goal placement)
  | handedOver {before : Duel} (owner : Player) :
      Renewal id before ((before.leaveZone id .unplaced).updateEntity id fun entity =>
        { entity with owner := owner })
  | transformed {before : Duel} {entity : Entity} (card : Card)
      (known : before.entity? id = some entity) :
      Renewal id before (((before.dropTriggers id).updateEntity id fun entity =>
        entity.replacedBy card).startTriggers id entity.zone)

/-- What a change means for the attacks by a character. -/
inductive Feats (id : EntityId) : Duel → Option Feat → Duel → Prop
  | dawn (duel : Duel) : Feats id duel (some .dawn) (duel.entering .mainReady)
  | rested {duel : Duel} (ready : duel.step = .mainReady) :
      Feats id duel (some .rested) (duel.updateEntity id Entity.refresh)
  | arrived {duel : Duel} {entity : Entity} (placement : Placement)
      (known : duel.entity? id = some entity) :
      Feats id duel (some .arrived)
        ((duel.relocate id entity .play placement).updateEntity id Entity.newcomer)
  | asked {duel : Duel} {player : Player} {defender : EntityId}
      (accepted : duel.check player (.attack id defender) = .ok ()) :
      Feats id duel (some (.asked duel)) (Play.record player (.attack id defender) duel)
  | struck {duel : Duel} {entity : Entity} (known : duel.entity? id = some entity) :
      Feats id duel (some .struck) (duel.updateEntity id fun entity =>
        (entity.addTag .attacksThisTurn 1).setTag .stealth 0)
  | renewed {before after : Duel} (change : Change before after)
      (renewal : Renewal id before after) : Feats id before (some .renewed) after
  | noted {duel : Duel} {player : Player} {action : Action}
      (apart : ∀ defender, action ≠ .attack id defender) :
      Feats id duel none (Play.record player action duel)
  | keep {before after : Duel} (change : Change before after)
      (attacks : after.attacksBy id = before.attacksBy id)
      (history : after.history = before.history)
      (step : after.step = before.step ∨ after.step ≠ .mainReady) : Feats id before none after

/-- A run from a duel to another one, with what happened to a character on the way. -/
inductive Campaign (id : EntityId) (start : Duel) : FeatLog → Duel → Prop
  | start : Campaign id start [] start
  | step {log : FeatLog} {feat : Option Feat} {before after : Duel}
      (campaign : Campaign id start log before) (feats : Feats id before feat after) :
      Campaign id start (feat.toList ++ log) after

theorem Campaign.trans {later : FeatLog} (campaign : Campaign id start log before)
    (further : Campaign id before later after) : Campaign id start (later ++ log) after := by
  induction further with
  | start => exact campaign
  | step _ feats ih =>
      rw [List.append_assoc]
      exact ih.step feats

theorem Campaign.single {feat : Option Feat} (feats : Feats id before feat after) :
    Campaign id before feat.toList after := by
  have begun : Campaign id before [] before := .start
  have once := begun.step feats
  rwa [List.append_nil] at once

/-- A renewal writes nothing into the history. -/
theorem Renewal.history (renewal : Renewal id before after) : after.history = before.history := by
  cases renewal with
  | created new => rfl
  | @moved entity goal placement known =>
      exact congrArg Control.history (control_relocate before id entity goal placement)
  | handedOver owner => exact congrArg Control.history (control_leaveZone before id .unplaced)
  | @transformed entity card known =>
      obtain ⟨triggers, started⟩ := startTriggers_eq ((before.dropTriggers id).updateEntity id
        fun entity => entity.replacedBy card) id entity.zone
      rw [started]
      rfl

theorem Feats.countP_history {feat : Option Feat} (feats : Feats id before feat after) :
    after.history.countP (ActionRecord.isAttackBy id) =
      before.history.countP (ActionRecord.isAttackBy id) + feat.toList.countP Feat.isAsked := by
  cases feats with
  | @arrived entity placement known =>
      have same : (before.relocate id entity .play placement).history = before.history :=
        congrArg Control.history (control_relocate before id entity .play placement)
      exact congrArg (List.countP (ActionRecord.isAttackBy id)) same
  | asked accepted =>
      refine List.countP_append.trans (congrArg _ ?_)
      simp [ActionRecord.isAttackBy, Feat.isAsked]
  | renewed change renewal => exact congrArg (List.countP _) renewal.history
  | @noted player action apart =>
      refine List.countP_append.trans (congrArg _ ?_)
      have other : ¬ ActionRecord.isAttackBy id ⟨player, action, before.turn,
          before.history.length⟩ = true := by
        cases action with
        | attack attacker defender =>
            exact fun same => apart defender (of_decide_eq_true same ▸ rfl)
        | _ => exact nofun
      simpa using other
  | keep change attacks history step => exact congrArg (List.countP _) history
  | _ => rfl

/-- The log of a character holds the attacks by it that are put on record. -/
theorem Campaign.countP_history (campaign : Campaign id start log after) :
    after.history.countP (ActionRecord.isAttackBy id) =
      start.history.countP (ActionRecord.isAttackBy id) + log.countP Feat.isAsked := by
  induction campaign with
  | start => rfl
  | step _ feats ih =>
      rw [feats.countP_history, ih, List.countP_append]
      omega

/-! ## Every run has its log -/

section Tracks

variable {other : EntityId} {holder : Entity}

/-- The count does not depend on where a character is. -/
theorem attacks?_eq_body? (duel : Duel) (id : EntityId) :
    duel.attacks? id = (duel.body? id).map fun body => body.tags.get .attacksThisTurn := by
  rw [body?, Option.map_map]
  rfl

/-- Whoever else leaves a zone leaves the count alone. -/
theorem attacks?_of_bereaved {goal : ZoneKind} (away : id ≠ other)
    (bodies : after.body? id = if id = other then some (before.partedBody goal holder)
      else (before.body? id).map (bereave other holder)) :
    after.attacks? id = before.attacks? id := by
  rw [attacks?_eq_body?, attacks?_eq_body?, bodies, if_neg away, Option.map_map]
  refine congrArg (Option.map · (before.body? id)) (funext fun body => ?_)
  change (bereave other holder body).tags.get .attacksThisTurn = _
  unfold bereave
  split <;> rfl

theorem Feats.shift (shift : Shift before after)
    (attacks : after.attacks? id = before.attacks? id) : Feats id before none after :=
  .keep (.shift shift) (attacksBy_congr attacks) (congrArg Control.history shift.control)
    (.inl (congrArg Control.step shift.control))

theorem exists_feats_relocate (id : EntityId) (goal : ZoneKind) (placement : Placement)
    (known : duel.entity? other = some holder)
    (allowed : ¬ (holder.kind = .spell ∧ goal = .play))
    (room : usesSlot holder.kind goal = true ∨ holder.zone = goal ∨
      duel.zones.isFull holder.owner goal = false) :
    ∃ feat, Feats id duel feat (duel.relocate other holder goal placement) := by
  have moves : Shift duel (duel.relocate other holder goal placement) :=
    .relocate duel placement known allowed room
  by_cases own : id = other
  · subst own
    exact ⟨_, .renewed (.shift moves) (.moved placement known)⟩
  · exact ⟨none, .shift moves (attacks?_of_bereaved own
      (body?_relocate known goal placement id))⟩

theorem Campaign.shift (campaign : Campaign id start log before) (shift : Shift before after)
    (attacks : after.attacks? id = before.attacks? id) : Campaign id start log after :=
  campaign.step (.shift shift attacks)

theorem exists_campaign_interred (id : EntityId) (known : duel.entity? other = some holder) :
    ∃ log, Campaign id duel log (duel.interred other holder) := by
  unfold interred
  split
  · exact ⟨[], .start⟩
  next stays =>
    obtain ⟨feat, feats⟩ := exists_feats_relocate id .graveyard .top known
      (fun both => nomatch both.2) (not_turnsAway_iff.mp stays)
    exact ⟨_, .single feats⟩

theorem exists_campaign_outlived (id : EntityId) (player : Player)
    (known : duel.entity? other = some holder) :
    ∃ log, Campaign id duel log (duel.outlived player other holder) := by
  obtain ⟨log, rests⟩ := exists_campaign_interred id known
  exact ⟨log, rests.shift (.stir (.announce _ _)) rfl⟩

theorem exists_campaign_buried (id : EntityId) (known : duel.entity? other = some holder) :
    ∃ log, Campaign id duel log (duel.buried other holder) := by
  obtain ⟨log, rests⟩ := exists_campaign_interred id known
  refine ⟨log, Campaign.shift ?_ (.stir (.announce _ _)) rfl⟩
  unfold mourned
  split
  · exact rests
  · exact rests.shift (.stir (.react _ _)) rfl

end Tracks

/-- The changes of a duel, with a log of what they mean for the attacks by a character as long as
nothing writes the count. -/
def Tracked (id : EntityId) (before after : Duel) : Prop :=
  ReflTransGen (Lawful (Effect.Spares .attacksThisTurn)) before after ∧
    (before.Tidy (Effect.Spares .attacksThisTurn) → ∃ log, Campaign id before log after)

namespace Tracked

variable {feat : Option Feat}

theorem feats (lawful : ReflTransGen (Lawful (Effect.Spares .attacksThisTurn)) before after)
    (feats : Feats id before feat after) : Tracked id before after :=
  ⟨lawful, fun _ => ⟨_, .single feats⟩⟩

theorem shift (lawful : Lawful (Effect.Spares .attacksThisTurn) before after)
    (shift : Shift before after) (attacks : after.attacks? id = before.attacks? id) :
    Tracked id before after :=
  .feats (.single lawful) (.shift shift attacks)

/-- A change that directs the match. -/
theorem direct (lawful : Lawful (Effect.Spares .attacksThisTurn) before after)
    (change : Change before after) (arena : after.arena = before.arena)
    (history : after.history = before.history)
    (step : after.step = before.step ∨ after.step ≠ .mainReady) : Tracked id before after := by
  refine .feats (.single lawful) (.keep change (attacksBy_congr ?_) history step)
  unfold attacks? entity?
  rw [arena]

/-- A revision that is not among the ones that matter. -/
theorem revise {other : EntityId} {change : Entity → Entity}
    (lawful : Lawful (Effect.Spares .attacksThisTurn) duel (duel.updateEntity other change))
    (revision : Entity.Revision change) (kept : ∀ entity,
      (change entity).tags.get .attacksThisTurn = entity.tags.get .attacksThisTurn) :
    Tracked id duel (duel.updateEntity other change) :=
  .shift lawful (.stir (.revise duel other revision)) (duel.map_updateEntity other id kept)

/-- A revision of somebody else. -/
theorem reviseOther {other : EntityId} {change : Entity → Entity}
    (lawful : Lawful (Effect.Spares .attacksThisTurn) duel (duel.updateEntity other change))
    (revision : Entity.Revision change) (apart : id ≠ other) :
    Tracked id duel (duel.updateEntity other change) := by
  refine .shift lawful (.stir (.revise duel other revision)) ?_
  rw [attacks?, entity?_updateEntity, if_neg apart]
  rfl

/-- A revision that matters to the character itself. -/
theorem reviseOwn {other : EntityId} {change : Entity → Entity}
    (lawful : Lawful (Effect.Spares .attacksThisTurn) duel (duel.updateEntity other change))
    (revision : Entity.Revision change)
    (own : other = id → Feats id duel feat (duel.updateEntity other change)) :
    Tracked id duel (duel.updateEntity other change) := by
  by_cases same : other = id
  · exact .feats (.single lawful) (own same)
  · exact .reviseOther lawful revision (Ne.symm same)

end Tracked

instance (id : EntityId) : Placing (Tracked id) where
  roll duel dice := .shift (Rolling.roll duel dice) (.stir (.roll duel dice)) rfl
  relocate duel other holder goal placement known allowed room := by
    obtain ⟨feat, feats⟩ := exists_feats_relocate id goal placement known allowed room
    exact .feats (.single (Placing.relocate duel placement known allowed room)) feats
  create duel owner _ card kind listed instantiable := by
    have creates : Shift duel { duel with arena := duel.arena.push (.fresh owner card kind) } :=
      .create duel owner listed instantiable
    have lawful : Lawful (Effect.Spares .attacksThisTurn) duel _ :=
      Placing.create duel owner listed instantiable
    by_cases new : duel.arena.nextId = id
    · exact .feats (.single lawful) (.renewed (.shift creates) (.created new))
    · refine .shift lawful creates ?_
      rw [attacks?, entity?, Arena.get?_push, if_neg (Ne.symm new)]
      rfl

instance (id : EntityId) : Changing (Tracked id) (Effect.Spares .attacksThisTurn) where
  revise duel other _ peaceful :=
    .revise (Revising.revise duel other peaceful) peaceful.routine.revision peaceful.attacks
  strike duel other _ known := .reviseOwn (Revising.strike duel known) .strike fun own => by
    subst own
    exact .struck known
  heal duel other _ amount known :=
    .shift (Revising.heal duel amount known) (.stir (.heal duel amount known))
      (duel.map_updateEntity other id fun entity => entity.get_addTag _ (by decide))
  silence duel other := .shift (Revising.silence duel other) (.stir (.silence duel other))
    (duel.map_updateEntity other id fun entity =>
      entity.get_silence (by decide) (by decide) (by decide))
  transform duel other holder _ card known listed kind := by
    have transforms : Stir duel (((duel.dropTriggers other).updateEntity other fun entity =>
        entity.replacedBy card).startTriggers other holder.zone) :=
      .transform duel known listed kind
    have lawful : Lawful (Effect.Spares .attacksThisTurn) duel _ :=
      Revising.transform duel known listed kind
    by_cases own : id = other
    · subst own
      exact .feats (.single lawful) (.renewed (.shift (.stir transforms)) (.transformed card known))
    · refine .shift lawful (.stir transforms) ?_
      obtain ⟨triggers, started⟩ := startTriggers_eq ((duel.dropTriggers other).updateEntity other
        fun entity => entity.replacedBy card) other holder.zone
      rw [started]
      change (Duel.entity? (updateEntity _ _ _) id).map _ = _
      rw [entity?_updateEntity, if_neg own]
      rfl
  auras duel := .shift (Revising.auras duel) (.stir (.auras duel))
    (duel.map_updateAll id fun _ entity => entity.get_withAura _ (by decide))
  expire duel := .shift (Revising.expire duel) (.stir (.expire duel))
    (duel.map_updateAll id fun _ entity => entity.get_expire (by decide))
  fall duel fallen := .shift (Revising.fall duel fallen) (.stir (.fall duel fallen))
    (duel.map_markFallen fallen id fun _ _ => rfl)
  adjust duel player _ routine :=
    .shift (Revising.adjust duel player routine) (.stir (.adjust duel player routine.1)) rfl
  announce duel event living :=
    .shift (Stirring.announce duel living) (.stir (.announce duel event)) rfl
  remind duel _ living := .shift (Stirring.remind duel living) (.stir (.react duel _)) rfl
  arrive duel other holder placement known allowed room := by
    by_cases own : id = other
    · subst own
      exact .single (.feats (Shifting.arrive duel placement known allowed room)
        (.arrived placement known))
    · refine .tail (.single (Placing.relocate duel placement known allowed room)) ?_
      exact .reviseOther ⟨none, .revise _ other .newcomer⟩ .newcomer own
  handOver duel other holder owner known apart := by
    have handsOver : Shift duel ((duel.leaveZone other .unplaced).updateEntity other fun entity =>
        { entity with owner := owner }) := .handOver duel known apart
    have lawful : Lawful (Effect.Spares .attacksThisTurn) duel _ :=
      Shifting.handOver duel known apart
    by_cases own : id = other
    · subst own
      exact .feats (.single lawful) (.renewed (.shift handsOver) (.handedOver owner))
    · refine .shift lawful handsOver ?_
      rw [← attacks?_of_bereaved own (body?_leaveZone known .unplaced id), attacks?,
        entity?_updateEntity, if_neg own]
      rfl
  shuffle duel player zone shuffled container reordered := by
    have same (zones : Zones) :
        (({ duel with zones := zones } : Duel).renumber player .deck).attacks? id =
          duel.attacks? id := by
      rw [attacks?_eq_body?, attacks?_eq_body?, body?_renumber]
      rfl
    exact .shift (Shifting.shuffle duel player container reordered)
      (.shuffle duel player container reordered) (same _)
  outlive duel _ _ player known :=
    .single ⟨Shifting.outlive duel player known, fun _ => exists_campaign_outlived id player known⟩
  inherits := Effect.hereditary_spares .attacksThisTurn
  assume duel := by
    by_cases tidy : duel.Tidy (Effect.Spares .attacksThisTurn)
    · exact .inl tidy.allowed
    · exact .inr fun after => ⟨.single ⟨none, .unruly after tidy⟩, fun also => absurd also tidy⟩
  write duel other selector tag value allowed :=
    have spared : tag ≠ .attacksThisTurn := fun same => allowed (same ▸ .setTag selector value)
    .revise (Performing.write duel other allowed) (.write tag value)
      fun entity => entity.get_setTag value spared.symm
  award duel player tag value allowed := .shift (Performing.award duel player allowed)
    (.stir (.adjust duel player (.write tag value))) rfl
  lend duel player _ allowed := .shift (Performing.lend duel player allowed)
    (.stir (.adjust duel player (.temporary _ _))) rfl
  bury duel _ _ known allowed :=
    .single ⟨Performing.bury duel known allowed, fun _ => exists_campaign_buried id known⟩
  refresh duel other ready := .reviseOwn (Working.refresh duel other ready) .refresh fun own => by
    subst own
    exact .rested ready
  fire duel trigger _ live once :=
    .shift (Working.fire duel live once) (.stir (.unregister duel trigger)) rfl
  choose duel player choice :=
    .direct (Working.choose duel player choice) (.choose duel player choice) rfl rfl (.inl rfl)
  suspend duel waiting allowed :=
    .direct (Working.suspend duel allowed) (.suspend duel waiting) rfl rfl (.inl rfl)
  schedule duel works phases :=
    .direct (Working.schedule duel phases) (.schedule duel works) rfl rfl (.inl rfl)
  begin duel _ _ next := .direct (Working.begin duel next) (.begin duel next) rfl rfl (.inl rfl)
  herald duel event rest next := by
    have begun : Campaign id duel [] { duel with agenda := rest } :=
      .single (.keep (.begin duel next) rfl rfl (.inl rfl))
    exact .single ⟨Working.herald duel next,
      fun _ => ⟨[], begun.shift (.stir (.announce _ event)) rfl⟩⟩
  clear duel := .direct (Working.clear duel) (.clear duel) rfl rfl (.inl rfl)
  finish duel losers :=
    .direct (Working.finish duel losers) (.finish duel losers) rfl rfl (.inr nofun)
  concede duel player :=
    .direct (Working.concede duel player) (.concede duel player) rfl rfl (.inr nofun)
  enter duel target := by
    by_cases ready : target = .mainReady
    · subst ready
      exact .single (.feats (Directing.enter duel .mainReady) (.dawn duel))
    · exact reaches_entering_of duel target
        (.direct ⟨none, .enter duel target⟩ (.enter duel target) rfl rfl (.inr ready))
        (.direct ⟨none, .count _⟩ (.count _) rfl rfl (.inl rfl))
        fun player => .direct ⟨none, .pass _ player⟩ (.pass _ player) rfl rfl (.inl rfl)
  record duel player action accepted := by
    have lawful : Lawful (Effect.Spares .attacksThisTurn) duel (Play.record player action duel) :=
      Requesting.record duel accepted
    by_cases own : ∃ defender, action = .attack id defender
    · obtain ⟨defender, rfl⟩ := own
      exact .feats (.single lawful) (.asked accepted)
    · exact .feats (.single lawful) (.noted fun defender same => own ⟨defender, same⟩)
  refill duel player total allowed :=
    .shift (Requesting.refill duel player allowed) (.stir (.adjust duel player (.refill total))) rfl
  sets _ := nofun

/-- Along tracked changes from a tidy duel everything that happens to a character is in some log. -/
theorem exists_campaign (tracks : ReflTransGen (Tracked id) start after)
    (tidy : start.Tidy (Effect.Spares .attacksThisTurn)) : ∃ log, Campaign id start log after := by
  suffices both : after.Tidy (Effect.Spares .attacksThisTurn) ∧ ∃ log, Campaign id start log after
    from both.2
  induction tracks with
  | refl => exact ⟨tidy, [], .start⟩
  | tail _ tracked ih =>
      obtain ⟨tidy, log, campaign⟩ := ih
      obtain ⟨lawful, told⟩ := tracked
      obtain ⟨later, further⟩ := told tidy
      exact ⟨(Lawful.along (fun _ => True) lawful tidy trivial fun _ _ _ => trivial).1,
        _, campaign.trans further⟩

end Duel

end CardDuel
