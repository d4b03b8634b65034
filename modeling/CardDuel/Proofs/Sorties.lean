import CardDuel.Proofs.Enumeration
import CardDuel.Proofs.Feats

/-!
# How often a character attacks

A character is readied when a turn of its player begins, and a minion also when it comes onto the
field.  From then on, in any turn and as long as it stays what it is and where it is, at most two
attacks by it come off, and the second only if it had windfury when that was accepted.  A character
that takes on another form in between starts anew.
-/

namespace CardDuel

open Relation

/-- Whether the turn or the stay of a character is over. -/
def Feat.Breaks : Feat → Prop
  | dawn | arrived | renewed => True
  | rested | asked _ | struck => False

namespace FeatLog

/-- Whether a character has been readied, or come onto the field, and is the same since. -/
def Established : FeatLog → Prop
  | [] => False
  | .rested :: _ | .arrived :: _ => True
  | .renewed :: _ => False
  | .dawn :: log | .asked _ :: log | .struck :: log => Established log

/-- The attack that was accepted last, if nothing has come of it yet. -/
def pending : FeatLog → Option Duel
  | [] => none
  | .asked duel :: _ => some duel
  | .struck :: _ => none
  | _ :: log => pending log

/-- The duels in which an attack was accepted that came off, the oldest first: a strike followed
before another attack was accepted. -/
def sorties : FeatLog → List Duel
  | [] => []
  | .struck :: log => sorties log ++ (pending log).toList
  | _ :: log => sorties log

variable {log : FeatLog}

/-- Without an accepted attack nothing is pending and nothing comes off. -/
theorem idle_of_unasked (unasked : ∀ duel, .asked duel ∉ log) :
    pending log = none ∧ sorties log = [] := by
  induction log with
  | nil => exact ⟨rfl, rfl⟩
  | cons feat log ih =>
      obtain ⟨waits, none⟩ := ih fun duel member => unasked duel (List.mem_cons_of_mem _ member)
      cases feat with
      | asked duel => exact absurd List.mem_cons_self (unasked duel)
      | struck =>
          refine ⟨rfl, ?_⟩
          rw [sorties, none, waits]
          rfl
      | _ => exact ⟨waits, none⟩

/-- A strike makes an attack come off that was pending, and no other. -/
theorem getElem?_sorties_struck {place : Nat} {past : Duel}
    (found : (sorties (.struck :: log))[place]? = some past) :
    (sorties log)[place]? = some past ∨ place = (sorties log).length ∧ pending log = some past := by
  rw [sorties, List.getElem?_append] at found
  split at found
  · exact .inl found
  next beyond =>
    right
    cases waits : pending log with
    | none => simp [waits] at found
    | some last =>
        rw [waits, Option.toList_some, List.getElem?_singleton] at found
        split at found
        next first => exact ⟨by omega, found⟩
        · cases found

theorem length_sorties_struck (log : FeatLog) :
    (sorties (.struck :: log)).length ≤ (sorties log).length + 1 := by
  rw [sorties, List.length_append]
  cases pending log <;> simp

end FeatLog

namespace Duel

variable {start duel before after : Duel} {id : EntityId} {entity : Entity} {log : FeatLog}

/-! ## The budget -/

/-- How many attacks a character may make in a turn, as it stands. -/
def attackLimit (duel : Duel) (id : EntityId) : Nat :=
  if (duel.entity? id).any fun entity => entity.has .windfury then 2 else 1

/-- Attacks that were accepted in these duels are few enough: there is one, or there are two and the
character had windfury when the second was accepted. -/
def WithinBudget (id : EntityId) (attacks : List Duel) : Prop :=
  attacks.length ≤ 2 ∧ ∀ second, attacks[1]? = some second →
    ∃ entity, second.entity? id = some entity ∧ entity.has .windfury = true

/-- Attacks that were accepted in turn, each while fewer had been made than were allowed. -/
theorem withinBudget_of_lt {attacks : List Duel}
    (modest : ∀ place (duel : Duel), attacks[place]? = some duel → place < duel.attackLimit id) :
    WithinBudget id attacks := by
  refine ⟨?_, fun second found => ?_⟩
  · by_contra more
    have within : 2 < attacks.length := by omega
    have third := modest 2 attacks[2] (List.getElem?_eq_getElem within)
    unfold attackLimit at third
    split at third <;> omega
  · have few := modest 1 second found
    unfold attackLimit at few
    split at few
    next swift => simpa only [Option.any_eq_true] using swift
    · omega

/-- What is accepted as an attack is one by a character that may attack once more. -/
theorem attacksBy_lt_of_check {player : Player} {defender : EntityId}
    (accepted : duel.check player (.attack id defender) = .ok ()) :
    duel.step = .mainAction ∧ duel.attacksBy id < duel.attackLimit id := by
  obtain ⟨turn, attacks⟩ := check_attack accepted
  have ⟨_, acting, step⟩ := checkTurn_iff.mp turn
  have able := ((checkAttack_iff acting).mp attacks).1
  refine ⟨step, ?_⟩
  unfold canAttack passes at able
  cases known : duel.entity? id with
  | none => simp [known] at able
  | some entity =>
      simp only [known, Bool.and_eq_true, Entity.isReady, decide_eq_true_eq] at able
      have ready := able.2.2
      rw [attacksBy_of_entity? known, attackLimit, known, Option.any_some]
      by_cases swift : entity.has .windfury = true
      · rw [if_pos swift] at ready ⊢
        exact ready
      · rw [if_neg swift] at ready ⊢
        exact ready

/-! ## The budget holds -/

/-- What is known along a part of a turn: every attack was accepted while fewer had come off than
the character was allowed, and those that came off are counted on it. -/
structure Counts (id : EntityId) (stretch : FeatLog) (duel : Duel) : Prop where
  counted : (stretch.sorties.length : Int) ≤ duel.attacksBy id
  modest : ∀ place (past : Duel), stretch.sorties[place]? = some past → place < past.attackLimit id
  waiting : ∀ past, stretch.pending = some past → stretch.sorties.length < past.attackLimit id
  early : duel.step = .mainReady → ∀ past, .asked past ∉ stretch

theorem attacksBy_refresh : (duel.updateEntity id Entity.refresh).attacksBy id = 0 := by
  have rests (entity : Entity) : entity.refresh.tags.get .attacksThisTurn = 0 := by
    unfold Entity.refresh
    dsimp only
    split <;> simp [Entity.setTag, Entity.addTag, Tags.get_add]
  rw [attacksBy, attacks?, entity?_updateEntity, if_pos rfl]
  cases duel.entity? id with
  | none => rfl
  | some entity => exact rests entity

theorem attacksBy_newcomer : (duel.updateEntity id Entity.newcomer).attacksBy id = 0 := by
  rw [attacksBy, attacks?, entity?_updateEntity, if_pos rfl]
  cases duel.entity? id with
  | none => rfl
  | some entity => simp [Entity.newcomer, Entity.setTag, Tags.get_set]

theorem attacksBy_strike (known : duel.entity? id = some entity) :
    (duel.updateEntity id fun entity =>
      (entity.addTag .attacksThisTurn 1).setTag .stealth 0).attacksBy id =
        duel.attacksBy id + 1 := by
  rw [attacksBy_of_entity? known, attacksBy, attacks?, entity?_updateEntity, if_pos rfl, known]
  simp [Entity.setTag, Entity.addTag, Tags.get_add, Tags.get_set]

/-- The count of a character that was readied and is the same since is not below zero. -/
theorem Campaign.attacksBy_nonneg (campaign : Campaign id start log duel)
    (established : log.Established) : 0 ≤ duel.attacksBy id := by
  induction campaign with
  | start => exact established.elim
  | step _ feats ih =>
      cases feats with
      | dawn => exact ih established
      | rested ready => exact Int.le_of_eq attacksBy_refresh.symm
      | arrived placement known => exact Int.le_of_eq attacksBy_newcomer.symm
      | asked accepted => exact ih established
      | struck known =>
          rw [attacksBy_strike known]
          exact Int.le_add_one (ih established)
      | renewed change renewal => exact established.elim
      | noted apart => exact ih established
      | keep change attacks history step =>
          rw [attacks]
          exact ih established

/-- Nothing has come off yet. -/
theorem counts_nil (nonneg : 0 ≤ duel.attacksBy id) : duel.Counts id [] :=
  ⟨nonneg, fun _ _ => nofun, fun _ => nofun, fun _ _ => List.not_mem_nil⟩

theorem Counts.keep {stretch : FeatLog} (counts : before.Counts id stretch)
    (attacks : after.attacksBy id = before.attacksBy id)
    (step : after.step = before.step ∨ after.step ≠ .mainReady) : after.Counts id stretch where
  counted := attacks ▸ counts.counted
  modest := counts.modest
  waiting := counts.waiting
  early ready :=
    counts.early ((step.resolve_right fun away => away ready).symm.trans ready)

/-- What happens to a character during its stay leaves the count right. -/
theorem Counts.feats {feat : Option Feat} {stretch : FeatLog} (counts : before.Counts id stretch)
    (feats : Feats id before feat after) (within : ∀ event, feat = some event → ¬ event.Breaks) :
    after.Counts id (feat.toList ++ stretch) := by
  cases feats with
  | dawn => exact absurd trivial (within _ rfl)
  | arrived placement known => exact absurd trivial (within _ rfl)
  | renewed change renewal => exact absurd trivial (within _ rfl)
  | rested ready =>
      -- Nothing has been asked for yet, so nothing that the count forgets has come off.
      have unasked := counts.early ready
      obtain ⟨waits, none⟩ := FeatLog.idle_of_unasked unasked
      refine ⟨?_, counts.modest, counts.waiting, fun _ past member => ?_⟩
      · change (stretch.sorties.length : Int) ≤ _
        rw [none, attacksBy_refresh]
        exact Int.le_refl 0
      · exact unasked past ((List.mem_cons.mp member).resolve_left nofun)
  | asked accepted =>
      obtain ⟨acting, allowed⟩ := attacksBy_lt_of_check accepted
      refine ⟨counts.counted, counts.modest, ?_, fun ready => ?_⟩
      · rintro past ⟨⟩
        exact Int.ofNat_lt.mp (Int.lt_of_le_of_lt counts.counted allowed)
      · cases acting.symm.trans ready
  | struck known =>
      refine ⟨?_, fun place past found => ?_, fun _ => nofun, fun ready past member => ?_⟩
      · have counted := counts.counted
        have more := FeatLog.length_sorties_struck stretch
        rw [attacksBy_strike known]
        change ((FeatLog.sorties (.struck :: stretch)).length : Int) ≤ _
        omega
      · rcases FeatLog.getElem?_sorties_struck found with before | ⟨rfl, last⟩
        · exact counts.modest place past before
        · exact counts.waiting past last
      · exact counts.early ready past ((List.mem_cons.mp member).resolve_left nofun)
  | noted apart => exact counts.keep rfl (.inl rfl)
  | keep change attacks history step => exact counts.keep attacks step

/-- An established character keeps within its budget for the rest of a turn and as long as it
stays. -/
theorem Campaign.counts (campaign : Campaign id start log duel) {stretch past : FeatLog}
    (parts : log = stretch ++ past) (established : past.Established)
    (within : ∀ feat ∈ stretch, ¬ feat.Breaks) : duel.Counts id stretch := by
  induction campaign generalizing stretch with
  | start =>
      obtain ⟨-, rfl⟩ := List.append_eq_nil_iff.mp parts.symm
      exact established.elim
  | @step log feat before after campaign feats ih =>
      cases feat with
      | none => exact (ih parts within).feats feats fun _ same => nomatch same
      | some feat =>
          cases stretch with
          | nil => exact counts_nil ((campaign.step feats).attacksBy_nonneg (parts ▸ established))
          | cons latest stretch =>
              obtain ⟨rfl, rest⟩ := List.cons.inj parts
              obtain ⟨last, within⟩ := List.forall_mem_cons.mp within
              refine (ih rest within).feats feats ?_
              rintro event ⟨⟩
              exact last

/-- Whatever is asked of a duel that was set up, as long as no card writes the count of attacks: the
log of a character holds as many accepted attacks as are on record, and once it is established,
during one turn and as long as it stays, those that come off are within its budget. -/
theorem withinBudget_afterCalls {settings : Settings} {catalogue : Catalogue}
    (created : Duel.create settings catalogue = .ok duel)
    (spared : catalogue.Spares .attacksThisTurn) (allowance : Nat) (calls : List Call)
    (attacker : EntityId) :
    ∃ bare, Duel.bare settings catalogue = .ok bare ∧
      (∃ log, Campaign attacker bare log (duel.afterCalls allowance calls)) ∧
        ∀ log, Campaign attacker bare log (duel.afterCalls allowance calls) →
          log.countP Feat.isAsked = (duel.afterCalls allowance calls).history.countP
              (ActionRecord.isAttackBy attacker) ∧
            ∀ stretch past : FeatLog, log = stretch ++ past → past.Established →
              (∀ feat ∈ stretch, ¬ feat.Breaks) → WithinBudget attacker stretch.sorties := by
  obtain ⟨bare, begun, placed⟩ : ∃ bare, Duel.bare settings catalogue = .ok bare ∧
      ReflTransGen (Tracked attacker) bare duel := exists_bare created
  refine ⟨bare, begun, ?_, fun log campaign => ⟨?_, ?_⟩⟩
  · exact exists_campaign (placed.trans (duel.steps_afterCalls allowance calls))
      (bare_tidy begun spared)
  · obtain ⟨first, dice, zero, one, rfl⟩ := bare_eq begun
    rw [campaign.countP_history]
    exact (Nat.zero_add _).symm
  · intro stretch past parts established within
    exact withinBudget_of_lt (campaign.counts parts established within).modest

end Duel

/-- A harpy that charges and strikes twice. -/
def Catalogue.harpies : Catalogue :=
  .ofEntries
    [⟨Card.hero ⟨1⟩ "HERO" "" .mage 30 "POWER", Behaviour.none⟩,
      ⟨Card.power ⟨2⟩ "POWER" "" 2, Behaviour.none⟩,
      ⟨{ Card.minion ⟨3⟩ "HARPY" "" 0 2 1 with
          tags := (Tags.empty.set .charge 1).set .windfury 1 }, Behaviour.none⟩]
    [(.mage, ⟨1⟩)] (by decide) (by decide)

/-- Player zero draws the harpy. -/
def Settings.harpies : Settings :=
  { Settings.standard with decks := [["HARPY"], []], shuffleDecks := false }

/-- A brute that charges, and a spell that makes boars of minions, which charge too. -/
def Catalogue.morphs : Catalogue :=
  .ofEntries
    [⟨Card.hero ⟨1⟩ "HERO" "" .mage 30 "POWER", Behaviour.none⟩,
      ⟨Card.power ⟨2⟩ "POWER" "" 2, Behaviour.none⟩,
      ⟨{ Card.minion ⟨3⟩ "BRUTE" "" 0 2 3 with tags := Tags.empty.set .charge 1 }, Behaviour.none⟩,
      ⟨Card.spell ⟨4⟩ "MORPH" "" 0,
        { Behaviour.none with effects := [.transform .minions "BOAR"] }⟩,
      ⟨{ Card.minion ⟨5⟩ "BOAR" "" 0 1 1 with tags := Tags.empty.set .charge 1 }, Behaviour.none⟩]
    [(.mage, ⟨1⟩)] (by decide) (by decide)

/-- Player zero draws the brute and the spell. -/
def Settings.morphs : Settings :=
  { Settings.standard with decks := [["MORPH", "BRUTE"], []], shuffleDecks := false }

namespace Duel

theorem spares_harpies : Catalogue.harpies.Spares .attacksThisTurn :=
  List.forall_mem_cons.mpr ⟨Behaviour.fits_none, List.forall_mem_cons.mpr
    ⟨Behaviour.fits_none, List.forall_mem_singleton.mpr Behaviour.fits_none⟩⟩

/-- The harpy attacks the other hero twice in its first turn. -/
theorem withinBudget_afterCalls_harpies :
    ∃ duel bare after, Duel.create Settings.harpies Catalogue.harpies = .ok duel ∧
      Catalogue.harpies.Spares .attacksThisTurn ∧
        Duel.bare Settings.harpies Catalogue.harpies = .ok bare ∧
        duel.afterCalls 100 [.start, .take .zero (.play ⟨4⟩), .take .zero (.attack ⟨4⟩ ⟨5⟩),
          .take .zero (.attack ⟨4⟩ ⟨5⟩)] = after ∧
            after.attacksBy ⟨4⟩ = 2 ∧ (∃ log, Campaign ⟨4⟩ bare log after) ∧
              ∀ log, Campaign ⟨4⟩ bare log after → log.countP Feat.isAsked = 2 ∧
                ∀ stretch past : FeatLog, log = stretch ++ past → past.Established →
                  (∀ feat ∈ stretch, ¬ feat.Breaks) → WithinBudget ⟨4⟩ stretch.sorties := by
  obtain ⟨duel, after, created, runs, comes⟩ :=
    exists_of_outcome Settings.harpies Catalogue.harpies 100
      [.start, .take .zero (.play ⟨4⟩), .take .zero (.attack ⟨4⟩ ⟨5⟩),
        .take .zero (.attack ⟨4⟩ ⟨5⟩)]
      (fun after => after.attacksBy ⟨4⟩ = 2 &&
        after.history.countP (ActionRecord.isAttackBy ⟨4⟩) = 2) (by decide +kernel)
  rw [Bool.and_eq_true, decide_eq_true_eq, decide_eq_true_eq] at comes
  obtain ⟨bare, begun, told, bounded⟩ := withinBudget_afterCalls created spares_harpies 100
    [.start, .take .zero (.play ⟨4⟩), .take .zero (.attack ⟨4⟩ ⟨5⟩),
      .take .zero (.attack ⟨4⟩ ⟨5⟩)] ⟨4⟩
  have ends := afterCalls_of_runs runs
  rw [ends] at told bounded
  refine ⟨duel, bare, after, created, spares_harpies, begun, ends, comes.1, told,
    fun log campaign => ?_⟩
  obtain ⟨recorded, within⟩ := bounded log campaign
  exact ⟨recorded.trans comes.2, within⟩

theorem spares_morphs : Catalogue.morphs.Spares .attacksThisTurn := by
  have morphs : Behaviour.Fits (Effect.Spares .attacksThisTurn)
      { Behaviour.none with effects := [.transform .minions "BOAR"] } := by
    refine ⟨List.forall_mem_singleton.mpr nofun, fun _ => nofun, fun _ => nofun, fun _ => nofun⟩
  exact List.forall_mem_cons.mpr ⟨Behaviour.fits_none, List.forall_mem_cons.mpr
    ⟨Behaviour.fits_none, List.forall_mem_cons.mpr ⟨Behaviour.fits_none, List.forall_mem_cons.mpr
      ⟨morphs, List.forall_mem_singleton.mpr Behaviour.fits_none⟩⟩⟩⟩

/-- Whether the brute is in play in the first turn, without windfury and with so many attacks
counted on it. -/
def hasBrute (attacks : Int) (duel : Duel) : Bool :=
  duel.turn = 1 && (duel.entity? ⟨5⟩).any fun brute =>
    brute.zone = .play && !brute.has .windfury && brute.tags.get .attacksThisTurn = attacks

theorem hasBrute_spec {duel : Duel} {attacks : Int} (has : duel.hasBrute attacks = true) :
    duel.turn = 1 ∧ duel.attacksBy ⟨5⟩ = attacks ∧ ∃ brute, duel.entity? ⟨5⟩ = some brute ∧
      brute.zone = .play ∧ brute.has .windfury = false := by
  simp only [hasBrute, Bool.and_eq_true, decide_eq_true_eq, Option.any_eq_true,
    Bool.not_eq_true'] at has
  obtain ⟨turn, brute, known, ⟨inPlay, still⟩, counted⟩ := has
  exact ⟨turn, (attacksBy_of_entity? known).trans counted, brute, known, inPlay, still⟩

/-- The brute attacks, becomes a boar and attacks once more, all in one turn and without leaving
play, and it never has windfury. -/
theorem not_withinBudget_morphs :
    ∃ start first struck second after,
      Duel.create Settings.morphs Catalogue.morphs = .ok start ∧
        Catalogue.morphs.Spares .attacksThisTurn ∧
          start.Runs 100 [.start, .take .zero (.play ⟨5⟩)] first ∧
            first.Runs 100 [.take .zero (.attack ⟨5⟩ ⟨6⟩)] struck ∧
              struck.Runs 100 [.take .zero (.play ⟨4⟩)] second ∧
                second.Runs 100 [.take .zero (.attack ⟨5⟩ ⟨6⟩)] after ∧
                  struck.attacksBy ⟨5⟩ = first.attacksBy ⟨5⟩ + 1 ∧
                    after.attacksBy ⟨5⟩ = second.attacksBy ⟨5⟩ + 1 ∧
                      (∀ duel ∈ [first, struck, second, after], duel.turn = 1 ∧
                        ∃ brute, duel.entity? ⟨5⟩ = some brute ∧ brute.zone = .play) ∧
                          ¬ WithinBudget ⟨5⟩ [first, second] := by
  let opening : List Call := [.start, .take .zero (.play ⟨5⟩)]
  let attack : List Call := [.take .zero (.attack ⟨5⟩ ⟨6⟩)]
  let morph : List Call := [.take .zero (.play ⟨4⟩)]
  obtain ⟨start, after, created, runs, last⟩ := exists_of_outcome Settings.morphs Catalogue.morphs
    100 (opening ++ (attack ++ (morph ++ attack))) (hasBrute 1) (by decide +kernel)
  obtain ⟨first, opens, runs⟩ := runs_append.mp runs
  obtain ⟨struck, attacks, runs⟩ := runs_append.mp runs
  obtain ⟨second, morphs, again⟩ := runs_append.mp runs
  have fresh : first.hasBrute 0 = true := holds_of_outcome created opens (by decide +kernel)
  have tired : struck.hasBrute 1 = true :=
    holds_of_outcome created (runs_append.mpr ⟨first, opens, attacks⟩) (by decide +kernel)
  have rested : second.hasBrute 0 = true :=
    holds_of_outcome created (runs_append.mpr ⟨first, opens, runs_append.mpr
      ⟨struck, attacks, morphs⟩⟩) (by decide +kernel)
  have stands {duel : Duel} {attacks : Int} (has : duel.hasBrute attacks = true) :
      duel.turn = 1 ∧ ∃ brute, duel.entity? ⟨5⟩ = some brute ∧ brute.zone = .play :=
    have ⟨turn, _, brute, known, inPlay, _⟩ := hasBrute_spec has
    ⟨turn, brute, known, inPlay⟩
  refine ⟨start, first, struck, second, after, created, spares_morphs, opens, attacks, morphs,
    again, ?_, ?_, ?_, ?_⟩
  · rw [(hasBrute_spec fresh).2.1, (hasBrute_spec tired).2.1]
    rfl
  · rw [(hasBrute_spec rested).2.1, (hasBrute_spec last).2.1]
    rfl
  · exact List.forall_mem_cons.mpr ⟨stands fresh, List.forall_mem_cons.mpr ⟨stands tired,
      List.forall_mem_cons.mpr ⟨stands rested, List.forall_mem_singleton.mpr (stands last)⟩⟩⟩
  · intro within
    obtain ⟨-, -, boar, known, -, still⟩ := hasBrute_spec rested
    obtain ⟨swift, knownSwift, windfury⟩ := within.2 second rfl
    cases known.symm.trans knownSwift
    cases still.symm.trans windfury

end Duel

end CardDuel
