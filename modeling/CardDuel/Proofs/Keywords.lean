import CardDuel.Proofs.Exchange
import CardDuel.Proofs.Expiry
import CardDuel.Proofs.Feats

/-!
# Keywords that are used up

An entity has a keyword of its own, or an aura or an enchantment grants it.  A shield that absorbs a
hit is lost with what enchantments grant of it.  Whoever attacks loses only its own stealth, and
whoever thaws only its own frost: what an enchantment grants of these outlasts their use.
-/

namespace CardDuel

open Relation

namespace Entity

variable {entity : Entity} {tag : Tag}

/-- Whether an enchantment grants a keyword to the entity. -/
def IsCharmed (entity : Entity) (tag : Tag) : Prop :=
  ∃ mark ∈ entity.enchantments, tag ∈ mark.effect.grants

/-- The three sources of a keyword. -/
theorem has_iff : entity.has tag = true ↔
    entity.tags.has tag = true ∨ tag ∈ entity.aura.grants ∨ entity.IsCharmed tag := by
  unfold has IsCharmed
  simp [or_assoc]

/-- A lost shield stays only where an aura grants it. -/
theorem has_divineShield_loseShield :
    entity.loseShield.has .divineShield = true ↔ Tag.divineShield ∈ entity.aura.grants := by
  have spent : entity.loseShield.tags.has .divineShield = false := by
    simp [loseShield, Tags.has]
  have bare : ¬ entity.loseShield.IsCharmed .divineShield := by
    rintro ⟨mark, member, grants⟩
    obtain ⟨old, -, rfl⟩ := List.mem_map.mp member
    simp at grants
  rw [has_iff, spent, or_iff_left bare, or_iff_right Bool.false_ne_true]
  rfl

/-- An attacker: it has attacked once more and gives up its own stealth. -/
def shown (entity : Entity) : Entity :=
  (entity.addTag .attacksThisTurn 1).setTag .stealth 0

/-- Whoever attacks has the stealth of auras and enchantments left. -/
theorem has_stealth_shown :
    entity.shown.has .stealth = true ↔
      Tag.stealth ∈ entity.aura.grants ∨ entity.IsCharmed .stealth := by
  have spent : entity.shown.tags.has .stealth = false := by
    simp [shown, setTag, Tags.has]
  rw [has_iff, spent, or_iff_right Bool.false_ne_true]
  rfl

theorem thaw_thaw (entity : Entity) : entity.thaw.thaw = entity.thaw := by
  unfold thaw
  split
  · refine if_neg ?_
    simp [setTag, Tags.has]
  next stays => rfl

/-- Whoever has not attacked thaws at the end of the turn, but for the frost of auras and of
enchantments that last. -/
theorem has_frozen_thaw (idle : entity.tags.get .attacksThisTurn = 0) :
    entity.expire.thaw.has .frozen = true ↔ Tag.frozen ∈ entity.aura.grants ∨
      ∃ mark ∈ entity.enchantments, mark.effect.oneTurn = false ∧
        Tag.frozen ∈ mark.effect.grants := by
  have rests : entity.expire.tags.get .attacksThisTurn = 0 :=
    (entity.get_expire (by decide)).trans idle
  have spent : entity.expire.thaw.tags.has .frozen = false := by
    unfold thaw
    rw [rests]
    split
    next => simp [setTag, Tags.has]
    next warm => simpa using warm
  have aura : entity.expire.thaw.aura = entity.aura := by
    refine Eq.trans ?_ entity.aura_expire
    unfold thaw
    split <;> rfl
  have enchantments : entity.expire.thaw.enchantments =
      entity.enchantments.filter fun e => !e.effect.oneTurn := by
    refine Eq.trans ?_ entity.enchantments_expire
    unfold thaw
    split <;> rfl
  rw [has_iff, spent, aura, IsCharmed, enchantments]
  simp [and_assoc]

end Entity

/-! ## Absorbed hits -/

namespace Play

open Duel

variable {duel : Duel} {source id attacker defender : EntityId} {entity : Entity} {amount : Int}

/-- A shield absorbs a hit, and is lost. -/
theorem damage_absorbed (known : duel.entity? id = some entity) (strong : 0 < amount)
    (mortal : entity.has .immune = false) (shielded : entity.has .divineShield = true) :
    damage source id amount duel = .ok () (duel.updateEntity id Entity.loseShield) := by
  unfold damage
  rw [if_neg (Int.not_le.mpr strong), get_bind, bind_of_ok (lookup_of_entity? known), mortal,
    shielded]
  exact change_of_entity? known Entity.loseShield

end Play

/-! ## Attacks -/

namespace Duel

variable {before after : Duel} {id : EntityId}

/-- An entity has stealth afterwards exactly if it had it before. -/
def Hides (id : EntityId) (before after : Duel) : Prop :=
  ∀ entity, before.entity? id = some entity →
    ∃ later, after.entity? id = some later ∧ later.has .stealth = entity.has .stealth

theorem hides_updateEntity (duel : Duel) (id other : EntityId) {change : Entity → Entity}
    (kept : ∀ entity, (change entity).has .stealth = entity.has .stealth) :
    Hides id duel (duel.updateEntity other change) := by
  intro entity known
  rw [entity?_updateEntity, known]
  split
  · exact ⟨change entity, rfl, kept entity⟩
  · exact ⟨entity, rfl, rfl⟩

theorem hides_of_reaches (reaches : ReflTransGen (Hides id) before after) :
    Hides id before after := by
  intro entity known
  induction reaches with
  | refl => exact ⟨entity, known, rfl⟩
  | tail _ last ih =>
      obtain ⟨middle, knownMiddle, same⟩ := ih
      obtain ⟨later, knownLater, same'⟩ := last middle knownMiddle
      exact ⟨later, knownLater, same'.trans same⟩

instance (id : EntityId) : Harming (Hides id) where
  hit duel target amount poisonous freezing :=
    duel.hides_updateEntity id target fun _ => Entity.has_takeHit (by decide)
  loseShield duel target :=
    duel.hides_updateEntity id target fun _ => Entity.has_loseShield (by decide)
  heal duel _ _ _ _ := duel.hides_updateEntity id _ fun _ => Entity.has_addTag _ (by decide)
  report _ _ _ entity known := ⟨entity, known, rfl⟩

end Duel

namespace Play

open Duel

variable {duel : Duel} {attacker defender : EntityId} {champion : Entity}

/-- After a fight the attacker has as much stealth as when it had shown itself. -/
theorem ensures_fight_shown (known : duel.entity? attacker = some champion) :
    (fight attacker defender).Ensures duel fun outcome left => outcome = .complete →
      ∃ later, left.entity? attacker = some later ∧
        later.has .stealth = champion.shown.has .stealth := by
  have blows (entity : Entity) (attack counter : Int) : Follows (Hides attacker) (do
      damage attacker defender attack
      damage defender attacker counter
      announce (Event.aimed .afterAttack entity.owner attacker (some defender))
      return Outcome.complete) :=
    follows_damage.bind fun _ => follows_damage.bind fun _ =>
      (follows_modify fun _ entity known => ⟨entity, known, rfl⟩).bind fun _ => follows_pure
  have tires (weapon : EntityId) : Follows (Hides attacker)
      (Play.change weapon fun weapon => weapon.addTag .durability (-1)) :=
    fun duel => leads_change fun _ _ =>
      duel.hides_updateEntity attacker weapon fun _ => Entity.has_addTag _ (by decide)
  let ready := duel.updateEntity attacker Entity.shown
  have knownReady : ready.entity? attacker = some champion.shown := by
    rw [entity?_updateEntity, if_pos rfl, known]
    rfl
  have stays {action : Play Outcome} (follows : Follows (Hides attacker) action) :
      action.Ensures ready fun outcome left => outcome = .complete →
        ∃ later, left.entity? attacker = some later ∧
          later.has .stealth = champion.shown.has .stealth :=
    follows.ensures.mono fun _ _ reaches _ => hides_of_reaches reaches champion.shown knownReady
  unfold fight
  rw [ensures_get_bind]
  split
  · exact nofun
  · refine ensures_bind.mpr (yields_lookup.mpr ⟨fun foe _ => ?_, fun _ => trivial⟩)
    refine (yields_bind_of_ok (lookup_of_entity? known)).mpr ?_
    refine (yields_bind_of_ok (change_of_entity? known Entity.shown)).mpr (stays ?_)
    dsimp only
    split
    · split
      · exact blows champion _ _
      · exact (tires _).bind fun _ => blows champion _ _
    · exact blows champion _ _

/-- Whoever is told to thaws, once or more often, and nobody else changes. -/
theorem ensures_thaws_each (ids : List EntityId) :
    (ids.forM fun id => change id Entity.thaw).Ensures duel fun _ left => ∀ id,
      left.entity? id =
        if id ∈ ids then (duel.entity? id).map Entity.thaw else duel.entity? id := by
  induction ids generalizing duel with
  | nil => exact fun id => (if_neg List.not_mem_nil).symm
  | cons first ids ih =>
      change (Play.change first Entity.thaw >>= fun _ =>
        ids.forM fun id => change id Entity.thaw).Ensures duel _
      unfold Play.change
      rw [ensures_bind]
      refine ensures_bind.mpr (yields_lookup.mpr ⟨fun entity _ => ?_, fun _ => trivial⟩)
      change (ids.forM fun id => change id Entity.thaw).Ensures
        (duel.updateEntity first Entity.thaw) _
      refine ih.mono fun _ left each id => ?_
      rw [each, entity?_updateEntity]
      by_cases here : id = first
      · rw [if_pos here, if_pos (List.mem_cons.mpr (.inl here)), Option.map_map]
        have again : Entity.thaw ∘ Entity.thaw = Entity.thaw := funext Entity.thaw_thaw
        rw [again, ite_self]
      · rw [if_neg here]
        exact if_congr (by simp [here]) rfl rfl

end Play

namespace Duel

variable {duel : Duel} {id : EntityId} {entity : Entity}

/-- What becomes of keywords that are used up. -/
structure Spends (duel : Duel) (id : EntityId) (entity : Entity) : Prop where
  /-- A shield that absorbs a hit is lost, unless an aura grants it. -/
  absorbs : ∀ source amount, 0 < amount → entity.has .immune = false →
    entity.has .divineShield = true →
      ∃ left later, Play.damage source id amount duel = .ok () left ∧
        left.entity? id = some later ∧
          (later.has .divineShield = true ↔ Tag.divineShield ∈ entity.aura.grants)
  /-- Whoever has attacked is stealthed exactly if an aura or an enchantment grants it. -/
  shows : ∀ defender left, Play.fight id defender duel = .ok .complete left →
    ∃ later, left.entity? id = some later ∧
      (later.has .stealth = true ↔ Tag.stealth ∈ entity.aura.grants ∨ entity.IsCharmed .stealth)
  /-- Whoever has not attacked in a turn is frozen after it exactly if an aura grants it or an
  enchantment that lasts. -/
  thaws : ∀ player left, Play.cleanUpTurn player duel = .ok () left →
    id ∈ duel.field player ++ [duel.hero player] → entity.tags.get .attacksThisTurn = 0 →
      ∃ later, left.entity? id = some later ∧ (later.has .frozen = true ↔
        Tag.frozen ∈ entity.aura.grants ∨ ∃ mark ∈ entity.enchantments,
          mark.effect.oneTurn = false ∧ Tag.frozen ∈ mark.effect.grants)

/-- Shields are used up whatever grants them; stealth and frost that enchantments grant are not. -/
theorem spends (known : duel.entity? id = some entity) : duel.Spends id entity where
  absorbs source amount strong mortal shielded := by
    refine ⟨_, _, Play.damage_absorbed known strong mortal shielded, ?_,
      Entity.has_divineShield_loseShield⟩
    rw [entity?_updateEntity, if_pos rfl, known]
    rfl
  shows defender left ran := by
    obtain ⟨later, knownLater, same⟩ := (Play.ensures_fight_shown known).of_ok ran rfl
    exact ⟨later, knownLater, same ▸ Entity.has_stealth_shown⟩
  thaws player left ran member idle := by
    let expired := duel.expireEnchantments.updatePlayer player fun state =>
      state.setTag .temporaryMana 0
    have cleans : (Play.cleanUpTurn player).Ensures duel fun _ left => ∀ id,
        left.entity? id = if id ∈ expired.field player ++ [expired.hero player] then
          (expired.entity? id).map Entity.thaw else expired.entity? id := by
      unfold Play.cleanUpTurn
      rw [Play.ensures_modify_bind, Play.ensures_get_bind]
      exact Play.ensures_thaws_each _
    have hero : expired.hero player = duel.hero player := by
      unfold Duel.hero
      rw [player_updatePlayer, if_pos rfl]
      rfl
    have knownExpired : expired.entity? id = some entity.expire := by
      change (duel.arena.updateAll fun _ entity => entity.expire).get? id = _
      rw [Arena.get?_updateAll]
      exact congrArg (Option.map Entity.expire) known
    refine ⟨entity.expire.thaw, ?_, Entity.has_frozen_thaw idle⟩
    have field : expired.field player = duel.field player := rfl
    rw [cleans.of_ok ran id, hero, field, if_pos member, knownExpired]
    rfl

end Duel

/-- A scout that can attack at once, with a veil of its own and frost for its hero. -/
def Catalogue.scouts : Catalogue :=
  .ofEntries
    [⟨Card.hero ⟨1⟩ "HERO" "" .mage 30 "POWER", Behaviour.none⟩,
      ⟨Card.power ⟨2⟩ "POWER" "" 2, Behaviour.none⟩,
      ⟨{ Card.minion ⟨3⟩ "SCOUT" "" 0 1 1 with tags := Tags.empty.set .charge 1 },
        { Behaviour.none with
          effects := [.enchant "VEIL" .source, .enchant "FROST" .hero] }⟩,
      ⟨Card.enchantment ⟨4⟩ "VEIL" "",
        { Behaviour.none with
          enchant := some { Modifier.none with grants := [.divineShield, .stealth] } }⟩,
      ⟨Card.enchantment ⟨5⟩ "FROST" "",
        { Behaviour.none with enchant := some { Modifier.none with grants := [.frozen] } }⟩]
    [(.mage, ⟨1⟩)] (by decide) (by decide)

/-- Player zero draws the scout. -/
def Settings.scouts : Settings :=
  { Settings.standard with decks := [["SCOUT"], []], shuffleDecks := false }

namespace Duel

/-- The duel in which the scout has been played. -/
theorem exists_scouting (holds : Duel → Entity → Entity → Bool)
    (comes : (outcome? Settings.scouts Catalogue.scouts 100
      [.start, .take .zero (.play ⟨4⟩)]).any (fun now => (now.entity? ⟨4⟩).any fun scout =>
        (now.entity? ⟨2⟩).any fun hero => holds now scout hero) = true) :
    ∃ start now scout hero, Duel.create Settings.scouts Catalogue.scouts = .ok start ∧
      start.Runs 100 [.start, .take .zero (.play ⟨4⟩)] now ∧ now.entity? ⟨4⟩ = some scout ∧
        now.entity? ⟨2⟩ = some hero ∧ holds now scout hero = true := by
  obtain ⟨start, now, created, runs, seen⟩ := exists_of_outcome _ _ _ _ _ comes
  simp only [Option.any_eq_true] at seen
  obtain ⟨scout, known, hero, knownHero, held⟩ := seen
  exact ⟨start, now, scout, hero, created, runs, known, knownHero, held⟩

/-- The scout has a shield that can absorb a hit, and the hero can thaw. -/
theorem spends_scouts :
    ∃ start now scout hero, Duel.create Settings.scouts Catalogue.scouts = .ok start ∧
      start.Runs 100 [.start, .take .zero (.play ⟨4⟩)] now ∧ now.entity? ⟨4⟩ = some scout ∧
        now.entity? ⟨2⟩ = some hero ∧ scout.has .immune = false ∧
          scout.has .divineShield = true ∧ hero.tags.get .attacksThisTurn = 0 ∧
            now.Spends ⟨4⟩ scout ∧ now.Spends ⟨2⟩ hero := by
  obtain ⟨start, now, scout, hero, created, runs, known, knownHero, held⟩ :=
    exists_scouting (fun _ scout hero => !scout.has .immune && scout.has .divineShield &&
      hero.tags.get .attacksThisTurn = 0) (by decide +kernel)
  simp only [Bool.and_eq_true, Bool.not_eq_true', decide_eq_true_eq] at held
  obtain ⟨⟨mortal, shielded⟩, idle⟩ := held
  exact ⟨start, now, scout, hero, created, runs, known, knownHero, mortal, shielded, idle,
    spends known, spends knownHero⟩

/-- No aura grants them anything, but the scout has stealth after its attack, and the hero, who has
not attacked, is frozen after the turn. -/
theorem not_spent_scouts :
    ∃ start now scout hero, Duel.create Settings.scouts Catalogue.scouts = .ok start ∧
      start.Runs 100 [.start, .take .zero (.play ⟨4⟩)] now ∧ now.entity? ⟨4⟩ = some scout ∧
        now.entity? ⟨2⟩ = some hero ∧ scout.aura.grants = [] ∧ hero.aura.grants = [] ∧
          hero.tags.get .attacksThisTurn = 0 ∧ ⟨2⟩ ∈ now.field .zero ++ [now.hero .zero] ∧
          (∃ left later, Play.fight ⟨4⟩ ⟨5⟩ now = .ok .complete left ∧
            left.entity? ⟨4⟩ = some later ∧ later.has .stealth = true) ∧
          ∃ left later, Play.cleanUpTurn .zero now = .ok () left ∧
            left.entity? ⟨2⟩ = some later ∧ later.has .frozen = true := by
  obtain ⟨start, now, scout, hero, created, runs, known, knownHero, held⟩ :=
    exists_scouting (fun now scout hero => scout.aura.grants = [] && hero.aura.grants = [] &&
      hero.tags.get .attacksThisTurn = 0 && now.hero .zero = ⟨2⟩ &&
        (Play.fight ⟨4⟩ ⟨5⟩).ends now (fun outcome left => outcome = .complete &&
          (left.entity? ⟨4⟩).any fun later => later.has .stealth) &&
        (Play.cleanUpTurn .zero).ends now fun _ left =>
          (left.entity? ⟨2⟩).any fun later => later.has .frozen) (by decide +kernel)
  simp only [Bool.and_eq_true, decide_eq_true_eq] at held
  obtain ⟨⟨⟨⟨⟨plain, plain'⟩, idle⟩, slot⟩, fights⟩, cleans⟩ := held
  obtain ⟨outcome, left, fought, seen⟩ := Play.exists_of_ends fights
  obtain ⟨⟨⟩, after, cleaned, seen'⟩ := Play.exists_of_ends cleans
  simp only [Bool.and_eq_true, decide_eq_true_eq, Option.any_eq_true] at seen seen'
  obtain ⟨rfl, later, knownLater, hides⟩ := seen
  obtain ⟨later', knownLater', freezes⟩ := seen'
  have inPlay : ⟨2⟩ ∈ now.field .zero ++ [now.hero .zero] := by simp [slot]
  exact ⟨start, now, scout, hero, created, runs, known, knownHero, plain, plain', idle, inPlay,
    ⟨left, later, fought, knownLater, hides⟩, after, later', cleaned, knownLater', freezes⟩

end Duel

end CardDuel
