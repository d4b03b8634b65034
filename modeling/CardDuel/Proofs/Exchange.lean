import CardDuel.Proofs.Blows
import CardDuel.Proofs.Heroes

/-!
# The exchange of blows

The two who fight deal their damage one after the other.  The order can only matter to a hero who
fights itself and heals by its own blow: before the minion strikes back there may be less to heal
than afterwards.
-/

namespace CardDuel

open Relation

namespace Play

open Duel

/-- A fight in which the blows are dealt in some way. -/
def fightWith (blows : Int → Int → Play Unit) (attacker defender : EntityId) : Play Outcome := do
  let duel ← get
  if !duel.isStanding attacker || !duel.isStanding defender then
    return .stop
  else
    let attack := duel.attackOf attacker
    let counter := if (← lookup defender).kind = .minion then duel.attackOf defender else 0
    let entity ← lookup attacker
    change attacker fun entity => (entity.addTag .attacksThisTurn 1).setTag .stealth 0
    if entity.kind = .hero then
      match duel.weapon entity.owner with
      | none => pure ()
      | some weapon => change weapon fun weapon => weapon.addTag .durability (-1)
    blows attack counter
    announce (Event.aimed .afterAttack entity.owner attacker (some defender))
    return .complete

/-- The attacker deals its damage first. -/
theorem fight_eq (attacker defender : EntityId) :
    fight attacker defender = fightWith (fun attack counter => do
      damage attacker defender attack
      damage defender attacker counter) attacker defender := by
  unfold fight fightWith
  refine bind_congr fun duel => ?_
  split
  · rfl
  · refine bind_congr fun target => bind_congr fun entity => bind_congr fun _ => ?_
    cases duel.weapon entity.owner <;> simp only [bind_assoc]

/-- A fight in which the defender deals its damage first. -/
def fightReversed (attacker defender : EntityId) : Play Outcome :=
  fightWith (fun attack counter => do
    damage defender attacker counter
    damage attacker defender attack) attacker defender

end Play

namespace Duel

/-- The duel in which the blows of a fight fall: the attacker has attacked and shown itself, and a
hero has used its weapon. -/
def faced (duel : Duel) (attacker : EntityId) (champion : Entity) : Duel :=
  let ready := duel.updateEntity attacker fun entity =>
    (entity.addTag .attacksThisTurn 1).setTag .stealth 0
  if champion.kind = .hero then
    match duel.weapon champion.owner with
    | none => ready
    | some weapon => ready.updateEntity weapon fun weapon => weapon.addTag .durability (-1)
  else ready

variable {duel : Duel} {attacker defender : EntityId} {champion foe : Entity}

/-- How much damage a defender deals back. -/
def counterOf (duel : Duel) (defender : EntityId) (foe : Entity) : Int :=
  if foe.kind = .minion then duel.attackOf defender else 0

theorem exists_of_isStanding (standing : duel.isStanding attacker = true) :
    ∃ entity, duel.entity? attacker = some entity := by
  unfold isStanding at standing
  cases known : duel.entity? attacker with
  | none =>
      rw [known] at standing
      cases standing
  | some entity => exact ⟨entity, rfl⟩

end Duel

namespace Play

open Duel

variable {duel : Duel} {attacker defender : EntityId} {champion foe : Entity}

theorem change_of_entity? {id : EntityId} {entity : Entity} (known : duel.entity? id = some entity)
    (update : Entity → Entity) :
    Play.change id update duel = .ok () (duel.updateEntity id update) :=
  bind_of_ok (lookup_of_entity? known)

/-- Between two that stand a fight gets to the blows. -/
theorem fightWith_of_isStanding (manned : duel.Manned) (blows : Int → Int → Play Unit)
    (ready : duel.isStanding attacker = true) (ready' : duel.isStanding defender = true)
    (known : duel.entity? attacker = some champion) (known' : duel.entity? defender = some foe) :
    fightWith blows attacker defender duel =
      (do
        blows (duel.attackOf attacker) (duel.counterOf defender foe)
        announce (Event.aimed .afterAttack champion.owner attacker (some defender))
        return Outcome.complete : Play Outcome) (duel.faced attacker champion) := by
  unfold fightWith
  rw [get_bind, ready, ready']
  rw [if_neg (by simp), bind_of_ok (lookup_of_entity? known'), bind_of_ok (lookup_of_entity? known)]
  rw [bind_of_ok (change_of_entity? known _)]
  unfold faced
  split
  next hero =>
    cases wielded : duel.weapon champion.owner with
    | none => rfl
    | some weapon =>
      obtain ⟨held, knownHeld⟩ := manned.weapon _ _ wielded
      obtain ⟨later, knownLater⟩ : ∃ later, (duel.updateEntity attacker fun entity =>
          (entity.addTag .attacksThisTurn 1).setTag .stealth 0).entity? weapon = some later := by
        rw [entity?_updateEntity, knownHeld]
        split <;> exact ⟨_, rfl⟩
      exact bind_of_ok (change_of_entity? knownLater _)
  next => rfl

end Play

namespace Entity

/-- Getting to the blows leaves everything about an entity that matters to them. -/
structure Faces (later entity : Entity) : Prop where
  untagged : later.untagged = entity.untagged
  get : ∀ tag, tag ∉ [Tag.attacksThisTurn, .stealth, .durability] →
    later.tags.get tag = entity.tags.get tag

variable {entity mid later : Entity} {tag : Tag}

theorem faces_refl (entity : Entity) : entity.Faces entity :=
  ⟨rfl, fun _ _ => rfl⟩

theorem Faces.trans (first : mid.Faces entity) (second : later.Faces mid) : later.Faces entity where
  untagged := second.untagged.trans first.untagged
  get tag away := (second.get tag away).trans (first.get tag away)

theorem faces_setTag (entity : Entity) (value : Int)
    (marks : tag ∈ [Tag.attacksThisTurn, .stealth, .durability]) :
    (entity.setTag tag value).Faces entity where
  untagged := rfl
  get _ away := get_setTag entity value fun same => away (same ▸ marks)

theorem Faces.has (faces : later.Faces entity)
    (away : tag ∉ [Tag.attacksThisTurn, .stealth, .durability]) :
    later.has tag = entity.has tag := by
  have aura : later.aura = entity.aura := (congrArg Entity.aura faces.untagged :)
  have enchantments : later.enchantments = entity.enchantments :=
    (congrArg Entity.enchantments faces.untagged :)
  unfold Entity.has Tags.has
  rw [aura, enchantments, faces.get tag away]

theorem Faces.edge (faces : later.Faces entity) : later.edge = entity.edge := by
  have owner : later.owner = entity.owner := (congrArg Entity.owner faces.untagged :)
  refine edge_eq owner fun tag member => faces.has ?_
  revert tag
  decide

theorem Faces.isOpen (faces : later.Faces entity) : later.isOpen = entity.isOpen := by
  unfold Entity.isOpen
  rw [faces.has (by decide), faces.has (by decide)]

theorem Faces.damage (faces : later.Faces entity) : later.damage = entity.damage :=
  faces.get .damage (by decide)

theorem Faces.unabsorbed (faces : later.Faces entity) (amount : Int) :
    later.unabsorbed amount = entity.unabsorbed amount := by
  have kind : later.kind = entity.kind := (congrArg Entity.kind faces.untagged :)
  have armor : later.armor = entity.armor := faces.get .armor (by decide)
  unfold Entity.unabsorbed
  rw [kind, armor]

end Entity

namespace Duel

variable {duel left : Duel} {attacker defender : EntityId} {champion foe : Entity}

/-- Everybody gets to the blows of a fight with what matters to them. -/
theorem exists_turns_faced (duel : Duel) (attacker : EntityId) (champion : Entity) :
    ∃ change, duel.Turns change (duel.faced attacker champion) ∧
      ∀ id entity, (change id entity).Faces entity := by
  have ready := duel.turns_updateEntity attacker fun entity =>
    (entity.addTag .attacksThisTurn 1).setTag .stealth 0
  have readies (id : EntityId) (entity : Entity) : (if id = attacker then
      (entity.addTag .attacksThisTurn 1).setTag .stealth 0 else entity).Faces entity := by
    split
    · exact (entity.faces_setTag _ (by decide)).trans (Entity.faces_setTag _ 0 (by decide))
    · exact entity.faces_refl
  unfold faced
  dsimp only
  split
  · split
    · exact ⟨_, ready, readies⟩
    next weapon wielded =>
      refine ⟨_, ready.trans (turns_updateEntity _ weapon _), fun id entity => ?_⟩
      split
      · exact (readies id entity).trans (Entity.faces_setTag _ _ (by decide))
      · exact readies id entity
  · exact ⟨_, ready, readies⟩

/-- The order of the blows matters to an attacker. -/
structure Interferes (duel : Duel) (attacker defender : EntityId) (champion foe : Entity) :
    Prop where
  /-- A hero with lifesteal heals itself by its blow. -/
  hero : duel.hero champion.owner = attacker
  steals : champion.has .lifesteal = true
  lands : 0 < duel.attackOf attacker ∧ foe.isOpen = true
  /-- A minion strikes back, and gets through. -/
  minion : foe.kind = .minion
  strikes : 0 < duel.attackOf defender ∧ champion.isOpen = true
  /-- Beforehand there is less to heal than the hero could heal. -/
  spare : champion.damage < duel.attackOf attacker
  /-- Afterwards there is more, even if the minion heals the same hero. -/
  wounds :
    (if foe.has .lifesteal = true ∧ duel.hero foe.owner = attacker then duel.attackOf defender
      else 0) < champion.unabsorbed (duel.attackOf defender) + min champion.damage 0

/-- A blow stays the same after another one, unless that one met the same target. -/
theorem blow_on {other : Blow} {origin entity : Entity} {target : EntityId} (duel : Duel)
    (source : EntityId) (apart : target ≠ other.target) (amount : Int) :
    duel.blow (other.on source origin) target (other.on target entity) amount =
      duel.blow origin target entity amount := by
  have owner : (other.on source origin).owner = origin.owner :=
    congrArg Edge.owner (other.edge_on source origin)
  unfold blow
  rw [other.edge_on, owner, Blow.isOpen_on apart]

end Duel

namespace Play

open Duel

variable {duel : Duel} {first second attacker defender : EntityId}
variable {one other champion foe : Entity} {amount counter : Int}

theorem damage_zero (source target : EntityId) : damage source target 0 = pure () :=
  if_pos (Int.le_refl 0)

/-- Two blows between two entities, one after the other. -/
theorem does_blows (heroes : ∀ player, ∃ hero, duel.entity? (duel.hero player) = some hero)
    (known : duel.entity? first = some one) (known' : duel.entity? second = some other) :
    let blow := duel.blow one second other amount
    let back := duel.blow (blow.on second other) first (blow.on first one) counter
    duel.Does (fun id entity => back.on id (blow.on id entity))
      (do damage first second amount; damage second first counter) := by
  intro blow back
  obtain ⟨_, knownHero⟩ := heroes one.owner
  refine does_bind (does_damage known known' knownHero) fun left turns => ?_
  obtain ⟨_, knownHero'⟩ := heroes (blow.on second other).owner
  have sameHero : left.hero (blow.on second other).owner = duel.hero (blow.on second other).owner :=
    turns.hero _
  have same : left.blow (blow.on second other) first (blow.on first one) counter = back := by
    unfold back Duel.blow
    rw [sameHero]
  rw [← same]
  exact does_damage (turns.known known') (turns.known known)
    (turns.known (sameHero.symm ▸ knownHero'))

/-- A fight between two that stand succeeds if its blows do. -/
theorem exists_fightWith (manned : duel.Manned) (blows : Int → Int → Play Unit)
    {change : EntityId → Entity → Entity}
    (ready : duel.isStanding attacker = true) (ready' : duel.isStanding defender = true)
    (known : duel.entity? attacker = some champion) (known' : duel.entity? defender = some foe)
    (does : (duel.faced attacker champion).Does change
      (blows (duel.attackOf attacker) (duel.counterOf defender foe))) :
    ∃ left, fightWith blows attacker defender duel = .ok .complete left ∧
      (duel.faced attacker champion).Turns change left := by
  rw [fightWith_of_isStanding manned blows ready ready' known known']
  obtain ⟨_, left, ran, turns⟩ := Yields.exists_ok does
  rw [bind_of_ok ran]
  exact ⟨_, rfl, turns.players, turns.entity?⟩

end Play

namespace Duel

variable {duel faced : Duel} {attacker defender : EntityId}
variable {champion foe ready ready' : Entity} {change : EntityId → Entity → Entity}

/-- No minion is in the slot of a hero. -/
theorem Manned.hero_ne (manned : duel.Manned) (known : duel.entity? defender = some foe)
    (minion : foe.kind = .minion) (player : Player) : duel.hero player ≠ defender := by
  rintro rfl
  obtain ⟨hero, knownHero, kind⟩ := manned.hero player
  cases known.symm.trans knownHero
  cases minion.symm.trans kind

theorem counterOf_pos : 0 < duel.counterOf defender foe ↔
    foe.kind = .minion ∧ 0 < duel.attackOf defender := by
  unfold counterOf
  split
  next minion => exact (and_iff_right minion).symm
  next other => exact iff_of_false (Int.lt_irrefl 0) fun both => other both.1

/-- The order of the blows matters where the duel before the fight says so. -/
theorem spares_iff (heroes : ∀ player, faced.hero player = duel.hero player)
    (faces : ready.Faces champion) (faces' : ready'.Faces foe) :
    (faced.blow ready defender ready' (duel.attackOf attacker)).Spares
        (faced.blow ready' attacker ready (duel.counterOf defender foe)) ready ↔
      duel.Interferes attacker defender champion foe := by
  have owner : ready.owner = champion.owner := (congrArg Entity.owner faces.untagged :)
  have owner' : ready'.owner = foe.owner := (congrArg Entity.owner faces'.untagged :)
  have counter (strikes : 0 < duel.counterOf defender foe) :
      duel.counterOf defender foe = duel.attackOf defender :=
    if_pos (counterOf_pos.mp strikes).1
  have payback (strikes : 0 < duel.counterOf defender foe) (isOpen : champion.isOpen = true) :
      (faced.blow ready' attacker ready (duel.counterOf defender foe)).payback =
        if foe.has .lifesteal = true ∧ duel.hero foe.owner = attacker then duel.attackOf defender
        else 0 := by
    unfold Blow.payback blow
    dsimp only
    rw [faces.isOpen, faces'.edge, heroes, owner', ← counter strikes, isOpen,
      decide_eq_true strikes]
    exact if_congr (and_congr Iff.rfl eq_comm) rfl rfl
  have heals : (faced.blow ready defender ready' (duel.attackOf attacker)).heals = true ↔
      (0 < duel.attackOf attacker ∧ foe.isOpen = true) ∧ champion.has .lifesteal = true := by
    unfold blow
    dsimp only
    rw [faces'.isOpen, faces.edge, Bool.and_eq_true, Bool.and_eq_true, decide_eq_true_eq]
    rfl
  have hero : (faced.blow ready defender ready' (duel.attackOf attacker)).hero =
      duel.hero champion.owner := by
    unfold blow
    dsimp only
    rw [heroes, owner]
  constructor
  · intro spares
    have strikes : 0 < duel.counterOf defender foe := spares.strong
    have isOpen : champion.isOpen = true := faces.isOpen.symm.trans spares.isOpen
    have wounds := spares.wounds
    rw [payback strikes isOpen, faces.damage, faces.unabsorbed] at wounds
    obtain ⟨lands, steals⟩ := heals.mp spares.heals
    exact ⟨hero.symm.trans spares.hero, steals, lands, (counterOf_pos.mp strikes).1,
      ⟨(counterOf_pos.mp strikes).2, isOpen⟩, faces.damage ▸ spares.spare, counter strikes ▸ wounds⟩
  · intro interferes
    have strikes := counterOf_pos.mpr ⟨interferes.minion, interferes.strikes.1⟩
    have wounds := interferes.wounds
    rw [← payback strikes interferes.strikes.2, ← faces.damage, ← faces.unabsorbed,
      ← counter strikes] at wounds
    exact ⟨heals.mpr ⟨interferes.lands, interferes.steals⟩, hero.trans interferes.hero, strikes,
      faces.isOpen.trans interferes.strikes.2, faces.damage.symm ▸ interferes.spare, wounds⟩

/-- Who fights itself deals both blows alike. -/
theorem fight_self (manned : duel.Manned) (stands : duel.isStanding attacker = true)
    (known : duel.entity? attacker = some champion) :
    Play.fight attacker attacker duel = Play.fightReversed attacker attacker duel := by
  rw [Play.fight_eq, Play.fightReversed,
    Play.fightWith_of_isStanding manned _ stands stands known known,
    Play.fightWith_of_isStanding manned _ stands stands known known]
  unfold counterOf
  split
  · rfl
  · simp only [Play.damage_zero, bind_assoc, pure_bind]

/-- What two blows make of everybody, in both orders. -/
theorem on_blows_iff (manned : duel.Manned) (apart : attacker ≠ defender)
    (known' : duel.entity? defender = some foe)
    (heroes : ∀ player, faced.hero player = duel.hero player)
    (faces : ready.Faces champion) (faces' : ready'.Faces foe) :
    let deals := faced.blow ready defender ready' (duel.attackOf attacker)
    let returns := faced.blow ready' attacker ready (duel.counterOf defender foe)
    (∀ id entity, (id = attacker → entity = ready) → (id = defender → entity = ready') →
      (returns.on id (deals.on id entity) = deals.on id (returns.on id entity) ↔
        ¬ (id = attacker ∧ duel.Interferes attacker defender champion foe))) ∧
      ((deals.on attacker (returns.on attacker ready)).damage <
          (returns.on attacker (deals.on attacker ready)).damage ↔
        duel.Interferes attacker defender champion foe) := by
  intro deals returns
  have sound : deals.Sound := faced.blow_sound ready defender ready' _
  have sound' : returns.Sound := faced.blow_sound ready' attacker ready _
  have spares : deals.Spares returns ready ↔ duel.Interferes attacker defender champion foe :=
    spares_iff heroes faces faces'
  obtain ⟨same, damages⟩ := Blow.on_target sound sound' apart
    (faced.heals_blow_of_closed attacker (duel.counterOf defender foe))
  refine ⟨fun id entity isReady isReady' => ?_, damages.trans spares⟩
  by_cases atAttacker : id = attacker
  · rw [isReady atAttacker, atAttacker, and_iff_right rfl, ← spares]
    exact same
  rw [iff_true_right fun both => atAttacker both.1]
  by_cases atDefender : id = defender
  · -- A minion that strikes back is nobody's hero, so the blows at it heal somebody else.
    have never : ¬ returns.Spares deals ready' := fun spared => by
      have minion := (counterOf_pos.mp (sound' spared.heals)).1
      exact manned.hero_ne known' minion _ ((heroes _).symm.trans spared.hero)
    rw [isReady' atDefender, atDefender]
    exact ((Blow.on_target sound' sound apart.symm
      (faced.heals_blow_of_closed defender (duel.attackOf attacker))).1.mpr never).symm
  · exact Blow.on_comm sound sound' atDefender atAttacker

/-- The two orders of the blows leave everybody the same, unless the order matters to the attacker:
then the attacker alone differs, and has more damage when it deals its own blow first.  Damage has no
bound here; where it is kept in words, this is so as long as a word holds the damage of each side
together with the blow that it takes. -/
theorem exchange_iff (manned : duel.Manned) (stands : duel.isStanding attacker = true)
    (stands' : duel.isStanding defender = true) :
    ∃ champion foe one other, duel.entity? attacker = some champion ∧
      duel.entity? defender = some foe ∧
        Play.fight attacker defender duel = .ok .complete one ∧
          Play.fightReversed attacker defender duel = .ok .complete other ∧
            (∀ id, one.entity? id = other.entity? id ↔
              ¬ (id = attacker ∧ duel.Interferes attacker defender champion foe)) ∧
            ∀ first last, one.entity? attacker = some first → other.entity? attacker = some last →
              (last.damage < first.damage ↔ duel.Interferes attacker defender champion foe) := by
  obtain ⟨champion, known⟩ := exists_of_isStanding stands
  obtain ⟨foe, known'⟩ := exists_of_isStanding stands'
  obtain ⟨change, turns, faces⟩ := duel.exists_turns_faced attacker champion
  have heroes : ∀ player, ∃ hero, (duel.faced attacker champion).entity?
      ((duel.faced attacker champion).hero player) = some hero := by
    intro player
    obtain ⟨hero, knownHero, -⟩ := manned.hero player
    rw [turns.hero]
    exact ⟨_, turns.known knownHero⟩
  obtain ⟨one, ran, left⟩ := Play.exists_fightWith manned
    (fun attack counter => do
      Play.damage attacker defender attack
      Play.damage defender attacker counter)
    stands stands' known known' (Play.does_blows heroes (turns.known known) (turns.known known'))
  obtain ⟨other, ran', left'⟩ := Play.exists_fightWith manned
    (fun attack counter => do
      Play.damage defender attacker counter
      Play.damage attacker defender attack)
    stands stands' known known' (Play.does_blows heroes (turns.known known') (turns.known known))
  rw [Play.fight_eq]
  refine ⟨champion, foe, one, other, known, known', ran, ran', ?_⟩
  by_cases apart : attacker = defender
  · subst apart
    cases known.symm.trans known'
    have never : ¬ duel.Interferes attacker attacker champion champion := fun interferes =>
      manned.hero_ne known interferes.minion _ interferes.hero
    have same := fight_self manned stands known
    rw [Play.fight_eq, ran] at same
    cases same.trans ran'
    refine ⟨fun id => iff_of_true rfl fun both => never both.2,
      fun first last knownFirst knownLast => ?_⟩
    cases knownFirst.symm.trans knownLast
    exact iff_of_false (Int.lt_irrefl _) never
  · obtain ⟨agree, damages⟩ := on_blows_iff manned apart known' turns.hero
      (faces attacker champion) (faces defender foe)
    rw [blow_on _ _ apart] at left
    rw [blow_on _ _ (Ne.symm apart)] at left'
    refine ⟨fun id => ?_, fun first last knownFirst knownLast => ?_⟩
    · rw [left.entity?, left'.entity?]
      cases met : (duel.faced attacker champion).entity? id with
      | none =>
          refine iff_of_true rfl ?_
          rintro ⟨rfl, -⟩
          cases (turns.known known).symm.trans met
      | some entity =>
          refine Option.some_inj.trans (agree id entity ?_ ?_)
          · rintro rfl
            exact Option.some.inj (met.symm.trans (turns.known known))
          · rintro rfl
            exact Option.some.inj (met.symm.trans (turns.known known'))
    · cases (left.known (turns.known known)).symm.trans knownFirst
      cases (left'.known (turns.known known)).symm.trans knownLast
      exact damages

end Duel

/-- A wisp, and a rite that gives a hero two attack and lifesteal for a turn. -/
def Catalogue.zealots : Catalogue :=
  .ofEntries
    [⟨Card.hero ⟨1⟩ "HERO" "" .mage 30 "POWER", Behaviour.none⟩,
      ⟨Card.power ⟨2⟩ "POWER" "" 2, Behaviour.none⟩,
      ⟨Card.minion ⟨3⟩ "WISP" "" 0 1 3, Behaviour.none⟩,
      ⟨Card.spell ⟨4⟩ "RITE" "" 0, { Behaviour.none with effects := [.enchant "FERVOR" .hero] }⟩,
      ⟨Card.enchantment ⟨5⟩ "FERVOR" "",
        { Behaviour.none with
          enchant := some { Modifier.none with
            attack := 2, grants := [.lifesteal], oneTurn := true } }⟩]
    [(.mage, ⟨1⟩)] (by decide) (by decide)

/-- Player zero draws the wisp, player one the rite and wisps. -/
def Settings.zealots : Settings :=
  { Settings.standard with
    decks := [["WISP"], ["WISP", "WISP", "WISP", "WISP", "RITE"]]
    shuffleDecks := false }

theorem Catalogue.heroesFit_zealots : Catalogue.zealots.HeroesFit := by
  intro cardClass card found
  cases cardClass <;> cases found
  rfl

namespace Duel

/-- A duel in which the wisp of player zero stands against the zealous hero of player one. -/
theorem exists_zealot (holds : Duel → Bool)
    (comes : (outcome? Settings.zealots Catalogue.zealots 100
      [.start, .take .zero (.play ⟨4⟩), .take .zero .endTurn, .take .one (.play ⟨11⟩)]).any
        (fun now => now.isStanding ⟨5⟩ && now.isStanding ⟨4⟩ && holds now) = true) :
    ∃ start now, Duel.create Settings.zealots Catalogue.zealots = .ok start ∧
      ReflTransGen Change start now ∧ now.Manned ∧ now.isStanding ⟨5⟩ = true ∧
        now.isStanding ⟨4⟩ = true ∧ holds now = true := by
  obtain ⟨start, now, created, runs, comes⟩ := exists_of_outcome _ _ _ _ _ comes
  simp only [Bool.and_eq_true] at comes
  have reaches := reaches_of_runs runs
  exact ⟨start, now, created, reaches,
    manned_of_reaches Catalogue.heroesFit_zealots created reaches, comes.1.1, comes.1.2, comes.2⟩

/-- When the wisp attacks the zealous hero, who does not strike back, everybody is the same in both
orders of the blows. -/
theorem exchange_iff_zealots :
    ∃ start now one other, Duel.create Settings.zealots Catalogue.zealots = .ok start ∧
      ReflTransGen Change start now ∧ now.Manned ∧ now.isStanding ⟨4⟩ = true ∧
        now.isStanding ⟨5⟩ = true ∧ Play.fight ⟨4⟩ ⟨5⟩ now = .ok .complete one ∧
          Play.fightReversed ⟨4⟩ ⟨5⟩ now = .ok .complete other ∧
            ∀ id, one.entity? id = other.entity? id := by
  obtain ⟨start, now, created, reaches, manned, stands, stands', kinds⟩ :=
    exists_zealot (fun now => (now.entity? ⟨5⟩).any fun hero => hero.kind = .hero)
      (by decide +kernel)
  obtain ⟨hero, knownHero, isHero⟩ := (Option.any_eq_true _ _).mp kinds
  obtain ⟨wisp, foe, one, other, -, known, ran, ran', same, -⟩ := exchange_iff manned stands' stands
  cases known.symm.trans knownHero
  refine ⟨start, now, one, other, created, reaches, manned, stands', stands, ran, ran',
    fun id => ?_⟩
  refine (same id).mpr fun ⟨_, interferes⟩ => ?_
  cases interferes.minion.symm.trans (of_decide_eq_true isHero)

/-- The zealous hero who attacks the wisp keeps the damage that it is dealt, although by its own
blow it would heal that damage if the wisp struck first. -/
theorem not_simultaneous_zealots :
    ∃ start now one other first last,
      Duel.create Settings.zealots Catalogue.zealots = .ok start ∧
        ReflTransGen Change start now ∧ now.isStanding ⟨5⟩ = true ∧ now.isStanding ⟨4⟩ = true ∧
          Play.fight ⟨5⟩ ⟨4⟩ now = .ok .complete one ∧
            Play.fightReversed ⟨5⟩ ⟨4⟩ now = .ok .complete other ∧
              one.entity? ⟨5⟩ = some first ∧ other.entity? ⟨5⟩ = some last ∧
                first.damage = 1 ∧ last.damage = 0 := by
  let leaves (damage : Int) (outcome : Outcome) (left : Duel) : Bool :=
    outcome = .complete && (left.entity? ⟨5⟩).any fun hero => hero.damage = damage
  obtain ⟨start, now, created, reaches, -, hero, wisp, differs⟩ := exists_zealot
    (fun now => (Play.fight ⟨5⟩ ⟨4⟩).ends now (leaves 1) &&
      (Play.fightReversed ⟨5⟩ ⟨4⟩).ends now (leaves 0)) (by decide +kernel)
  obtain ⟨fights, turns⟩ := Bool.and_eq_true_iff.mp differs
  obtain ⟨outcome, one, ran, hurt⟩ := Play.exists_of_ends fights
  obtain ⟨outcome', other, ran', healed⟩ := Play.exists_of_ends turns
  simp only [leaves, Bool.and_eq_true, Option.any_eq_true, decide_eq_true_eq] at hurt healed
  obtain ⟨rfl, first, known, hurt⟩ := hurt
  obtain ⟨rfl, last, known', healed⟩ := healed
  exact ⟨start, now, one, other, first, last, created, reaches, hero, wisp, ran, ran', known,
    known', hurt, healed⟩

end Duel

end CardDuel
