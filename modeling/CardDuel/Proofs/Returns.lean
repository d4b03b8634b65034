import CardDuel.Proofs.Fates

/-!
# Coming back to the hand or the deck

A card that goes from play to the hand or the deck becomes a fresh copy again.  From anywhere else
it keeps what it has, and a minion that died has its mark of death still when it comes back from the
graveyard.
-/

namespace CardDuel

open Relation

namespace Entity

/-- Nothing has happened to an entity since it was made of a card, as far as its state goes. -/
structure IsFresh (entity : Entity) (card : Card) : Prop where
  intact : entity.destroyed = false
  tags : entity.tags = freshTags card
  enchantments : entity.enchantments = []
  aura : entity.aura = AuraTotal.zero

variable {entity later : Entity} {card : Card}

theorem IsFresh.of_body (fresh : entity.IsFresh card) (same : later.body = entity.body) :
    later.IsFresh card where
  intact := (congrArg Entity.destroyed same).trans fresh.intact
  tags := (congrArg Entity.tags same).trans fresh.tags
  enchantments := (congrArg Entity.enchantments same).trans fresh.enchantments
  aura := (congrArg Entity.aura same).trans fresh.aura

/-- A fresh copy of a card lives unless the card is printed dead. -/
theorem IsFresh.isDead (isFresh : entity.IsFresh card) :
    entity.isDead = (fresh entity.owner card entity.kind).isDead := by
  unfold Entity.isDead health maxHealth enchanted damage durability
  rw [isFresh.intact, isFresh.tags, isFresh.enchantments, isFresh.aura]
  rfl

theorem isDead_of_destroyed (marked : entity.destroyed = true) : entity.isDead = true := by
  unfold isDead
  rw [marked]
  rfl

theorem destroyed_keepHealth (entity before : Entity) :
    (entity.keepHealth before).destroyed = entity.destroyed := by
  unfold keepHealth
  split <;> rfl

theorem Revision.destroyed {change : Entity → Entity} (revision : Revision change)
    (marked : entity.destroyed = true) : (change entity).destroyed = true := by
  cases revision with
  | destroy => rfl
  | hit amount poisonous freezing =>
      unfold takeHit
      simp only [apply_ite Entity.destroyed, setTag, addTag, marked, ite_self]
  | refresh =>
      unfold Entity.refresh
      dsimp only
      split <;> exact marked
  | thaw =>
      unfold Entity.thaw
      split <;> exact marked
  | enchant enchantment => exact (destroyed_keepHealth _ entity).trans marked
  | _ => exact marked

end Entity

namespace Duel

variable {duel before after now past : Duel} {id : EntityId} {entity later : Entity}
variable {card : Card} {goal : ZoneKind}

/-- From play to the hand or the deck. -/
def ComesHome (entity : Entity) (goal : ZoneKind) : Prop :=
  entity.zone = .play ∧ (goal = .hand ∨ goal = .deck)

theorem body_partedBody (duel : Duel) (goal : ZoneKind) (entity : Entity) :
    (duel.partedBody goal entity).body = duel.partedBody goal entity := by
  unfold partedBody
  split <;> rfl

/-- Whoever comes home becomes a fresh copy of its card. -/
theorem isFresh_partedBody (home : ComesHome entity goal)
    (listed : duel.catalogue.card? entity.card = some card) :
    (duel.partedBody goal entity).IsFresh card := by
  unfold partedBody afterPlay
  rw [if_pos home.1, if_pos home.2, listed]
  exact ⟨rfl, rfl, rfl, rfl⟩

/-- Elsewhere a mark of death stays. -/
theorem destroyed_partedBody (away : ¬ ComesHome entity goal) :
    (duel.partedBody goal entity).destroyed = entity.destroyed := by
  unfold partedBody afterPlay
  split
  next inPlay =>
    dsimp only
    rw [if_neg fun home => away ⟨inPlay, home⟩]
    rfl
  · rfl

/-- An entity becomes a fresh copy: it comes home from play, or it takes on another form. -/
inductive Recasts (id : EntityId) : Duel → Duel → Prop
  | home (duel : Duel) {entity : Entity} {goal : ZoneKind} (placement : Placement)
      (known : duel.entity? id = some entity) (home : ComesHome entity goal) :
      Recasts id duel (duel.relocate id entity goal placement)
  | transform (duel : Duel) {entity : Entity} {form : CardId} {card : Card}
      (known : duel.entity? id = some entity) (listed : duel.catalogue.card? form = some card)
      (kind : EntityKind.ofCardType? card.cardType = some entity.kind) :
      Recasts id duel (((duel.dropTriggers id).updateEntity id fun entity =>
        entity.replacedBy card).startTriggers id entity.zone)

/-- A change in which an entity does not become a fresh copy. -/
def Wears (id : EntityId) (before after : Duel) : Prop :=
  Change before after ∧ ¬ Recasts id before after

/-- A mark of death goes in no other way. -/
theorem Fate.destroyed (fate : Fate before id entity after later)
    (known : before.entity? id = some entity) (lasts : ¬ Recasts id before after)
    (marked : entity.destroyed = true) : later.destroyed = true := by
  have kept {body : Entity} (same : later.body = body) (still : body.destroyed = true) :
      later.destroyed = true := (congrArg Entity.destroyed same).trans still
  cases fate with
  | stays same => exact kept same marked
  | revised revision => exact revision.destroyed marked
  | healed amount => exact marked
  | silenced => exact (Entity.destroyed_keepHealth _ entity).trans marked
  | transformed listed kind => exact absurd (.transform before known listed kind) lasts
  | shone total => exact (entity.destroyed_withAura total).trans marked
  | expired =>
      unfold Entity.expire
      split
      · exact (Entity.destroyed_keepHealth _ entity).trans marked
      · exact marked
  | fell same =>
      have marks := congrArg Entity.destroyed same
      exact marks.trans marked
  | bereft creator same => exact kept same marked
  | moved placement same =>
      have away := fun home => lasts (.home before placement known home)
      exact kept same ((destroyed_partedBody away).trans marked)
  | handedOver owner same =>
      have away : ¬ ComesHome entity .unplaced := fun home => by
        rcases home.2 with hand | deck
        · cases hand
        · cases deck
      exact kept same ((destroyed_partedBody away).trans marked)

/-- Once marked, an entity stays marked until it becomes a fresh copy. -/
theorem destroyed_of_reaches (reaches : ReflTransGen (Wears id) past now)
    (known : past.entity? id = some entity) (marked : entity.destroyed = true) :
    ∃ later, now.entity? id = some later ∧ later.destroyed = true := by
  induction reaches with
  | refl => exact ⟨entity, known, marked⟩
  | tail _ last ih =>
      obtain ⟨held, knownHeld, marks⟩ := ih
      obtain ⟨later, knownLater, fate⟩ := last.1.fate knownHeld
      exact ⟨later, knownLater, fate.destroyed knownHeld last.2 marks⟩

/-- What a card is like right after it came to the hand or the deck. -/
structure ComesBack (entity returned : Entity) (card : Card) : Prop where
  /-- It is reset exactly if it comes from play, unless there was nothing to reset. -/
  reset : returned.IsFresh card ↔ entity.zone = .play ∨ entity.IsFresh card
  /-- When it comes from play it is dead only if its card is printed so. -/
  alive : entity.zone = .play →
    returned.isDead = (Entity.fresh returned.owner card returned.kind).isDead
  /-- From elsewhere it comes with all that it had. -/
  kept : entity.zone ≠ .play → returned.body = entity.body

/-- Whenever a card comes to the hand or the deck, it is reset exactly if it comes from play, unless
there was nothing to reset.  If it does not come from play and was marked at some moment since it
last became a fresh copy, it comes back dead. -/
theorem reset_iff_from_play {settings : Settings} {catalogue : Catalogue} {post : Post}
    (created : Duel.create settings catalogue = .ok duel)
    (reaches : ReflTransGen Change duel now) (home : post.zone = .hand ∨ post.zone = .deck)
    (brings : Brings now (some ⟨id, post⟩) after) :
    ∃ entity card returned, now.entity? id = some entity ∧
      catalogue.card? entity.card = some card ∧ after.entity? id = some returned ∧
        returned.zone = post.zone ∧ ComesBack entity returned card ∧
          ∀ past marked, past.entity? id = some marked → marked.destroyed = true →
            ReflTransGen (Wears id) past now → entity.zone ≠ .play → returned.isDead = true := by
  have sound := Change.wellPlaced_of_reaches reaches (created_wellPlaced created)
  have catalogued := catalogued_of_reaches created reaches
  have fixed := (Change.fixed_of_reaches reaches).2.trans (fixed_of_created created).2
  cases brings with
  | handOver known => rcases home with hand | deck <;> contradiction
  | create owner card kind => rcases home with hand | deck <;> contradiction
  | @move id entity goal placement known allowed room =>
      obtain ⟨card, listed⟩ := catalogued id entity known
      have posted : (now.relocate id entity goal placement).table.post? id = some _ :=
        (post?_relocate placement sound known room).trans (if_pos rfl)
      obtain ⟨returned, knownReturned, -, -, zone⟩ := exists_of_post? posted
      have body : returned.body = now.partedBody goal entity := by
        have moved := (body?_of_entity? knownReturned).symm.trans
          (body?_relocate known goal placement id)
        exact Option.some.inj (moved.trans (if_pos rfl))
      have fresh (inPlay : entity.zone = .play) : returned.IsFresh card :=
        (isFresh_partedBody ⟨inPlay, home⟩ listed).of_body
          (body.trans (body_partedBody now goal entity).symm)
      have kept (away : entity.zone ≠ .play) : returned.body = entity.body :=
        body.trans (if_neg away)
      refine ⟨entity, card, returned, known, fixed ▸ listed, knownReturned, zone,
        ⟨⟨fun reset => ?_, fun either => ?_⟩, fun inPlay => (fresh inPlay).isDead, kept⟩,
        fun past marked knownPast marks wears away => ?_⟩
      · by_cases inPlay : entity.zone = .play
        · exact .inl inPlay
        · exact .inr (reset.of_body (kept inPlay).symm)
      · by_cases inPlay : entity.zone = .play
        · exact fresh inPlay
        · exact (either.resolve_left inPlay).of_body (kept inPlay)
      · obtain ⟨held, knownHeld, marked⟩ := destroyed_of_reaches wears knownPast marks
        cases known.symm.trans knownHeld
        exact Entity.isDead_of_destroyed ((congrArg Entity.destroyed (kept away)).trans marked)

/-- A move that succeeds brings the entity where it was to go. -/
theorem brings_of_move {placement : Placement}
    (moved : Play.move id goal placement now = .ok true after) :
    ∃ entity, now.entity? id = some entity ∧
      Brings now (some ⟨id, entity.owner, entity.kind, goal⟩) after := by
  have moves : (Play.move id goal placement).Yields now
      (fun placed left => placed = true → ∃ entity, now.entity? id = some entity ∧
        Brings now (some ⟨id, entity.owner, entity.kind, goal⟩) left) fun _ => True := by
    refine Play.yields_move.mpr ⟨fun _ => trivial, fun entity known => ⟨fun _ => trivial,
      fun allowed => ⟨fun _ => nofun, fun stays _ => ⟨entity, known, ?_⟩⟩⟩⟩
    exact .move now placement known allowed (not_turnsAway_iff.mp stays)
  exact moves.of_ok moved rfl

end Duel

/-- A phoenix, which comes back to the hand when it dies, and the doom of all minions. -/
def Catalogue.phoenixes : Catalogue :=
  .ofEntries
    [⟨Card.hero ⟨1⟩ "HERO" "" .mage 30 "POWER", Behaviour.none⟩,
      ⟨Card.power ⟨2⟩ "POWER" "" 2, Behaviour.none⟩,
      ⟨Card.minion ⟨3⟩ "PHOENIX" "" 0 1 2,
        { Behaviour.none with deathrattle := [.moveTo .source .hand] }⟩,
      ⟨Card.spell ⟨4⟩ "DOOM" "" 0,
        { Behaviour.none with effects := [.damage .minions 1 true, .destroy .minions] }⟩]
    [(.mage, ⟨1⟩)] (by decide) (by decide)

/-- Player zero draws the phoenix and the doom. -/
def Settings.phoenixes : Settings :=
  { Settings.standard with decks := [["DOOM", "PHOENIX"], []], shuffleDecks := false }

/-- The doom comes over the minions of player zero, and the dead are buried. -/
def Play.doom : Play Unit := do
  discard (resolve (Resolution.ofEffects [.damage .minions 1 true, .destroy .minions]
    ⟨.zero, ⟨4⟩, none, none⟩))
  processDeaths

namespace Duel

/-- Whether the phoenix, if it is doomed and moved to the hand then, is marked and wounded still. -/
def risesMarked (past : Duel) : Bool :=
  match Play.doom past with
  | .error .. => false
  | .ok _ now =>
    (past.entity? ⟨5⟩).any (fun phoenix => phoenix.kind = .minion && phoenix.zone = .play) &&
      (now.entity? ⟨5⟩).any (fun phoenix => phoenix.zone = .graveyard && phoenix.destroyed) &&
        match Play.move ⟨5⟩ .hand .top now with
        | .ok true after =>
          (after.entity? ⟨5⟩).any fun phoenix => phoenix.destroyed && phoenix.damage = 1
        | _ => false

theorem exists_rising :
    ∃ duel past now after phoenix buried returned,
      Duel.create Settings.phoenixes Catalogue.phoenixes = .ok duel ∧
        ReflTransGen Change duel past ∧ ReflTransGen Change past now ∧
          past.entity? ⟨5⟩ = some phoenix ∧ phoenix.kind = .minion ∧ phoenix.zone = .play ∧
            now.entity? ⟨5⟩ = some buried ∧ buried.zone = .graveyard ∧ buried.destroyed = true ∧
              Play.move ⟨5⟩ .hand .top now = .ok true after ∧
                after.entity? ⟨5⟩ = some returned ∧ returned.destroyed = true ∧
                  returned.damage = 1 := by
  obtain ⟨duel, past, created, runs, rises⟩ :=
    exists_of_outcome Settings.phoenixes Catalogue.phoenixes 100
      [.start, .take .zero (.play ⟨5⟩)] risesMarked (by decide +kernel)
  have follows : Play.Follows Change Play.doom :=
    (Play.follows_resolve (Resolution.fits_true _)).discard.bind fun _ => Play.follows_processDeaths
  unfold risesMarked at rises
  split at rises
  · cases rises
  next _ now doomed =>
    have reaches : ReflTransGen Change past now := follows.ensures.of_ok doomed
    simp only [Bool.and_eq_true, Option.any_eq_true, decide_eq_true_eq] at rises
    obtain ⟨⟨⟨phoenix, known, minion, inPlay⟩, buried, knownBuried, inGrave, marked⟩, moved⟩ :=
      rises
    split at moved
    next after moves =>
      obtain ⟨returned, knownReturned, holds⟩ := (Option.any_eq_true _ _).mp moved
      rw [Bool.and_eq_true, decide_eq_true_eq] at holds
      exact ⟨duel, past, now, after, phoenix, buried, returned, created, reaches_of_runs runs,
        reaches, known, minion, inPlay, knownBuried, inGrave, marked, moves, knownReturned, holds⟩
    · cases moved

/-- The phoenix comes back from the graveyard as dead as it was. -/
theorem reset_iff_from_play_phoenixes :
    ∃ duel now buried post after card returned,
      Duel.create Settings.phoenixes Catalogue.phoenixes = .ok duel ∧
        ReflTransGen Change duel now ∧ now.entity? ⟨5⟩ = some buried ∧ buried.zone = .graveyard ∧
          (post.zone = .hand ∨ post.zone = .deck) ∧ Brings now (some ⟨⟨5⟩, post⟩) after ∧
            after.entity? ⟨5⟩ = some returned ∧ ComesBack buried returned card ∧
              returned.isDead = true := by
  obtain ⟨duel, past, now, after, -, buried, -, created, reaches, onwards, -, -, -, known, inGrave,
    marked, moved, -⟩ := exists_rising
  have away : buried.zone ≠ .play := by
    rw [inGrave]
    nofun
  obtain ⟨same, knownSame, brings⟩ := brings_of_move moved
  cases known.symm.trans knownSame
  have home : (Post.mk buried.owner buried.kind .hand).zone = .hand ∨
      (Post.mk buried.owner buried.kind .hand).zone = .deck := .inl rfl
  obtain ⟨held, card, returned, knownHeld, -, knownReturned, -, back, dead⟩ :=
    reset_iff_from_play created (reaches.trans onwards) home brings
  cases known.symm.trans knownHeld
  exact ⟨duel, now, buried, _, after, card, returned, created, reaches.trans onwards, known,
    inGrave, home, brings, knownReturned, back, dead now buried known marked .refl away⟩

/-- The phoenix was in play, and the move that brings it back from the graveyard to the hand resets
neither its mark of death nor its damage. -/
theorem not_reset_phoenixes :
    ∃ duel past now after phoenix returned,
      Duel.create Settings.phoenixes Catalogue.phoenixes = .ok duel ∧
        ReflTransGen Change duel past ∧ past.entity? ⟨5⟩ = some phoenix ∧
          phoenix.kind = .minion ∧ phoenix.zone = .play ∧ ReflTransGen Change past now ∧
            Play.move ⟨5⟩ .hand .top now = .ok true after ∧ after.entity? ⟨5⟩ = some returned ∧
              returned.destroyed = true ∧ returned.damage = 1 := by
  obtain ⟨duel, past, now, after, phoenix, -, returned, created, reaches, onwards, known, minion,
    inPlay, -, -, -, moved, back, marked, wounded⟩ := exists_rising
  exact ⟨duel, past, now, after, phoenix, returned, created, reaches, known, minion, inPlay,
    onwards, moved, back, marked, wounded⟩

end Duel

end CardDuel
