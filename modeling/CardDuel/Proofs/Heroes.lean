import CardDuel.Proofs.Arrivals

/-!
# Heroes

Setting up a duel gives every player a hero.  From then on a slot of a hero only ever passes to
another hero, so nobody is without one.
-/

namespace CardDuel

open Relation

/-- The classes of a catalogue start with heroes. -/
def Catalogue.HeroesFit (catalogue : Catalogue) : Prop :=
  ∀ cardClass card, catalogue.defaultHero? cardClass = some card → card.cardType = .hero

namespace Duel

variable {duel before after now : Duel} {id : EntityId} {player : Player}

/-- The slot of a player's hero does not hold the player any more. -/
def Led (duel : Duel) (player : Player) : Prop :=
  (duel.hero player).isPlayer = false

theorem isPlayer_of_entity? {entity : Entity} (known : duel.entity? id = some entity) :
    id.isPlayer = false := by
  cases handle : id.isPlayer with
  | false => rfl
  | true => cases (Arena.get?_of_isPlayer duel.arena handle).symm.trans known

theorem hero_leaveZone {entity : Entity} (sound : duel.WellPlaced)
    (known : duel.entity? id = some entity) (goal : ZoneKind) (player : Player) :
    (duel.leaveZone id goal).hero player = duel.hero player := by
  have holds := holder?_leaveZone sound.placed known goal player .hero
  rw [if_neg (by simp)] at holds
  exact Option.some.inj holds

theorem hero_relocate {entity : Entity} {goal : ZoneKind} (placement : Placement)
    (allowed : ¬ (entity.kind = .spell ∧ goal = .play)) (player : Player) :
    (duel.relocate id entity goal placement).hero player =
      if player = entity.owner ∧ .hero = entity.kind ∧ usesSlot entity.kind goal = true then id
      else (duel.leaveZone id goal).hero player := by
  refine Option.some.inj ((holder?_relocate placement allowed player .hero).trans ?_)
  split <;> rfl

theorem Led.relocate {entity : Entity} {goal : ZoneKind} (led : duel.Led player)
    (placement : Placement) (sound : duel.WellPlaced) (known : duel.entity? id = some entity)
    (allowed : ¬ (entity.kind = .spell ∧ goal = .play)) :
    (duel.relocate id entity goal placement).Led player := by
  unfold Led
  rw [hero_relocate placement allowed]
  split
  · exact isPlayer_of_entity? known
  · rw [hero_leaveZone sound known]
    exact led

theorem Led.brings {arrival : Option Arrival} (led : before.Led player) (sound : before.WellPlaced)
    (brings : Brings before arrival after) : after.Led player := by
  cases brings with
  | move placement known allowed room => exact led.relocate placement sound known allowed
  | @handOver id entity owner known =>
      have kept : (before.leaveZone id .unplaced).hero player = before.hero player :=
        hero_leaveZone sound known .unplaced player
      unfold Led
      exact (congrArg EntityId.isPlayer kept).trans led
  | create owner card kind => exact led
  | nobody change posts slots =>
      have kept : after.hero player = before.hero player :=
        congrArg (fun slots : Player → Slots => (slots player).hero) slots
      exact (congrArg EntityId.isPlayer kept).trans led

theorem Led.of_reaches (led : before.Led player) (sound : before.WellPlaced)
    (reaches : ReflTransGen Change before after) : after.Led player := by
  induction reaches with
  | refl => exact led
  | tail reached change ih =>
      have placed := Change.wellPlaced_of_reaches reached sound
      obtain ⟨arrival, brings⟩ := change.brings placed
      exact ih.brings placed brings

end Duel

namespace Play

open Duel

variable {duel : Duel} {player : Player} {id : EntityId} {entity : Entity}

/-- A created entity is known, and of the kind that its card is made for. -/
theorem ensures_create {owner : Player} {form : CardId} {card : Card}
    (listed : duel.catalogue.card? form = some card) :
    (create owner form).Ensures duel fun id left =>
      ∃ kind, EntityKind.ofCardType? card.cardType = some kind ∧
        left.entity? id = some (Entity.fresh owner card kind) := by
  unfold create
  rw [ensures_get_bind, listed]
  dsimp only
  split
  · exact ensures_violate
  next kind made =>
    refine ⟨kind, made, ?_⟩
    rw [entity?, Arena.get?_push, if_pos rfl]

/-- A hero who is sent into play fills the slot of its owner. -/
theorem ensures_send_hero (known : duel.entity? id = some entity) (hero : entity.kind = .hero) :
    (send id .play).Ensures duel fun _ left => left.Led entity.owner := by
  have allowed : ¬ (entity.kind = .spell ∧ ZoneKind.play = .play) := by simp [hero]
  refine Ensures.discard (yields_move.mpr ⟨fun _ => trivial, fun other knownToo =>
    ⟨fun _ => trivial, fun _ => ?_⟩⟩)
  cases known.symm.trans knownToo
  have uses : usesSlot entity.kind .play = true := by
    rw [hero]
    rfl
  refine ⟨fun away => ?_, fun _ => ?_⟩
  · cases uses.symm.trans away.1
  · unfold Led
    rw [hero_relocate .top allowed, if_pos ⟨rfl, hero.symm, uses⟩]
    exact isPlayer_of_entity? known

theorem Follows.led {action : Play Unit} {player : Player} (follows : Follows Quiet action)
    (led : duel.Led player) (sound : duel.WellPlaced) :
    action.Ensures duel fun _ left => left.Led player ∧ left.WellPlaced :=
  follows.ensures.mono fun _ _ quiets =>
    have reaches := Shift.changes (Quiet.shifts quiets)
    ⟨led.of_reaches sound reaches, Change.wellPlaced_of_reaches reaches sound⟩

/-- Setting up a hero fills the slot. -/
theorem ensures_setUpHero (fit : duel.catalogue.HeroesFit) (sound : duel.WellPlaced) :
    (setUpHero player).Ensures duel fun _ left => left.Led player ∧ left.WellPlaced := by
  unfold setUpHero
  rw [ensures_get_bind]
  dsimp only
  split
  · exact ensures_throw
  next card found =>
    split
    · exact ensures_throw
    split
    · exact ensures_throw
    next power listedPower =>
      obtain ⟨entry, -, looked⟩ := Option.bind_eq_some_iff.mp found
      have listed : duel.catalogue.card? card.id = some card :=
        (congrArg _ (Catalogue.id_of_card? looked)).trans looked
      have stays {middle : Duel} (reaches : ReflTransGen Quiet duel middle) : middle.WellPlaced :=
        Change.wellPlaced_of_reaches (Shift.changes (Quiet.shifts reaches)) sound
      have creates : Follows Quiet (create player card.id) := follows_create
      refine ((ensures_create listed).and creates.ensures).bind fun id made ready => ?_
      obtain ⟨⟨kind, sort, known⟩, reached⟩ := ready
      have hero : kind = .hero := by
        rw [fit _ _ found] at sort
        exact (Option.some.inj sort).symm
      have sends : Follows Quiet (send id .play) := follows_send
      refine ((ensures_send_hero known hero).and sends.ensures).bind fun _ sent led => ?_
      have rest : Follows Quiet (do send (← create player power.id) .play) :=
        follows_create.bind fun _ => follows_send
      exact rest.led led.1 (stays (reached.trans led.2))

theorem ensures_setUp (fit : duel.catalogue.HeroesFit) (sound : duel.WellPlaced) :
    (setUp player).Ensures duel fun _ left => left.Led player ∧ left.WellPlaced := by
  unfold setUp
  refine (ensures_setUpHero fit sound).bind fun _ left led => ?_
  rw [ensures_get_bind]
  split
  · exact ensures_throw
  · have decks (codes : List String) : Follows Quiet (do setUpDeck player codes; fillDeck player) :=
      follows_setUpDeck.bind fun _ => follows_fillDeck
    exact (decks _).led led.1 led.2

/-- Setting up both players gives both a hero. -/
theorem ensures_setUps (fit : duel.catalogue.HeroesFit) (sound : duel.WellPlaced) :
    (do Player.both.forM setUp; checkCoin : Play Unit).Ensures duel fun _ left =>
      ∀ player, left.Led player := by
  have setsUp (player : Player) : Follows Quiet (setUp player) := follows_setUp
  have sets : (Player.both.forM setUp).Ensures duel fun _ left =>
      (∀ player, left.Led player) ∧ left.WellPlaced := by
    change (setUp .zero >>= fun _ => setUp .one >>= fun _ => pure ()).Ensures duel _
    refine ((ensures_setUp fit sound).and (setsUp .zero).ensures).bind fun _ middle zero => ?_
    obtain ⟨⟨led, placed⟩, quiets⟩ := zero
    have fixed := (Change.fixed_of_reaches (Shift.changes (Quiet.shifts quiets))).2
    have fits : middle.catalogue.HeroesFit := fixed.symm ▸ fit
    refine ((ensures_setUp fits placed).and ((setsUp .one).led led placed)).bind
      fun _ left one => ?_
    refine ⟨fun player => ?_, one.2.2⟩
    cases player with
    | zero => exact one.2.1
    | one => exact one.1.1
  have checks : Follows Quiet checkCoin := follows_checkCoin
  exact sets.bind fun _ left led =>
    checks.ensures.mono fun _ after quiets player =>
      (led.1 player).of_reaches led.2 (Shift.changes (Quiet.shifts quiets))

end Play

namespace Duel

variable {start duel : Duel} {settings : Settings} {catalogue : Catalogue}

theorem led_of_created (fit : catalogue.HeroesFit)
    (created : Duel.create settings catalogue = .ok start) (player : Player) :
    start.Led player := by
  unfold create at created
  cases begun : Duel.bare settings catalogue with
  | error cause =>
      rw [begun] at created
      cases created
  | ok bare =>
      rw [begun] at created
      dsimp only at created
      have sound := bare_wellPlaced begun
      have fits : bare.catalogue.HeroesFit := by
        obtain ⟨first, dice, zero, one, rfl⟩ := bare_eq begun
        exact fit
      split at created
      next left set =>
        cases created
        exact (Play.ensures_setUps fits sound).of_ok set player
      next => cases created

/-- Every player has a hero, and whoever is in a weapon slot exists. -/
structure Manned (duel : Duel) : Prop where
  hero : ∀ player, ∃ hero, duel.entity? (duel.hero player) = some hero ∧ hero.kind = .hero
  weapon : ∀ player weapon, duel.weapon player = some weapon →
    ∃ entity, duel.entity? weapon = some entity

/-- Whatever happens in a duel that was set up, every player has a hero. -/
theorem manned_of_reaches (fit : catalogue.HeroesFit)
    (created : Duel.create settings catalogue = .ok start)
    (reaches : ReflTransGen Change start duel) : duel.Manned := by
  have sound := created_wellPlaced created
  obtain ⟨log, logged⟩ := exists_loggedBy created reaches
  refine ⟨fun player => ?_, fun player weapon armed => ?_⟩
  · have led := (led_of_created fit created player).of_reaches sound reaches
    obtain handle | ⟨post, posted, kind⟩ := slotsFit_of_reaches created reaches player .hero _ rfl
    · cases led.symm.trans handle
    · obtain ⟨hero, known, -, sort, -⟩ := exists_of_post? posted
      exact ⟨hero, known, sort.trans kind⟩
  · obtain ⟨entity, known, -⟩ := exists_of_post? (logged.weapon_posted armed)
    exact ⟨entity, known⟩

end Duel

end CardDuel
