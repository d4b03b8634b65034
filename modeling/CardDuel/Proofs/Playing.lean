import CardDuel.Proofs.Arrivals
import CardDuel.Proofs.Enumeration

/-!
# Playing a card

An accepted play of a minion, a spell or a weapon is paid, leaves the hand and goes on
to its phases.  A hero or a hero power in the hand is accepted as well and paid, but
there is no place for it to be brought to, so it stays where it is.
-/

namespace CardDuel

open Relation

namespace Entity

/-- Where the card goes when it is played. -/
def playZone (entity : Entity) : ZoneKind :=
  match entity.kind with
  | .spell => if entity.tags.has .secret then .secret else .setAside
  | _ => .play

/-- Heroes and hero powers cannot be brought from the hand to where they belong. -/
def IsStuck (entity : Entity) : Prop :=
  entity.kind = .hero ∨ entity.kind = .heroPower

instance (entity : Entity) : Decidable entity.IsStuck :=
  inferInstanceAs (Decidable (_ ∨ _))

end Entity

/-- The counters of a player, and whether one of their sums did not fit its word. -/
def PlayerState.ledger (state : PlayerState) : Tags × Bool :=
  (state.tags, state.overflowed)

namespace Duel

variable {duel before placed : Duel} {player : Player} {card : EntityId} {entity : Entity}

/-! ## What a move leaves of a player -/

theorem ledger_updatePlayer (duel : Duel) (player other : Player)
    {change : PlayerState → PlayerState} (kept : ∀ state, (change state).ledger = state.ledger) :
    ((duel.updatePlayer player change).player other).ledger = (duel.player other).ledger := by
  rw [player_updatePlayer]
  split
  · exact kept _
  · rfl

theorem ledger_leaveZone (duel : Duel) (id : EntityId) (goal : ZoneKind) (player : Player) :
    ((duel.leaveZone id goal).player player).ledger = (duel.player player).ledger := by
  unfold leaveZone
  split
  · rfl
  next entity known =>
    obtain ⟨triggers, ended⟩ := endTriggers_eq (duel.detach id entity) id entity
    have detached :
        ((duel.detach id entity).player player).ledger = (duel.player player).ledger := by
      unfold detach
      split
      · apply ledger_updatePlayer
        intro state
        split <;> rfl
      · split <;> rfl
    dsimp only
    rw [ended]
    refine Eq.trans ?_ detached
    split <;> rfl

/-- Moving an entity leaves the counters of the players alone. -/
theorem ledger_relocate (duel : Duel) (id : EntityId) (entity : Entity) (goal : ZoneKind)
    (placement : Placement) (player : Player) :
    ((duel.relocate id entity goal placement).player player).ledger =
      (duel.player player).ledger := by
  unfold relocate
  dsimp only
  split
  · obtain ⟨triggers, started⟩ := startTriggers_eq
      ((duel.leaveZone id goal).fillSlot id entity.owner entity.kind) id goal
    rw [started]
    refine Eq.trans ?_ (ledger_leaveZone duel id goal player)
    exact ledger_updatePlayer _ entity.owner player fun _ => by cases entity.kind <;> rfl
  · obtain ⟨triggers, started⟩ := startTriggers_eq
      ((duel.leaveZone id goal).putInto id entity.owner goal placement) id goal
    rw [started]
    refine Eq.trans ?_ (ledger_leaveZone duel id goal player)
    unfold putInto
    split <;> rfl

theorem tags_relocate (duel : Duel) (id : EntityId) (entity : Entity) (goal : ZoneKind)
    (placement : Placement) (player : Player) :
    ((duel.relocate id entity goal placement).player player).tags = (duel.player player).tags :=
  congrArg Prod.fst (ledger_relocate duel id entity goal placement player)

/-! ## Room -/

/-- Where there is room for a card there is room in the zone that it goes to. -/
theorem room_of_checkRoom (sound : duel.WellPlaced)
    (accepted : duel.checkRoom player entity = .ok ()) :
    usesSlot entity.kind entity.playZone = true ∨
      duel.zones.isFull player entity.playZone = false := by
  unfold checkRoom at accepted
  unfold Entity.playZone
  cases kind : entity.kind with
  | minion =>
      refine .inr (Bool.eq_false_iff.mpr fun full => ?_)
      simp [kind, full] at accepted
  | spell =>
      right
      dsimp only
      split
      next secret =>
        simp only [kind, secret, if_true] at accepted
        split at accepted
        · cases accepted
        split at accepted
        · cases accepted
        next room =>
          refine (sound.isFull_iff player (by decide)).mpr fun capacity bounded => ?_
          cases bounded
          exact Nat.lt_of_not_le room
      · exact sound.isFull_of_unbounded player (by decide) rfl
  | _ => exact .inl rfl

/-! ## Bringing a card to its place -/

/-- Containers and places agree, and what directs the match and the mana are as before. -/
structure Undisturbed (before after : Duel) : Prop where
  sound : after.WellPlaced
  control : after.control = before.control
  mana : ∀ player, (after.player player).remainingMana = (before.player player).remainingMana

theorem Undisturbed.trans {after : Duel} (first : before.Undisturbed placed)
    (second : placed.Undisturbed after) : before.Undisturbed after where
  sound := second.sound
  control := second.control.trans first.control
  mana player := (second.mana player).trans (first.mana player)

theorem undisturbed_updateEntity (sound : duel.WellPlaced) {change : Entity → Entity}
    (seated : ∀ entity, (change entity).seat = entity.seat) :
    duel.Undisturbed (duel.updateEntity card change) where
  sound := sound.congr (table_updateEntity duel card seated) rfl
  control := rfl
  mana _ := rfl

theorem undisturbed_countMinion (sound : duel.WellPlaced) :
    duel.Undisturbed (duel.updatePlayer player fun state =>
      state.addTag .minionsPlayedThisTurn 1) where
  sound := sound.congr (table_updatePlayer duel player fun _ => rfl) rfl
  control := control_updatePlayer duel player fun _ => rfl
  mana other := by
    rw [player_updatePlayer]
    split
    · exact PlayerState.remainingMana_addTag
    · rfl

end Duel

namespace Play

open Duel

variable {duel : Duel} {player : Player} {id card : EntityId} {kind : EntityKind}
variable {zone goal : ZoneKind} {entity : Entity}

/-- A move that finds room brings an entity to its place and does nothing else. -/
theorem yields_move_room (placement : Placement) (sound : duel.WellPlaced)
    (posted : duel.table.post? id = some ⟨player, kind, zone⟩)
    (allowed : ¬ (kind = .spell ∧ goal = .play))
    (room : usesSlot kind goal = true ∨ duel.zones.isFull player goal = false) :
    (move id goal placement).Yields duel
      (fun moved after => moved = true ∧ duel.Undisturbed after ∧ ∀ other,
        after.table.post? other =
          if other = id then some ⟨player, kind, goal⟩ else duel.table.post? other)
      fun _ => False := by
  obtain ⟨entity, known, rfl, rfl, -⟩ := exists_of_post? posted
  have open' : usesSlot entity.kind goal = true ∨ entity.zone = goal ∨
      duel.zones.isFull entity.owner goal = false := room.imp_right .inr
  refine yields_move_of_room known allowed open' ⟨rfl, ⟨relocate_wellPlaced placement sound known
    open', control_relocate duel id entity goal placement, fun player => ?_⟩,
      fun other => post?_relocate placement sound known open'⟩
  unfold PlayerState.remainingMana
  rw [tags_relocate]

theorem yields_send_room (sound : duel.WellPlaced)
    (posted : duel.table.post? id = some ⟨player, kind, zone⟩)
    (allowed : ¬ (kind = .spell ∧ goal = .play))
    (room : usesSlot kind goal = true ∨ duel.zones.isFull player goal = false) :
    (send id goal).Yields duel
      (fun _ after => duel.Undisturbed after ∧ ∀ other, after.table.post? other =
        if other = id then some ⟨player, kind, goal⟩ else duel.table.post? other)
      fun _ => False :=
  yields_discard.mpr ((yields_move_room .top sound posted allowed room).mono
    (fun _ _ both => both.2) fun _ => False.elim)

theorem yields_placeMinion_room (position : Option Nat) (sound : duel.WellPlaced)
    (posted : duel.table.post? id = some ⟨player, .minion, zone⟩)
    (room : duel.zones.isFull player .play = false) :
    (placeMinion id position).Yields duel
      (fun placed after => placed = true ∧ duel.Undisturbed after ∧
        after.table.post? id = some ⟨player, .minion, .play⟩)
      fun _ => False := by
  unfold placeMinion
  refine yields_bind.mpr ((yields_move_room _ sound posted (by simp) (.inr room)).mono ?_
    fun _ => False.elim)
  rintro moved left ⟨rfl, undisturbed, posts⟩
  have there := (posts id).trans (if_pos rfl)
  obtain ⟨entity, known, -⟩ := exists_of_post? there
  have seated := Entity.Revision.newcomer.seat
  have kept := table_updateEntity left id seated
  rw [if_pos rfl, yields_bind, Play.change, yields_bind, yields_lookup]
  refine ⟨fun _ _ => ⟨rfl, undisturbed.trans ?_, ?_⟩, fun unknown => ?_⟩
  · exact undisturbed_updateEntity undisturbed.sound seated
  · exact (congrArg (Table.post? · id) kept).trans there
  · cases known.symm.trans unknown

/-- A weapon of the player goes straight from the hand to the slot. -/
theorem yields_takeUp {before : Duel} (undisturbed : before.Undisturbed duel)
    (posted : duel.table.post? id = some ⟨player, .weapon, .hand⟩) :
    (do giveTo id player; send id .play : Play Unit).Yields duel
      (fun _ after => before.Undisturbed after ∧
        after.table.post? id = some ⟨player, .weapon, .play⟩)
      fun _ => False := by
  obtain ⟨entity, known, owner, -⟩ := exists_of_post? posted
  rw [yields_bind, giveTo, yields_bind, yields_lookup]
  refine ⟨fun other known' => ?_, fun unknown => ?_⟩
  · cases known.symm.trans known'
    rw [if_pos owner]
    refine (yields_send_room undisturbed.sound posted (by simp) (.inl rfl)).mono ?_
      fun _ => False.elim
    rintro _ after ⟨moved, posts⟩
    exact ⟨undisturbed.trans moved, (posts id).trans (if_pos rfl)⟩
  · cases known.symm.trans unknown

/-- A weapon takes the slot, and the weapon that was there goes to the graveyard. -/
theorem yields_equip_room (sound : duel.WellPlaced)
    (posted : duel.table.post? id = some ⟨player, .weapon, .hand⟩)
    (armed : ∀ old, duel.weapon player = some old →
      duel.table.post? old = some ⟨player, .weapon, .play⟩) :
    (equip player id).Yields duel
      (fun _ after => duel.Undisturbed after ∧
        after.table.post? id = some ⟨player, .weapon, .play⟩)
      fun _ => False := by
  have start : duel.Undisturbed duel := ⟨sound, rfl, fun _ => rfl⟩
  unfold equip
  rw [yields_bind, yields_get]
  cases weapon : duel.weapon player with
  | none => exact yields_takeUp start posted
  | some old =>
      have inPlay := armed old weapon
      have open' : duel.zones.isFull player .graveyard = false :=
        sound.isFull_of_unbounded player (by decide) rfl
      dsimp only
      refine yields_bind.mpr ((yields_send_room sound inPlay (by simp) (.inr open')).mono ?_
        fun _ => False.elim)
      rintro _ left ⟨moved, posts⟩
      have apart : id ≠ old := by
        rintro rfl
        cases posted.symm.trans inPlay
      have announced : left.Undisturbed (left.announce (Event.caused .death player old)) :=
        ⟨moved.sound.congr rfl rfl, rfl, fun _ => rfl⟩
      exact yields_takeUp (moved.trans announced) (((posts id).trans (if_neg apart)).trans posted)

/-- Whatever is not stuck in the hand comes to its place. -/
theorem yields_placePlayed (position : Option Nat) (sound : duel.WellPlaced)
    (known : duel.entity? card = some entity) (owner : entity.owner = player)
    (inHand : entity.zone = .hand) (accepted : duel.checkRoom player entity = .ok ())
    (armed : ∀ old, duel.weapon player = some old →
      duel.table.post? old = some ⟨player, .weapon, .play⟩)
    (free : ¬ entity.IsStuck) :
    (placePlayed player card entity position).Yields duel
      (fun _ after => duel.Undisturbed after ∧
        after.table.post? card = some ⟨player, entity.kind, entity.playZone⟩)
      fun _ => False := by
  have posted : duel.table.post? card = some ⟨player, entity.kind, .hand⟩ := by
    rw [post?_of_entity? known, owner, inHand]
  have room := room_of_checkRoom sound accepted
  unfold placePlayed
  unfold Entity.playZone at room ⊢
  cases kind : entity.kind with
  | minion =>
      rw [kind] at posted room
      let counted := duel.updatePlayer player fun state => state.addTag .minionsPlayedThisTurn 1
      have counting : duel.Undisturbed counted := undisturbed_countMinion sound
      have kept : counted.table = duel.table := table_updatePlayer duel player fun _ => rfl
      have there : counted.table.post? card = some ⟨player, .minion, .hand⟩ := by
        rw [kept]
        exact posted
      have field : counted.zones.isFull player .play = false :=
        room.resolve_left Bool.false_ne_true
      refine yields_bind.mpr (yields_bind.mpr
        ((yields_placeMinion_room position counting.sound there field).mono ?_ fun _ => False.elim))
      rintro placed after ⟨rfl, moved, arrived⟩
      exact ⟨counting.trans moved, arrived⟩
  | spell =>
      rw [kind] at posted room
      dsimp only at room ⊢
      have noPlay : (if entity.tags.has .secret then ZoneKind.secret else .setAside) ≠ .play := by
        split <;> decide
      refine (yields_send_room sound posted (fun both => noPlay both.2) room).mono ?_
        fun _ => False.elim
      rintro _ after ⟨moved, posts⟩
      exact ⟨moved, (posts card).trans (if_pos rfl)⟩
  | weapon =>
      rw [kind] at posted
      exact yields_equip_room sound posted armed
  | hero => exact absurd (.inl kind) free
  | heroPower => exact absurd (.inr kind) free

end Play

namespace Duel

variable {duel : Duel} {player : Player} {card : EntityId} {entity : Entity}
variable {target : Option EntityId} {position : Option Nat} {allowance : Nat}

/-! ## The play -/

/-- The duel in which a play is on record and paid. -/
def paidFor (duel : Duel) (player : Player) (action : Action) (entity : Entity) : Duel :=
  (Play.record player action duel).updatePlayer player (Play.payForCard entity)

/-- The phases that a play of a card goes through. -/
def phasesFor (duel : Duel) (player : Player) (card : EntityId) (target : Option EntityId)
    (entity : Entity) : List Work :=
  let combo : Bool := 0 < (duel.player player).tags.get .cardsPlayedThisTurn
  Play.phasesOf entity.kind (entity.tags.has .secret) card
    (fun kind => Event.aimed kind player card target)
    (Resolution.ofEffects ((duel.behaviourOf entity).effectsWhen combo)
      ⟨player, card, target, none⟩)

/-- Whatever becomes of an accepted play, once it is paid it is placed and goes to its phases. -/
theorem take_playCard_eq (allowance : Nat) (known : duel.entity? card = some entity)
    (accepted : duel.check player (.playCard card target position) = .ok ())
    (running : duel.isOver = false) :
    Play.take allowance player (.playCard card target position) duel =
      Play.onFault
        (do Play.placePlayed player card entity position
            Play.runPhases allowance (duel.phasesFor player card target entity))
        Duel.clearAgenda (duel.paidFor player (.playCard card target position) entity) := by
  have recorded : (Play.record player (.playCard card target position) duel).entity? card =
      some entity := known
  rw [Play.take_of_accepted allowance running accepted]
  refine Play.onFault_congr ?_
  change Play.playCard allowance player card target position _ = _
  unfold Play.playCard
  rw [Play.bind_of_ok (Play.lookup_of_entity? recorded)]
  rfl

theorem running_of_checkTurn (turn : duel.checkTurn player = .ok ()) : duel.isOver = false := by
  unfold isOver
  rw [(checkTurn_iff.mp turn).2.2]
  rfl

/-- A request is on record and its card is paid. -/
structure PaidFor (duel left : Duel) (player : Player) (action : Action) (entity : Entity) :
    Prop where
  recorded : left.history = duel.history ++ [⟨player, action, duel.turn, duel.history.length⟩]
  mana : (left.player player).remainingMana = (duel.player player).remainingMana - entity.cost

theorem checkCost_spec {cost : Int} (accepted : duel.checkCost player cost = .ok ()) :
    cost ≤ (duel.player player).remainingMana := by
  unfold checkCost at accepted
  dsimp only at accepted
  split at accepted
  · cases accepted
  next covered => exact Int.not_lt.mp covered

theorem paidFor_paidFor (action : Action)
    (covered : entity.cost ≤ (duel.player player).remainingMana) :
    duel.PaidFor (duel.paidFor player action entity) player action entity where
  recorded := rfl
  mana := by
    unfold paidFor
    rw [player_updatePlayer, if_pos rfl]
    exact PlayerState.remainingMana_payForCard covered

theorem table_paidFor (duel : Duel) (player : Player) (action : Action) (entity : Entity) :
    (duel.paidFor player action entity).table = duel.table :=
  table_updatePlayer (Play.record player action duel) player fun state =>
    ((PlayerState.Adjustment.pay entity).frame state).1

/-- A placed card is in nobody's hand. -/
theorem not_mem_hand {placed : Duel} {post : Post} (sound : placed.WellPlaced)
    (posted : placed.table.post? card = some post) (away : post.zone ≠ .hand) (other : Player) :
    card ∉ placed.hand other :=
  fun held => away (sound.zone_of_mem held posted)

theorem playZone_ne_hand (entity : Entity) : entity.playZone ≠ .hand := by
  unfold Entity.playZone
  split
  · split <;> decide
  · decide

/-- A card that is not stuck in the hand is paid and brought to its place, and what becomes of the
play is what becomes of its phases. -/
def IsPlayed (duel : Duel) (allowance : Nat) (player : Player) (card : EntityId)
    (target : Option EntityId) (position : Option Nat) (entity : Entity) : Prop :=
  ∃ placed, duel.PaidFor placed player (.playCard card target position) entity ∧
    placed.table.post? card = some ⟨player, entity.kind, entity.playZone⟩ ∧
      (∀ other, card ∉ placed.hand other) ∧
        Play.take allowance player (.playCard card target position) duel =
          Play.onFault (Play.runPhases allowance (duel.phasesFor player card target entity))
            Duel.clearAgenda placed

/-- A stuck card is paid and stays in the hand, and the play fails. -/
def IsStranded (duel : Duel) (allowance : Nat) (player : Player) (card : EntityId)
    (target : Option EntityId) (position : Option Nat) (entity : Entity) : Prop :=
  ∃ left, duel.PaidFor left player (.playCard card target position) entity ∧
    card ∈ left.hand player ∧
      Play.take allowance player (.playCard card target position) duel =
        .error (.violation (.notPlayable entity.kind card)) left

theorem wellPlaced_paidFor (sound : duel.WellPlaced) (player : Player) (action : Action)
    (entity : Entity) : (duel.paidFor player action entity).WellPlaced :=
  sound.congr (duel.table_paidFor player action entity) rfl

/-- A hero or a hero power has no place to go to. -/
theorem isStranded_of_isStuck (sound : duel.WellPlaced) (known : duel.entity? card = some entity)
    (owner : entity.owner = player) (inHand : entity.zone = .hand)
    (accepted : duel.check player (.playCard card target position) = .ok ())
    (running : duel.isOver = false)
    (covered : entity.cost ≤ (duel.player player).remainingMana) (stuck : entity.IsStuck) :
    duel.IsStranded allowance player card target position entity := by
  have charging := paidFor_paidFor (.playCard card target position) covered
  have still := wellPlaced_paidFor sound player (.playCard card target position) entity
  have runs := take_playCard_eq allowance known accepted running
  have refused (charged : Duel) : Play.placePlayed player card entity position charged =
      .error (.violation (.notPlayable entity.kind card)) charged := by
    unfold Play.placePlayed
    rcases stuck with kind | kind <;> rw [kind] <;> rfl
  refine ⟨(duel.paidFor player (.playCard card target position) entity).clearAgenda,
    ⟨charging.recorded, charging.mana⟩, mem_hand still known owner inHand, ?_⟩
  rw [runs]
  unfold Play.onFault
  simp only [bind, EStateM.bind, refused]

/-- Anything else comes to its place. -/
theorem isPlayed_of_not_isStuck (sound : duel.WellPlaced)
    (armed : ∀ old, duel.weapon player = some old →
      duel.table.post? old = some ⟨player, .weapon, .play⟩)
    (known : duel.entity? card = some entity) (owner : entity.owner = player)
    (inHand : entity.zone = .hand)
    (accepted : duel.check player (.playCard card target position) = .ok ())
    (running : duel.isOver = false)
    (covered : entity.cost ≤ (duel.player player).remainingMana)
    (room : duel.checkRoom player entity = .ok ()) (free : ¬ entity.IsStuck) :
    duel.IsPlayed allowance player card target position entity := by
  have runs := take_playCard_eq allowance known accepted running
  have charging := paidFor_paidFor (.playCard card target position) covered
  have table := duel.table_paidFor player (.playCard card target position) entity
  have still := wellPlaced_paidFor sound player (.playCard card target position) entity
  have knownCharged :
      (duel.paidFor player (.playCard card target position) entity).entity? card = some entity :=
    known
  generalize charged_eq : duel.paidFor player (.playCard card target position) entity = charged at *
  have armedCharged (old : EntityId) (weapon : charged.weapon player = some old) :
      charged.table.post? old = some ⟨player, .weapon, .play⟩ := by
    rw [table]
    apply armed old
    rw [← weapon]
    exact (congrArg (fun table => (table.slots player).weapon) table).symm
  have placing := Play.yields_placePlayed position still knownCharged owner inHand
    (charged_eq ▸ room) armedCharged free
  obtain ⟨_, placed, placing, undisturbed, posted⟩ := placing.exists_ok
  have away : entity.playZone ≠ .hand := playZone_ne_hand entity
  refine ⟨placed, ⟨?_, ?_⟩, posted, not_mem_hand undisturbed.sound posted away, ?_⟩
  · exact (congrArg Control.history undisturbed.control).trans charging.recorded
  · exact (undisturbed.mana player).trans charging.mana
  · rw [runs]
    unfold Play.onFault
    simp only [bind, EStateM.bind, placing]

/-- An accepted play is played, unless it is of a hero or a hero power. -/
theorem WellPlaced.take_playCard (sound : duel.WellPlaced) (allowance : Nat)
    (armed : ∀ old, duel.weapon player = some old →
      duel.table.post? old = some ⟨player, .weapon, .play⟩)
    (accepted : duel.check player (.playCard card target position) = .ok ()) :
    ∃ entity, duel.entity? card = some entity ∧
      if entity.IsStuck then duel.IsStranded allowance player card target position entity
      else duel.IsPlayed allowance player card target position entity := by
  obtain ⟨turn, checked⟩ := check_playCard accepted
  obtain ⟨entity, known, owner, inHand, paid, room, -⟩ := checkCard_spec checked
  have running := running_of_checkTurn turn
  have covered := checkCost_spec paid
  refine ⟨entity, known, ?_⟩
  by_cases stuck : entity.IsStuck
  · rw [if_pos stuck]
    exact isStranded_of_isStuck sound known owner inHand accepted running covered stuck
  · rw [if_neg stuck]
    exact isPlayed_of_not_isStuck sound armed known owner inHand accepted running covered room stuck

/-- After any calls, whether or not they failed, an accepted play is played unless the card is a
hero or a hero power. -/
theorem exists_take_playCard {settings : Settings} {catalogue : Catalogue}
    (created : Duel.create settings catalogue = .ok duel) (before allowance : Nat)
    (calls : List Call)
    (accepted : (duel.afterCalls before calls).check player (.playCard card target position) =
      .ok ()) :
    ∃ entity, (duel.afterCalls before calls).entity? card = some entity ∧
      if entity.IsStuck then
        (duel.afterCalls before calls).IsStranded allowance player card target position entity
      else (duel.afterCalls before calls).IsPlayed allowance player card target position entity := by
  obtain ⟨log, logged⟩ := exists_loggedBy created (duel.reaches_afterCalls before calls)
  exact logged.placed.take_playCard allowance (fun _ weapon => logged.weapon_posted weapon) accepted

/-- A mage plays the minion that it drew. -/
theorem exists_take_playCard_mages :
    ∃ duel, Duel.create Settings.mages Catalogue.mages = .ok duel ∧
      (duel.afterCalls 100 [.start]).check .zero (.playCard ⟨4⟩ none none) = .ok () ∧
        ∃ entity, (duel.afterCalls 100 [.start]).entity? ⟨4⟩ = some entity ∧
          if entity.IsStuck then
            (duel.afterCalls 100 [.start]).IsStranded 100 .zero ⟨4⟩ none none entity
          else (duel.afterCalls 100 [.start]).IsPlayed 100 .zero ⟨4⟩ none none entity := by
  obtain ⟨duel, after, created, runs, comes⟩ := exists_of_outcome Settings.mages Catalogue.mages 100
    [.start] (fun after => after.accepts .zero (.playCard ⟨4⟩ none none)) (by decide +kernel)
  have accepted : (duel.afterCalls 100 [.start]).check .zero (.playCard ⟨4⟩ none none) = .ok () := by
    rw [afterCalls_of_runs runs]
    exact accepts_iff.mp comes
  exact ⟨duel, created, accepted, exists_take_playCard created 100 100 [.start] accepted⟩

end Duel

/-! ## A hero in the hand -/

/-- A hero that costs a crystal. -/
def Catalogue.understudies : Catalogue :=
  .ofEntries
    [⟨{ Card.hero ⟨1⟩ "HERO" "" .mage 30 "POWER" with cost := 1 }, Behaviour.none⟩,
      ⟨Card.power ⟨2⟩ "POWER" "" 2, Behaviour.none⟩]
    [(.mage, ⟨1⟩)] (by decide) (by decide)

/-- Player zero has the hero in the deck, too. -/
def Settings.understudies : Settings :=
  { Settings.standard with decks := [["HERO"], []] }

/-- The hero in the hand is accepted, paid and put on record, and stays in the hand. -/
theorem Duel.isStranded_understudies :
    ∃ duel after, Duel.create Settings.understudies Catalogue.understudies = .ok duel ∧
      duel.Runs 100 [.start] after ∧
        after.check .zero (.playCard ⟨4⟩ none none) = .ok () ∧
          ∃ entity, after.entity? ⟨4⟩ = some entity ∧ entity.cost = 1 ∧
            after.IsStranded 100 .zero ⟨4⟩ none none entity := by
  obtain ⟨duel, after, created, runs, comes⟩ :=
    exists_of_outcome Settings.understudies Catalogue.understudies 100 [.start]
      (fun after => after.accepts .zero (.playCard ⟨4⟩ none none) &&
        (after.entity? ⟨4⟩).any fun entity : Entity => entity.cost = 1 ∧ entity.IsStuck)
      (by decide +kernel)
  obtain ⟨accepts, stuck⟩ := Bool.and_eq_true _ _ |>.mp comes
  have accepted := accepts_iff.mp accepts
  obtain ⟨log, logged⟩ := exists_loggedBy created (reaches_of_runs runs)
  obtain ⟨entity, known, played⟩ := logged.placed.take_playCard 100
    (fun _ weapon => logged.weapon_posted weapon) accepted
  rw [known] at stuck
  obtain ⟨cost, stuck⟩ := of_decide_eq_true stuck
  rw [if_pos stuck] at played
  exact ⟨duel, after, created, runs, accepted, entity, known, cost, played⟩

end CardDuel
