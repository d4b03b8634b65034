import CardDuel.Proofs.Blows
import CardDuel.Proofs.Heroes
import CardDuel.Proofs.Transfers

/-!
# Drawing cards

Cards that are drawn come off the top of the deck.  The hand takes them while it has room, and the
graveyard takes the rest.  When the deck is empty, every further draw wounds the hero, by one more
each time.  Nothing but the drawn cards moves, so the three phases follow one another without
getting in each other's way.
-/

namespace CardDuel

open Relation

/-! ## Wounds of a hero -/

namespace Entity

variable {before mid after : Entity} {first second : Int}

/-- A hero whom every blow wears: nothing stops it, nothing is healed by it, and there is no armor
missing that would add to it. -/
structure Vulnerable (entity : Entity) : Prop where
  kind : entity.kind = .hero
  isOpen : entity.isOpen = true
  honest : entity.has .lifesteal = false
  armor : 0 ≤ entity.armor

/-- Blows of this total have taken the armor of a hero first, and the rest has wounded it. -/
structure Worn (total : Int) (before after : Entity) : Prop where
  vulnerable : after.Vulnerable
  armor : after.armor = before.armor - min before.armor total
  damage : after.damage = before.damage + (total - min before.armor total)

theorem Vulnerable.worn_zero (vulnerable : before.Vulnerable) : Worn 0 before before where
  vulnerable := vulnerable
  armor := by rw [Int.min_eq_right vulnerable.armor, Int.sub_zero]
  damage := by rw [Int.min_eq_right vulnerable.armor, Int.sub_zero, Int.add_zero]

theorem Worn.trans (one : Worn first before mid) (more : Worn second mid after)
    (_ : 0 ≤ first) (_ : 0 ≤ second) : Worn (first + second) before after := by
  obtain ⟨-, armor, damage⟩ := one
  obtain ⟨vulnerable, armorLeft, damageToo⟩ := more
  exact ⟨vulnerable, by omega, by omega⟩

/-- A hit of its own wears a hero. -/
theorem Vulnerable.worn_struck (vulnerable : before.Vulnerable) (blow : Blow) :
    Worn (max blow.amount 0) before (before.struck blow) := by
  have armor := vulnerable.armor
  by_cases weak : blow.amount ≤ 0
  · rw [struck_of_weak weak, Int.max_eq_right weak]
    exact vulnerable.worn_zero
  have strong : 0 < blow.amount := Int.not_le.mp weak
  have remaining : before.unabsorbed blow.amount = blow.amount - min before.armor blow.amount :=
    if_pos vulnerable.kind
  rw [struck_of_isOpen strong vulnerable.isOpen, Int.max_eq_left (Int.le_of_lt strong)]
  have armored : (before.takeHit blow.amount blow.edge.poisonous blow.edge.freezing).armor =
      before.armor - min before.armor blow.amount := by
    rw [Entity.armor, get_takeHit, if_neg (by simp), if_neg (by simp),
      if_pos ⟨rfl, vulnerable.kind⟩]
  refine ⟨⟨?_, ?_, ?_, ?_⟩, armored, ?_⟩
  · exact (congrArg Entity.kind (untagged_takeHit ..) :).trans vulnerable.kind
  · refine Eq.trans ?_ vulnerable.isOpen
    unfold Entity.isOpen
    rw [has_takeHit (by decide), has_takeHit (by decide)]
  · rw [has_takeHit (by decide)]
    exact vulnerable.honest
  · omega
  · rw [Entity.damage, get_takeHit, if_neg (by simp), if_pos rfl, remaining]
    omega

/-- It does not matter where the hero is. -/
theorem Vulnerable.of_body (vulnerable : before.Vulnerable) (same : after.body = before.body) :
    after.Vulnerable where
  kind := (congrArg Entity.kind same :).trans vulnerable.kind
  isOpen := (congrArg Entity.isOpen same :).trans vulnerable.isOpen
  honest := (congrArg (fun entity => entity.has .lifesteal) same :).trans vulnerable.honest
  armor := by
    have armor : after.armor = before.armor := (congrArg Entity.armor same :)
    rw [armor]
    exact vulnerable.armor

theorem Worn.of_body {total : Int} (worn : Worn total mid after) (same : mid.body = before.body) :
    Worn total before after := by
  have armor : mid.armor = before.armor := (congrArg Entity.armor same :)
  have damage : mid.damage = before.damage := (congrArg Entity.damage same :)
  obtain ⟨vulnerable, left, taken⟩ := worn
  rw [armor] at left taken
  rw [damage] at taken
  exact ⟨vulnerable, left, taken⟩

end Entity

/-! ## Announcements -/

/-- Between two duels exactly these events are announced, one after the other, and nothing else is
scheduled. -/
inductive Duel.Announces : Duel → List Event → Duel → Prop
  | nothing {before after : Duel} (same : after.agenda = before.agenda) : Announces before [] after
  | next {before middle after : Duel} {event : Event} {events : List Event}
      (same : middle.agenda = before.agenda)
      (rest : Announces (middle.announce event) events after) :
      Announces before (event :: events) after

namespace Duel

variable {duel before middle after : Duel} {id card : EntityId} {entity : Entity}
variable {player : Player} {goal zone : ZoneKind} {events others : List Event}

theorem Announces.congr (announces : middle.Announces events after)
    (same : middle.agenda = before.agenda) : before.Announces events after := by
  cases announces with
  | nothing last => exact .nothing (last.trans same)
  | next first rest => exact .next (first.trans same) rest

theorem Announces.trans (first : before.Announces events middle)
    (second : middle.Announces others after) : before.Announces (events ++ others) after := by
  induction first with
  | nothing same => exact second.congr same
  | next same _ ih => exact .next same (ih second)

theorem updatePlayer_congr {first second : PlayerState → PlayerState}
    (same : first (duel.player player) = second (duel.player player)) :
    duel.updatePlayer player first = duel.updatePlayer player second := by
  unfold Duel.updatePlayer PerPlayer.modify
  exact congrArg (fun state => { duel with players := duel.players.set player state }) same

/-! ## Harm -/

/-- From one duel to the other entities are harmed or healed where they are, and nothing else
happens; draws are not among the events of it. -/
structure Harms (before after : Duel) : Prop where
  table : after.table = before.table
  players : after.players = before.players
  settings : after.settings = before.settings
  announces : ∃ events, (∀ event ∈ events, event.kind ≠ .drawCard) ∧ before.Announces events after

theorem harms_refl (duel : Duel) : duel.Harms duel :=
  ⟨rfl, rfl, rfl, [], by simp, .nothing rfl⟩

theorem Harms.trans (first : before.Harms middle) (second : middle.Harms after) :
    before.Harms after := by
  obtain ⟨events, others, announced⟩ := first.announces
  obtain ⟨events', others', announced'⟩ := second.announces
  refine ⟨second.table.trans first.table, second.players.trans first.players,
    second.settings.trans first.settings, events ++ events', ?_, announced.trans announced'⟩
  intro event member
  exact (List.mem_append.mp member).elim (others event) (others' event)

theorem harms_of_reaches (reaches : ReflTransGen Harms before after) : before.Harms after := by
  induction reaches with
  | refl => exact harms_refl before
  | tail _ last ih => exact ih.trans last

theorem harms_updateEntity (duel : Duel) (id : EntityId) {change : Entity → Entity}
    (seated : ∀ entity, (change entity).seat = entity.seat) :
    duel.Harms (duel.updateEntity id change) :=
  ⟨table_updateEntity duel id seated, rfl, rfl, [], by simp, .nothing rfl⟩

instance : Harming Harms where
  hit duel id amount poisonous freezing :=
    duel.harms_updateEntity id fun entity => entity.seat_takeHit amount poisonous freezing
  loseShield duel id := duel.harms_updateEntity id fun _ => rfl
  heal duel id _ _ _ := duel.harms_updateEntity id fun _ => rfl
  report duel event told := by
    refine ⟨rfl, rfl, rfl, [event], ?_, .next rfl (.nothing rfl)⟩
    intro other member
    rw [List.mem_singleton.mp member]
    rcases told with kind | kind | kind <;> simp [kind]

/-! ## One card -/

/-- Refilling a container leaves the places of others alone when they keep their places in it. -/
theorem seat?_refill_of_same {content : Zone} {out : Option EntityId}
    (placed : duel.table.Placed out) (container : zone.IsContainer) (nodup : content.members.Nodup)
    (kept : id ∈ content.members → id ∈ duel.members player zone ∧
      content.members.idxOf id = (duel.members player zone).idxOf id) :
    (duel.refill player zone content).table.seat? id = duel.table.seat? id := by
  rw [seat?_refill duel player content container nodup]
  split
  next member =>
    obtain ⟨before, same⟩ := kept member
    obtain ⟨-, seat, seated, -, -, here⟩ := (placed.mem_iff player zone id).mp before
    have position : seat.position = (duel.members player zone).idxOf id :=
      placed.position player zone id seat before seated
    rw [seated, same, ← position, ← here]
    rfl
  next => rfl

/-- Who leaves the end of a container leaves everybody else in place. -/
theorem seat?_leaveZone_last {rest : List EntityId} (sound : duel.WellPlaced)
    (known : duel.entity? card = some entity) (contained : entity.seat.InContainer)
    (last : duel.members entity.owner entity.zone = rest ++ [card]) (away : id ≠ card) :
    (duel.leaveZone card goal).table.seat? id = duel.table.seat? id := by
  obtain ⟨content, found, members, member, nodup⟩ := exists_holding sound.placed known contained
  obtain ⟨-, seat, seated, -⟩ := apart_detach sound.placed known
  have before : content.members = rest ++ [card] := members.symm.trans last
  have fresh : card ∉ rest := by
    rw [before] at nodup
    exact fun inside => List.disjoint_of_nodup_append nodup inside (List.mem_singleton_self card)
  have after : content.members.erase card = rest := by
    rw [before, List.erase_append_right [card] fresh]
    simp
  rw [table_leaveZone goal known seated]
  refine (if_neg away).trans ?_
  rw [detach_contained contained found member]
  refine seat?_refill_of_same sound.placed contained.1 (nodup.erase card) fun inside => ?_
  have inside' : id ∈ rest := after ▸ inside
  rw [last]
  refine ⟨List.mem_append_left _ inside', ?_⟩
  rw [List.idxOf_append_of_mem inside']
  exact congrArg (List.idxOf id) after

/-- Who is put at the end of a container leaves everybody else in place. -/
theorem seat?_putInto_top (apart : duel.table.Placed (some card)) (container : goal.IsContainer)
    (room : duel.zones.isFull player goal = false) (away : id ≠ card) :
    (duel.putInto card player goal .top).table.seat? id = duel.table.seat? id := by
  obtain ⟨content, found⟩ := duel.zones.exists_get? player container
  have members : duel.table.members player goal = content.members := members_eq_of_get? found
  have open' : content.isFull = false := by
    unfold Zones.isFull at room
    rwa [found] at room
  have fresh : card ∉ content.members := by
    rw [← members]
    exact fun inside => ((apart.mem_iff player goal card).mp inside).1 rfl
  have inserted : content.members.insertIdx (content.placeFor .top) card =
      content.members ++ [card] := List.insertIdx_length_self ..
  have nodup : (content.members ++ [card]).Nodup := by
    have distinct := apart.nodup player goal
    rw [members] at distinct
    exact (List.nodup_append_comm.mp (List.nodup_cons.mpr ⟨fresh, distinct⟩))
  rw [insert?_eq .top found open', inserted]
  refine seat?_refill_of_same apart container nodup fun inside => ?_
  have inside' : id ∈ content.members := by simpa [away] using inside
  change id ∈ duel.table.members player goal ∧ _ = (duel.table.members player goal).idxOf id
  rw [members]
  exact ⟨inside', List.idxOf_append_of_mem inside'⟩

/-- A card went from the top of a deck to the end of another zone, and else all is as it was. -/
structure Sends (player : Player) (goal : ZoneKind) (card : EntityId) (before after : Duel) :
    Prop where
  deck : before.deck player = after.deck player ++ [card]
  arrives : after.members player goal = before.members player goal ++ [card]
  elsewhere : ∀ owner zone, ¬ (owner = player ∧ (zone = .deck ∨ zone = goal)) →
    after.members owner zone = before.members owner zone
  seats : ∀ id, id ≠ card → after.table.seat? id = before.table.seat? id
  bodies : ∀ id, after.body? id = before.body? id
  players : after.players = before.players
  settings : after.settings = before.settings
  agenda : after.agenda = before.agenda

/-- The duel after an entity is put at the end of a zone. -/
def sent (duel : Duel) (card : EntityId) (goal : ZoneKind) : Duel :=
  match duel.entity? card with
  | none => duel
  | some entity => duel.relocate card entity goal .top

/-- The top card of a deck is known, and knows where it is. -/
theorem exists_top {rest : List EntityId} (sound : duel.WellPlaced)
    (top : duel.deck player = rest ++ [card]) :
    ∃ entity, duel.entity? card = some entity ∧ entity.seat.InContainer ∧ entity.owner = player ∧
      entity.zone = .deck := by
  have member : card ∈ duel.table.members player .deck := by
    change card ∈ duel.deck player
    simp [top]
  obtain ⟨-, seat, seated, contained, owner, inDeck⟩ :=
    (sound.placed.mem_iff player .deck card).mp member
  obtain ⟨entity, known, rfl⟩ := Option.map_eq_some_iff.mp seated
  exact ⟨entity, known, contained, owner, inDeck⟩

/-- The top card of a deck can be sent wherever there is room. -/
theorem sends_sent {rest : List EntityId} (goal : ZoneKind) (sound : duel.WellPlaced)
    (top : duel.deck player = rest ++ [card]) (container : goal.IsContainer)
    (away : goal ≠ .deck ∧ goal ≠ .play) (room : duel.zones.isFull player goal = false) :
    Play.move card goal .top duel = .ok true (duel.sent card goal) ∧
      duel.Sends player goal card (duel.sent card goal) ∧ (duel.sent card goal).WellPlaced := by
  obtain ⟨entity, known, contained, rfl, inDeck⟩ := exists_top sound top
  have last : duel.members entity.owner entity.zone = rest ++ [card] := by
    rw [inDeck]
    exact top
  have noSlot : usesSlot entity.kind goal = false := by simp [usesSlot, away.2]
  have allowed : ¬ (entity.kind = .spell ∧ goal = .play) := fun both => away.2 both.2
  have finds : usesSlot entity.kind goal = true ∨ entity.zone = goal ∨
      duel.zones.isFull entity.owner goal = false := .inr (.inr room)
  have sent : duel.sent card goal = duel.relocate card entity goal .top := by
    unfold Duel.sent
    rw [known]
  have moved : Play.move card goal .top duel = .ok true (duel.sent card goal) := by
    rw [sent]
    exact Play.move_of_room known allowed finds
  refine ⟨moved, ?_, sent ▸ relocate_wellPlaced .top sound known finds⟩
  rw [sent]
  have fresh : card ∉ rest := by
    have nodup := sound.placed.nodup entity.owner .deck
    change (duel.deck entity.owner).Nodup at nodup
    rw [top] at nodup
    exact fun inside => List.disjoint_of_nodup_append nodup inside (List.mem_singleton_self card)
  obtain ⟨apart, -⟩ := apart_leaveZone goal sound.placed known
  have rearranged := rearranges_relocate .top known (by simp [inDeck]) away.2
  constructor
  case deck =>
    have left : (duel.members entity.owner .deck).erase card = rest := by
      change (duel.deck entity.owner).erase card = rest
      rw [top, List.erase_append_right [card] fresh]
      simp
    change duel.deck entity.owner =
      (duel.relocate card entity goal .top).members entity.owner .deck ++ [card]
    rw [members_relocate .top sound known finds, if_neg fun all => away.1 all.1.2.symm, left, top]
  case arrives =>
    refine members_relocate_top sound known container noSlot room ?_
    rw [inDeck]
    exact away.1.symm
  case elsewhere =>
    intro owner zone other
    refine members_relocate_of_away .top sound known finds ?_
    rwa [inDeck]
  case seats =>
    intro id others
    have room' := room_arrival sound known (by simp [noSlot]) finds
    unfold relocate
    dsimp only
    rw [table_startTriggers, noSlot, if_neg Bool.false_ne_true,
      seat?_putInto_top apart container room' others]
    exact seat?_leaveZone_last sound known contained last others
  case bodies => exact rearranged.bodies
  case players => exact rearranged.players
  case settings => exact rearranged.settings
  case agenda => exact rearranged.agenda

/-! ## Cards of the deck -/

/-- How many further cards the hand of a player takes. -/
def handRoom (duel : Duel) (player : Player) : Nat :=
  duel.settings.limits.hand - (duel.hand player).length

/-- The cards that come off a deck, in the order in which they are drawn. -/
def topCards (duel : Duel) (player : Player) (count : Nat) : List EntityId :=
  (duel.deck player).reverse.take count

theorem length_topCards (duel : Duel) (player : Player) (count : Nat) :
    (duel.topCards player count).length + (count - (duel.deck player).length) = count := by
  rw [topCards, List.length_take, List.length_reverse]
  omega

/-- What is left of a deck and the cards that come off it. -/
theorem deck_eq_append_topCards (duel : Duel) (player : Player) (count : Nat) :
    duel.deck player = (duel.deck player).take ((duel.deck player).length - count) ++
      (duel.topCards player count).reverse := by
  rw [topCards, List.reverse_take, List.length_reverse, List.reverse_reverse,
    List.take_append_drop]

/-- The duel after a card has come to the hand and its draw is announced. -/
def received (player : Player) (duel : Duel) (card : EntityId) : Duel :=
  (duel.sent card .hand).announce (Event.caused .drawCard player card)

/-- The duel after a card is burnt. -/
def burnt (duel : Duel) (card : EntityId) : Duel :=
  duel.sent card .graveyard

/-- The duel after cards are drawn: the hand receives what it has room for, the rest is burnt. -/
def dealt (duel : Duel) (player : Player) (cards : List EntityId) : Duel :=
  (cards.drop (duel.handRoom player)).foldl burnt
    ((cards.take (duel.handRoom player)).foldl (received player) duel)

/-- Cards came off the top of a deck, some to the hand and then others to the graveyard.  Draws are
announced for those in the hand, and else all is as it was. -/
structure Deals (player : Player) (kept lost : List EntityId) (before after : Duel) : Prop where
  deck : before.deck player = after.deck player ++ (kept ++ lost).reverse
  hand : after.hand player = before.hand player ++ kept
  graveyard : after.members player .graveyard = before.members player .graveyard ++ lost
  elsewhere : ∀ owner zone, ¬ (owner = player ∧ zone ∈ [ZoneKind.deck, .hand, .graveyard]) →
    after.members owner zone = before.members owner zone
  seats : ∀ id ∉ kept ++ lost, after.table.seat? id = before.table.seat? id
  bodies : ∀ id, after.body? id = before.body? id
  players : after.players = before.players
  settings : after.settings = before.settings
  announces : before.Announces (kept.map (Event.caused .drawCard player)) after

theorem deals_refl (player : Player) (duel : Duel) : Deals player [] [] duel duel where
  deck := by simp
  hand := by simp
  graveyard := by simp
  elsewhere _ _ _ := rfl
  seats _ _ := rfl
  bodies _ := rfl
  players := rfl
  settings := rfl
  announces := .nothing rfl

/-- Cards that are dealt one lot after the other, if none come to the hand after one was lost. -/
theorem Deals.trans {kept kept' lost lost' : List EntityId}
    (first : Deals player kept lost before middle) (second : Deals player kept' lost' middle after)
    (order : lost ++ kept' = kept' ++ lost) :
    Deals player (kept ++ kept') (lost ++ lost') before after where
  deck := by
    have cards : (kept ++ kept') ++ (lost ++ lost') = (kept ++ lost) ++ (kept' ++ lost') := by
      rw [List.append_assoc, List.append_assoc, ← List.append_assoc kept', ← order,
        List.append_assoc lost]
    rw [cards, List.reverse_append, ← List.append_assoc, ← second.deck, ← first.deck]
  hand := by rw [second.hand, first.hand, List.append_assoc]
  graveyard := by rw [second.graveyard, first.graveyard, List.append_assoc]
  elsewhere owner zone other :=
    (second.elsewhere owner zone other).trans (first.elsewhere owner zone other)
  seats id away := by
    simp only [List.mem_append, not_or] at away
    rw [second.seats id (by simp [away]), first.seats id (by simp [away])]
  bodies id := (second.bodies id).trans (first.bodies id)
  players := second.players.trans first.players
  settings := second.settings.trans first.settings
  announces := by
    rw [List.map_append]
    exact first.announces.trans second.announces

/-- A card that comes to the hand. -/
theorem Sends.received (sends : before.Sends player .hand card after) :
    Deals player [card] [] before (after.announce (Event.caused .drawCard player card)) where
  deck := sends.deck
  hand := sends.arrives
  graveyard := (sends.elsewhere player .graveyard (by simp)).trans (List.append_nil _).symm
  elsewhere owner zone other :=
    sends.elsewhere owner zone fun all => other ⟨all.1, by rcases all.2 with rfl | rfl <;> simp⟩
  seats id away := sends.seats id (by simpa using away)
  bodies := sends.bodies
  players := sends.players
  settings := sends.settings
  announces := .next sends.agenda (.nothing rfl)

/-- A card that is burnt. -/
theorem Sends.burnt (sends : before.Sends player .graveyard card after) :
    Deals player [] [card] before after where
  deck := sends.deck
  hand := (sends.elsewhere player .hand (by simp)).trans (List.append_nil _).symm
  graveyard := sends.arrives
  elsewhere owner zone other :=
    sends.elsewhere owner zone fun all => other ⟨all.1, by rcases all.2 with rfl | rfl <;> simp⟩
  seats id away := sends.seats id (by simpa using away)
  bodies := sends.bodies
  players := sends.players
  settings := sends.settings
  announces := .nothing sends.agenda

/-- What was under the cards that were dealt is the deck now. -/
theorem Deals.rest {kept lost rest : List EntityId} (deals : Deals player kept lost before after)
    (deck : before.deck player = rest ++ (kept ++ lost).reverse) : after.deck player = rest :=
  (List.append_cancel_right (deck.symm.trans deals.deck)).symm

theorem handRoom_pos_iff (sound : duel.WellPlaced) :
    0 < duel.handRoom player ↔ duel.zones.isFull player .hand = false := by
  rw [sound.isFull_iff player (by decide), handRoom, Nat.sub_pos_iff_lt]
  simp [ZoneLimits.capacity?, hand]

theorem Deals.handRoom {kept lost : List EntityId} (deals : Deals player kept lost before after) :
    after.handRoom player = before.handRoom player - kept.length := by
  unfold Duel.handRoom
  rw [deals.settings, deals.hand, List.length_append]
  omega

end Duel

namespace Play

open Duel

variable {duel : Duel} {player : Player} {card : EntityId} {rest : List EntityId}

/-- A card that is drawn while there is room comes to the hand. -/
theorem drawCard_received (sound : duel.WellPlaced) (top : duel.deck player = rest ++ [card])
    (room : 0 < duel.handRoom player) :
    drawCard player duel = .ok () (duel.received player card) ∧
      Deals player [card] [] duel (duel.received player card) ∧
        (duel.received player card).WellPlaced := by
  obtain ⟨moved, sends, placed⟩ := sends_sent .hand sound top (by decide) (by decide)
    ((handRoom_pos_iff sound).mp room)
  refine ⟨?_, sends.received, placed.congr rfl rfl⟩
  unfold drawCard
  rw [get_bind, top, List.getLast?_concat]
  dsimp only
  rw [bind_of_ok moved, if_pos rfl]
  rfl

/-- A card that is drawn to a full hand is burnt. -/
theorem drawCard_burnt (sound : duel.WellPlaced) (top : duel.deck player = rest ++ [card])
    (full : duel.handRoom player = 0) :
    drawCard player duel = .ok () (duel.burnt card) ∧
      Deals player [] [card] duel (duel.burnt card) ∧ (duel.burnt card).WellPlaced := by
  obtain ⟨moved, sends, placed⟩ := sends_sent .graveyard sound top (by decide) (by decide)
    (sound.isFull_of_unbounded player (by decide) rfl)
  obtain ⟨entity, known, -, rfl, zone⟩ := exists_top sound top
  have away : duel.TurnsAway entity .hand := by
    refine ⟨rfl, by simp [zone], Bool.of_not_eq_false fun open' => ?_⟩
    exact absurd ((handRoom_pos_iff sound).mpr open') (by omega)
  have stays : move card .hand .top duel = .ok false duel :=
    move_of_turnsAway known (by simp) away
  refine ⟨?_, sends.burnt, placed⟩
  unfold drawCard send
  rw [get_bind, top, List.getLast?_concat]
  dsimp only
  rw [bind_of_ok stays, if_neg Bool.false_ne_true, discard_apply, moved]
  rfl

/-- While there are cards, drawing deals them. -/
theorem times_drawCard_dealt (cards : List EntityId) (sound : duel.WellPlaced)
    (deck : duel.deck player = rest ++ cards.reverse) :
    times cards.length (drawCard player) duel = .ok () (duel.dealt player cards) ∧
      Deals player (cards.take (duel.handRoom player)) (cards.drop (duel.handRoom player)) duel
        (duel.dealt player cards) ∧ (duel.dealt player cards).WellPlaced := by
  induction cards generalizing duel with
  | nil =>
      unfold dealt
      rw [List.take_nil, List.drop_nil]
      exact ⟨rfl, deals_refl player duel, sound⟩
  | cons card cards ih =>
      have top : duel.deck player = (rest ++ cards.reverse) ++ [card] := by
        rw [deck, List.reverse_cons, List.append_assoc]
      cases room : duel.handRoom player with
      | zero =>
          obtain ⟨drawn, deals, placed⟩ := drawCard_burnt sound top room
          have room' : (duel.burnt card).handRoom player = 0 := by
            rw [deals.handRoom, room, Nat.zero_sub]
          obtain ⟨ran, others, placed'⟩ := ih placed (deals.rest top)
          unfold dealt at ran others placed' ⊢
          rw [room'] at ran others placed'
          rw [room]
          refine ⟨?_, ?_, placed'⟩
          · exact (bind_of_ok drawn).trans ran
          · exact deals.trans others rfl
      | succ more =>
          obtain ⟨drawn, deals, placed⟩ := drawCard_received sound top (by omega)
          have room' : (duel.received player card).handRoom player = more := by
            rw [deals.handRoom, room]
            rfl
          obtain ⟨ran, others, placed'⟩ := ih placed (deals.rest top)
          unfold dealt at ran others placed' ⊢
          rw [room'] at ran others placed'
          rw [room]
          refine ⟨?_, ?_, placed'⟩
          · exact (bind_of_ok drawn).trans ran
          · exact deals.trans others (List.append_nil _).symm

/-! ## An empty deck -/

/-- The fatigue of a player is set, and the hero is dealt as much. -/
def tire (player : Player) (hero : EntityId) (amount : Int) : Play Unit := do
  modify fun duel => duel.updatePlayer player fun state => state.setTag .fatigue amount
  damage hero hero amount

/-- One blow of fatigue after the other. -/
def starve (player : Player) (hero : EntityId) (amounts : List Int) : Play Unit :=
  amounts.forM (tire player hero)

/-- Drawing from an empty deck counts the fatigue and wounds the hero by it. -/
theorem drawCard_eq (empty : duel.deck player = []) :
    let counted := duel.updatePlayer player fun state => state.addTag .fatigue 1
    drawCard player duel = damage (counted.hero player) (counted.hero player)
      ((counted.player player).tags.get .fatigue) counted := by
  unfold drawCard
  rw [get_bind, empty]
  rfl

/-- Drawing from an empty deck wounds the hero by one more than the last time. -/
theorem drawCard_of_nil (empty : duel.deck player = [])
    (fits : Word.Fits ((duel.player player).tags.get .fatigue + 1)) :
    drawCard player duel =
      tire player (duel.hero player) ((duel.player player).tags.get .fatigue + 1) duel := by
  let counted := duel.updatePlayer player fun state => state.addTag .fatigue 1
  let tired := duel.updatePlayer player fun state =>
    state.setTag .fatigue ((duel.player player).tags.get .fatigue + 1)
  have same : counted = tired := updatePlayer_congr (PlayerState.addTag_of_fits fits)
  have state : tired.player player = (duel.player player).setTag .fatigue
      ((duel.player player).tags.get .fatigue + 1) := by
    rw [player_updatePlayer, if_pos rfl]
  have hero : tired.hero player = duel.hero player := by
    unfold Duel.hero
    rw [state]
    rfl
  have fatigue : (tired.player player).tags.get .fatigue =
      (duel.player player).tags.get .fatigue + 1 := by
    rw [state]
    exact Tags.get_set_self ..
  have wounds : drawCard player duel = damage (counted.hero player) (counted.hero player)
      ((counted.player player).tags.get .fatigue) counted := drawCard_eq empty
  rw [wounds, same, hero, fatigue]
  rfl

/-- If the fatigue wraps round, nobody is wounded. -/
theorem drawCard_of_wraps (empty : duel.deck player = [])
    (wraps : Word.signed ((duel.player player).tags.get .fatigue + 1) ≤ 0) :
    drawCard player duel =
      .ok () (duel.updatePlayer player fun state => state.addTag .fatigue 1) := by
  have amount : ((duel.updatePlayer player fun state => state.addTag .fatigue 1).player
      player).tags.get .fatigue = Word.signed ((duel.player player).tags.get .fatigue + 1) := by
    rw [player_updatePlayer, if_pos rfl, PlayerState.get_addTag, if_pos rfl]
  rw [drawCard_eq empty, amount, damage, if_pos wraps]
  rfl

end Play

namespace Duel

variable {duel before middle after : Duel} {player : Player}

/-- The slot of a player's hero is valid: it names an entity, and if that belongs to somebody else,
the slot of its owner names one too. -/
def Headed (duel : Duel) (player : Player) : Prop :=
  ∃ hero, duel.entity? (duel.hero player) = some hero ∧
    ∃ champion, duel.entity? (duel.hero hero.owner) = some champion

theorem Manned.headed (manned : duel.Manned) (player : Player) : duel.Headed player := by
  obtain ⟨hero, known, -⟩ := manned.hero player
  obtain ⟨champion, knownToo, -⟩ := manned.hero hero.owner
  exact ⟨hero, known, champion, knownToo⟩

/-- A slot stays valid while the slots name the same and everybody has the same owner. -/
theorem Headed.congr (headed : before.Headed player)
    (slots : ∀ owner, after.hero owner = before.hero owner)
    (owners : ∀ id, (after.entity? id).map Entity.owner = (before.entity? id).map Entity.owner) :
    after.Headed player := by
  have stays {id : EntityId} {entity : Entity} (known : before.entity? id = some entity) :
      ∃ later, after.entity? id = some later ∧ later.owner = entity.owner := by
    have owner := owners id
    rw [known] at owner
    exact Option.map_eq_some_iff.mp owner
  obtain ⟨hero, known, champion, knownToo⟩ := headed
  obtain ⟨hero', known', owner⟩ := stays known
  obtain ⟨champion', knownToo', -⟩ := stays knownToo
  refine ⟨hero', ?_, champion', ?_⟩
  · rwa [slots]
  · rwa [slots, owner]

theorem Headed.of_table (headed : before.Headed player) (table : after.table = before.table) :
    after.Headed player := by
  refine headed.congr (fun owner => ?_) fun id => ?_
  · exact congrArg (fun table => (table.slots owner).hero) table
  · have seats := congrArg (fun table => (table.seat? id).map Seat.owner) table
    change ((after.entity? id).map Entity.seat).map Seat.owner =
      ((before.entity? id).map Entity.seat).map Seat.owner at seats
    rw [Option.map_map, Option.map_map] at seats
    exact seats

theorem Deals.headed {kept lost : List EntityId} (deals : Deals player kept lost before after)
    (headed : before.Headed player) : after.Headed player := by
  refine headed.congr (fun owner => ?_) fun id => ?_
  · unfold hero Duel.player
    rw [deals.players]
  · have bodies := congrArg (Option.map Entity.owner) (deals.bodies id)
    rw [body?, body?, Option.map_map, Option.map_map] at bodies
    exact bodies

/-- The blows of so many draws from an empty deck, as the fatigue before them has it. -/
def toll (duel : Duel) (player : Player) (count : Nat) : List Int :=
  (List.range count).map fun place : Nat => (duel.player player).tags.get .fatigue + 1 + place

/-- The fatigue goes on where it was left. -/
theorem toll_add {count : Nat} (more : Nat)
    (fatigue : (middle.player player).tags.get .fatigue =
      (before.player player).tags.get .fatigue + count) :
    before.toll player (count + more) = before.toll player count ++ middle.toll player more := by
  unfold toll
  rw [List.range_add, List.map_append, List.map_map, fatigue]
  refine congrArg _ (List.map_congr_left fun place _ => ?_)
  simp only [Function.comp_apply]
  omega

/-- What blows come to; a blow that is not positive is none. -/
def harm (blows : List Int) : Int :=
  (blows.map fun blow => max blow 0).sum

theorem harm_nonneg (blows : List Int) : 0 ≤ harm blows := by
  induction blows with
  | nil => exact Int.le_refl 0
  | cons blow blows ih =>
      rw [harm, List.map_cons, List.sum_cons]
      exact Int.add_nonneg (Int.le_max_right _ _) ih

/-- Blows of this total wear an entity that is a vulnerable hero. -/
def WearsDown (id : EntityId) (total : Int) (before after : Duel) : Prop :=
  ∀ hero, before.entity? id = some hero → hero.Vulnerable →
    ∃ worn, after.entity? id = some worn ∧ hero.Worn total worn

/-- Draws from an empty deck have tired a player so many times. -/
structure Starves (player : Player) (count : Nat) (before after : Duel) : Prop where
  table : after.table = before.table
  tags : ∀ owner tag, (after.player owner).tags.get tag =
    (before.player owner).tags.get tag + if owner = player ∧ tag = .fatigue then count else 0
  wears : before.WearsDown (before.hero player) (harm (before.toll player count)) after
  announces : ∃ events, (∀ event ∈ events, event.kind ≠ .drawCard) ∧ before.Announces events after

theorem Starves.hero {count : Nat} (starves : before.Starves player count after) :
    after.hero player = before.hero player :=
  congrArg (fun table => (table.slots player).hero) starves.table

theorem Starves.fatigue {count : Nat} (starves : before.Starves player count after) :
    (after.player player).tags.get .fatigue = (before.player player).tags.get .fatigue + count := by
  rw [starves.tags, if_pos ⟨rfl, rfl⟩]

theorem starves_zero (player : Player) (duel : Duel) : duel.Starves player 0 duel where
  table := rfl
  tags _ _ := by simp
  wears hero known vulnerable := ⟨hero, known, vulnerable.worn_zero⟩
  announces := ⟨[], by simp, .nothing rfl⟩

theorem Starves.trans {count more : Nat} (first : before.Starves player count middle)
    (second : middle.Starves player more after) : before.Starves player (count + more) after where
  table := second.table.trans first.table
  tags owner tag := by
    rw [second.tags, first.tags]
    split <;> omega
  wears hero known vulnerable := by
    obtain ⟨worn, knownToo, wears⟩ := first.wears hero known vulnerable
    obtain ⟨last, knownLast, wearsToo⟩ :=
      second.wears worn (by rwa [first.hero]) wears.vulnerable
    rw [first.hero] at knownLast
    refine ⟨last, knownLast, ?_⟩
    rw [toll_add more first.fatigue, harm, List.map_append, List.sum_append]
    exact wears.trans wearsToo (harm_nonneg _) (harm_nonneg _)
  announces := by
    obtain ⟨events, others, announced⟩ := first.announces
    obtain ⟨events', others', announced'⟩ := second.announces
    refine ⟨events ++ events', fun event member => ?_, announced.trans announced'⟩
    exact (List.mem_append.mp member).elim (others event) (others' event)

/-- The fatigue after so many draws from an empty deck still fits its word. -/
def Endures (duel : Duel) (player : Player) (count : Nat) : Prop :=
  Word.Fits ((duel.player player).tags.get .fatigue) ∧
    Word.Fits ((duel.player player).tags.get .fatigue + count)

instance (duel : Duel) (player : Player) (count : Nat) : Decidable (duel.Endures player count) :=
  inferInstanceAs (Decidable (_ ∧ _))

end Duel

namespace Play

variable {duel : Duel} {player : Player}

open Duel

/-- A hero can be wounded by fatigue. -/
theorem exists_tire (headed : duel.Headed player) {amount : Int}
    (next : amount = (duel.player player).tags.get .fatigue + 1) :
    ∃ after, tire player (duel.hero player) amount duel = .ok () after ∧
      duel.Starves player 1 after := by
  let tired := duel.updatePlayer player fun state => state.setTag .fatigue amount
  have table : tired.table = duel.table := table_updatePlayer duel player fun _ => rfl
  obtain ⟨hero, known, champion, knownToo⟩ := headed.of_table table
  have slot : tired.hero player = duel.hero player :=
    congrArg (fun table => (table.slots player).hero) table
  rw [slot] at known
  have follows : Follows Harms (damage (duel.hero player) (duel.hero player) amount) :=
    follows_damage
  have wounds :
      (damage (duel.hero player) (duel.hero player) amount).Yields tired _ fun _ => False :=
    (does_damage known known knownToo).and follows.ensures
  obtain ⟨⟨⟩, after, ran, turns, reaches⟩ := wounds.exists_ok
  have harms := harms_of_reaches reaches
  refine ⟨after, ran, harms.table.trans table, fun owner tag => ?_, ?_, ?_⟩
  · have state : after.player owner = tired.player owner := by
      unfold Duel.player
      rw [harms.players]
    rw [state, player_updatePlayer]
    by_cases here : owner = player
    · subst here
      rw [if_pos rfl, PlayerState.setTag, Tags.get_set, next]
      split
      next fatigue => simp [fatigue]
      next other => simp [other]
    · simp [here]
  · intro hero' known' vulnerable
    obtain rfl : hero' = hero := Option.some.inj (known'.symm.trans known)
    let blow := tired.blow hero' (duel.hero player) hero' amount
    have idle : blow.heals = false := by
      simp [blow, Duel.blow, Entity.edge, vulnerable.honest]
    have worn : blow.on (duel.hero player) hero' = hero'.struck blow := by
      unfold Blow.on
      dsimp only
      rw [idle, if_neg fun both => Bool.false_ne_true both.1]
      exact if_pos rfl
    have total : harm (duel.toll player 1) = max amount 0 := by
      simp [harm, toll, next]
    refine ⟨hero'.struck blow, worn ▸ turns.known known, ?_⟩
    rw [total]
    exact vulnerable.worn_struck blow
  · obtain ⟨events, others, announced⟩ := harms.announces
    exact ⟨events, others, announced.congr rfl⟩

/-- From an empty deck each draw is a blow. -/
theorem times_drawCard_starved (count : Nat) (headed : duel.Headed player)
    (empty : 0 < count → duel.deck player = []) (endures : duel.Endures player count) :
    ∃ after, times count (drawCard player) duel = .ok () after ∧
      starve player (duel.hero player) (duel.toll player count) duel = .ok () after ∧
        duel.Starves player count after := by
  induction count generalizing duel with
  | zero => exact ⟨duel, rfl, rfl, starves_zero player duel⟩
  | succ count ih =>
      have nothing := empty (Nat.succ_pos count)
      obtain ⟨low, high⟩ := endures
      have fits : Word.Fits ((duel.player player).tags.get .fatigue + 1) := by
        unfold Word.Fits at *
        omega
      obtain ⟨middle, tired, starves⟩ := exists_tire headed rfl
      have drawn : drawCard player duel = .ok () middle :=
        (drawCard_of_nil nothing fits).trans tired
      have nothing' : middle.deck player = [] :=
        (congrArg (fun table => table.members player .deck) starves.table).trans nothing
      have endures' : middle.Endures player count := by
        unfold Endures
        rw [starves.fatigue]
        refine ⟨fits, ?_⟩
        unfold Word.Fits at high ⊢
        omega
      have amounts : duel.toll player (count + 1) =
          ((duel.player player).tags.get .fatigue + 1) :: middle.toll player count := by
        rw [Nat.add_comm, toll_add count starves.fatigue]
        simp [toll]
      obtain ⟨after, ran, starved, starves'⟩ := ih (headed.of_table starves.table)
        (fun _ => nothing') endures'
      rw [starves.hero] at starved
      refine ⟨after, (bind_of_ok drawn).trans ran, ?_, ?_⟩
      · rw [amounts]
        exact (bind_of_ok tired).trans starved
      · rw [Nat.add_comm count 1]
        exact starves.trans starves'

/-! ## The law -/

theorem times_add (first second : Nat) (action : Play Unit) :
    times (first + second) action = times first action >>= fun _ => times second action := by
  induction first with
  | zero =>
      rw [Nat.zero_add]
      exact (pure_bind () fun _ => times second action).symm
  | succ first ih =>
      rw [Nat.add_right_comm]
      change (action >>= fun _ => times (first + second) action) =
        (action >>= fun _ => times first action) >>= fun _ => times second action
      rw [ih, bind_assoc]

end Play

namespace Duel

/-- What drawing cards does. -/
structure Draws (player : Player) (count : Nat) (before after : Duel) : Prop where
  /-- The deck loses its top cards. -/
  deck : after.deck player = (before.deck player).take ((before.deck player).length - count)
  /-- As many of them as fit come to the end of the hand, in the order in which they are drawn. -/
  hand : after.hand player =
    before.hand player ++ (before.topCards player count).take (before.handRoom player)
  /-- The others come to the end of the graveyard. -/
  graveyard : after.members player .graveyard = before.members player .graveyard ++
    (before.topCards player count).drop (before.handRoom player)
  elsewhere : ∀ owner zone, ¬ (owner = player ∧ zone ∈ [ZoneKind.deck, .hand, .graveyard]) →
    after.members owner zone = before.members owner zone
  /-- Nobody else is anywhere else than before, in a container or not. -/
  seats : ∀ id ∉ before.topCards player count, after.table.seat? id = before.table.seat? id
  slots : after.table.slots = before.table.slots
  /-- Only the fatigue grows, by one for each draw that the deck falls short of. -/
  tags : ∀ owner tag, (after.player owner).tags.get tag = (before.player owner).tags.get tag +
    if owner = player ∧ tag = .fatigue then ((count - (before.deck player).length : Nat) : Int)
    else 0
  /-- Draws are announced for the cards that come to the hand and for no others. -/
  announces : ∃ events, (∀ event ∈ events, event.kind ≠ .drawCard) ∧ before.Announces
    (((before.topCards player count).take (before.handRoom player)).map
      (Event.caused .drawCard player) ++ events) after
  /-- After the cards are dealt the hero takes a blow for each draw that the deck falls short of,
  by one more each time. -/
  blows : Play.starve player (before.hero player)
    (before.toll player (count - (before.deck player).length))
      (before.dealt player (before.topCards player count)) = .ok () after
  /-- A vulnerable hero loses its armor to the blows first, and the rest of them wounds it, as far
  as a word holds its damage. -/
  wears : ∀ hero, before.entity? (before.hero player) = some hero → hero.Vulnerable →
    Word.Fits (hero.damage + harm (before.toll player (count - (before.deck player).length))) →
      ∃ worn, after.entity? (before.hero player) = some worn ∧
        hero.Worn (harm (before.toll player (count - (before.deck player).length))) worn

end Duel

namespace Play

open Duel

variable {duel : Duel} {player : Player}

theorem times_drawCard_draws (count : Nat) (sound : duel.WellPlaced)
    (headed : duel.Headed player)
    (endures : duel.Endures player (count - (duel.deck player).length)) :
    ∃ after, times count (drawCard player) duel = .ok () after ∧ duel.Draws player count after := by
  let cards := duel.topCards player count
  let dealt := duel.dealt player cards
  let missing := count - (duel.deck player).length
  have split : cards.length + missing = count := length_topCards duel player count
  have deck := deck_eq_append_topCards duel player count
  obtain ⟨drawn, deals, -⟩ := times_drawCard_dealt cards sound deck
  have rest : dealt.deck player =
      (duel.deck player).take ((duel.deck player).length - count) := by
    refine deals.rest (deck.trans ?_)
    rw [List.take_append_drop]
  have empty : 0 < missing → dealt.deck player = [] := by
    intro short
    rw [rest, Nat.sub_eq_zero_of_le (by omega), List.take_zero]
  have heroes : dealt.hero player = duel.hero player := by
    unfold hero Duel.player
    rw [deals.players]
  have tolls : dealt.toll player missing = duel.toll player missing := by
    unfold toll Duel.player
    rw [deals.players]
  have endures' : dealt.Endures player missing := by
    unfold Endures Duel.player
    rw [deals.players]
    exact endures
  obtain ⟨after, starved, blows, starves⟩ :=
    times_drawCard_starved missing (deals.headed headed) empty endures'
  have members (owner : Player) (zone : ZoneKind) :
      after.members owner zone = dealt.members owner zone :=
    congrArg (fun table => table.members owner zone) starves.table
  refine ⟨after, ?_, ?_⟩
  · rw [← split, times_add, bind_of_ok drawn]
    exact starved
  constructor
  case deck => exact (members player .deck).trans rest
  case hand => exact (members player .hand).trans deals.hand
  case graveyard => exact (members player .graveyard).trans deals.graveyard
  case elsewhere =>
    exact fun owner zone other => (members owner zone).trans (deals.elsewhere owner zone other)
  case seats =>
    intro id away
    rw [starves.table]
    exact deals.seats id (by rwa [List.take_append_drop])
  case slots =>
    rw [starves.table]
    exact funext fun owner => by
      unfold table Duel.player
      rw [deals.players]
  case tags =>
    intro owner tag
    rw [starves.tags]
    unfold Duel.player
    rw [deals.players]
    split <;> rfl
  case announces =>
    obtain ⟨events, others, announced⟩ := starves.announces
    exact ⟨events, others, deals.announces.trans announced⟩
  case blows =>
    rw [← heroes, ← tolls]
    exact blows
  case wears =>
    intro hero known vulnerable _
    obtain ⟨same, knownToo, body⟩ := Option.map_eq_some_iff.mp
      ((deals.bodies (duel.hero player)).trans (body?_of_entity? known))
    obtain ⟨worn, knownWorn, wears⟩ :=
      starves.wears same (by rwa [heroes]) (vulnerable.of_body body)
    rw [heroes] at knownWorn
    refine ⟨worn, knownWorn, ?_⟩
    rw [← tolls]
    exact wears.of_body body

end Play

/-- Player zero has four wisps in the deck and room for two in the hand. -/
def Settings.hoarders : Settings :=
  { Settings.mages with
    decks := [List.replicate 4 "WISP", []], handSize := 2, shuffleDecks := false }

theorem Catalogue.heroesFit_mages : Catalogue.mages.HeroesFit := by
  intro cardClass card found
  cases cardClass <;> cases found
  rfl

/-- Two mages without cards. -/
def Settings.paupers : Settings :=
  { Settings.mages with decks := [[], []] }

end CardDuel
