import CardDuel.Proofs.Calls
import CardDuel.Proofs.Posts

/-!
# The log of arrivals

Every change of a duel brings at most one entity to another post.  The arrivals along a
run, the newest first, tell where everybody is: an entity is where it arrived last, a
slot names the last hero or hero power that came into play, and the last weapon that
did as long as it stays.
-/

namespace CardDuel

open Relation

/-- An entity that came to a post. -/
structure Arrival where
  id : EntityId
  post : Post
deriving DecidableEq

theorem Post.unplaced_ne_play {owner player : Player} {kind slot : EntityKind} :
    (⟨owner, kind, .unplaced⟩ : Post) ≠ ⟨player, slot, .play⟩ := fun same => by
  have zones : ZoneKind.unplaced = .play := congrArg Post.zone same
  cases zones

/-- The arrivals of a run, the newest first. -/
abbrev ArrivalLog := List Arrival

namespace ArrivalLog

/-- Where an entity arrived last. -/
def post? (log : ArrivalLog) (id : EntityId) : Option Post :=
  (log.find? fun arrival => arrival.id = id).map Arrival.post

/-- The last entity of a kind that came into play under a player. -/
def entrant? (log : ArrivalLog) (player : Player) (kind : EntityKind) : Option EntityId :=
  (log.find? fun arrival => arrival.post = ⟨player, kind, .play⟩).map Arrival.id

/-- Whether an entity of a kind that came into play under a player has not moved since. -/
def Stays (log : ArrivalLog) (id : EntityId) (player : Player) (kind : EntityKind) : Prop :=
  log.post? id = some ⟨player, kind, .play⟩

variable {log : ArrivalLog} {id other : EntityId} {post : Post} {player : Player}
variable {kind : EntityKind}

theorem post?_cons : post? (⟨other, post⟩ :: log) id =
    if id = other then some post else log.post? id := by
  unfold post?
  rw [List.find?_cons]
  by_cases here : other = id
  · simp [here]
  · simp [here, Ne.symm here]

theorem entrant?_cons : entrant? (⟨other, post⟩ :: log) player kind =
    if post = ⟨player, kind, .play⟩ then some other else log.entrant? player kind := by
  unfold entrant?
  rw [List.find?_cons]
  by_cases enters : post = ⟨player, kind, .play⟩
  · simp [enters]
  · simp [enters]

/-- Who stays in play came into play. -/
theorem Stays.entrant?_isSome (stays : log.Stays id player kind) :
    ∃ entrant, log.entrant? player kind = some entrant := by
  obtain ⟨arrival, found, enters⟩ := Option.map_eq_some_iff.mp stays
  cases last : log.find? fun arrival => arrival.post = ⟨player, kind, .play⟩ with
  | some entrant => exact ⟨entrant.id, by rw [entrant?, last]; rfl⟩
  | none =>
      have passed := List.find?_eq_none.mp last arrival (List.mem_of_find?_eq_some found)
      exact absurd (decide_eq_true enters) passed

end ArrivalLog

namespace Duel

/-- A change brings one entity to a post, or nobody. -/
inductive Brings : Duel → Option Arrival → Duel → Prop
  | move (duel : Duel) {id : EntityId} {entity : Entity} {goal : ZoneKind}
      (placement : Placement) (known : duel.entity? id = some entity)
      (allowed : ¬ (entity.kind = .spell ∧ goal = .play))
      (room : usesSlot entity.kind goal = true ∨ entity.zone = goal ∨
        duel.zones.isFull entity.owner goal = false) :
      Brings duel (some ⟨id, entity.owner, entity.kind, goal⟩)
        (duel.relocate id entity goal placement)
  | handOver (duel : Duel) {id : EntityId} {entity : Entity} {owner : Player}
      (known : duel.entity? id = some entity) :
      Brings duel (some ⟨id, owner, entity.kind, .unplaced⟩)
        ((duel.leaveZone id .unplaced).updateEntity id fun entity =>
          { entity with owner := owner })
  | create (duel : Duel) (owner : Player) (card : Card) (kind : EntityKind) :
      Brings duel (some ⟨duel.arena.nextId, owner, kind, .unplaced⟩)
        { duel with arena := duel.arena.push (Entity.fresh owner card kind) }
  | nobody {before after : Duel} (change : Change before after)
      (posts : ∀ id, after.table.post? id = before.table.post? id)
      (slots : after.table.slots = before.table.slots) : Brings before none after

/-- A run from a duel to another one, with the log of its arrivals. -/
inductive Trail (start : Duel) : ArrivalLog → Duel → Prop
  | start : Trail start [] start
  | step {log : ArrivalLog} {arrival : Option Arrival} {before after : Duel}
      (trail : Trail start log before) (brings : Brings before arrival after) :
      Trail start (arrival.toList ++ log) after

variable {before after start duel : Duel} {log : ArrivalLog}

theorem Change.brings (change : Change before after) (sound : before.WellPlaced) :
    ∃ arrival, Brings before arrival after := by
  have still (table : after.table = before.table) : ∃ arrival, Brings before arrival after :=
    ⟨none, .nobody change (fun id => by rw [table]) (by rw [table])⟩
  cases change with
  | shift shift =>
      cases shift with
      | stir stir => exact still stir.table
      | relocate placement known allowed room =>
          exact ⟨_, .move before placement known allowed room⟩
      | handOver known other => exact ⟨_, .handOver before known⟩
      | create owner listed instantiable => exact ⟨_, .create before owner _ _⟩
      | shuffle player container reordered =>
          exact ⟨none, .nobody (.shift (.shuffle before player container reordered))
            (fun id => post?_shuffle sound container reordered) rfl⟩
  | finish losers => exact still (table_finish before losers)
  | concede player =>
      refine still ((table_finish _ [player]).trans ?_)
      exact table_updatePlayer before player fun _ => rfl
  | _ => exact still rfl

theorem exists_trail (reaches : ReflTransGen Change start after) (sound : start.WellPlaced) :
    ∃ log, Trail start log after := by
  induction reaches with
  | refl => exact ⟨[], .start⟩
  | tail reached change ih =>
      obtain ⟨log, trail⟩ := ih
      obtain ⟨arrival, brings⟩ := change.brings (Change.wellPlaced_of_reaches reached sound)
      exact ⟨_, trail.step brings⟩

/-- What a log says of the posts and slots of a duel. -/
structure LoggedBy (duel : Duel) (log : ArrivalLog) : Prop where
  placed : duel.WellPlaced
  posts : ∀ id, duel.table.post? id = log.post? id
  /-- The slots of hero and hero power name the last one that came into play. -/
  held : ∀ player slot id, slot = .hero ∨ slot = .heroPower →
    log.entrant? player slot = some id → (duel.table.slots player).holder? slot = some id
  /-- The weapon slot names the last one that came into play, as long as it stays. -/
  armed : ∀ player id, (duel.table.slots player).holder? .weapon = some id ↔
    log.entrant? player .weapon = some id ∧ log.Stays id player .weapon

/-- An entity that arrives fills the slot of its kind in play and nothing else. -/
theorem LoggedBy.arrive {id : EntityId} {entity : Entity} {post : Post} (goal : ZoneKind)
    (logged : before.LoggedBy log) (known : before.entity? id = some entity)
    (placed : after.WellPlaced)
    (posts : ∀ other, after.table.post? other =
      if other = id then some post else before.table.post? other)
    (slots : ∀ player slot, slot = .hero ∨ slot = .heroPower ∨ slot = .weapon →
      (after.table.slots player).holder? slot =
        if post = ⟨player, slot, .play⟩ then some id
        else ((before.leaveZone id goal).table.slots player).holder? slot) :
    after.LoggedBy (⟨id, post⟩ :: log) where
  placed := placed
  posts other := by rw [posts, ArrivalLog.post?_cons, logged.posts]
  held player slot other named entered := by
    rw [slots player slot (named.imp_right .inl)]
    rw [ArrivalLog.entrant?_cons] at entered
    split
    next enters =>
      rw [if_pos enters] at entered
      exact entered
    next away =>
      rw [if_neg away] at entered
      have noWeapon : slot ≠ .weapon := by
        rintro rfl
        rcases named with same | same <;> cases same
      rw [holder?_leaveZone logged.placed.placed known goal, if_neg fun all => noWeapon all.1]
      exact logged.held player slot other named entered
  armed player other := by
    rw [slots player .weapon (.inr (.inr rfl)), ArrivalLog.entrant?_cons, ArrivalLog.Stays,
      ArrivalLog.post?_cons]
    have armed := logged.armed player
    by_cases enters : post = ⟨player, .weapon, .play⟩
    · rw [if_pos enters, if_pos enters]
      constructor
      · intro same
        cases same
        exact ⟨rfl, by rw [if_pos rfl, enters]⟩
      · exact fun both => both.1
    · rw [if_neg enters, if_neg enters, holder?_leaveZone logged.placed.placed known goal]
      by_cases moves : other = id
      · rw [if_pos moves, moves]
        refine iff_of_false (fun holds => ?_) fun both => enters (Option.some.inj both.2)
        -- The weapon in the slot was in play, so leaving has emptied the slot.
        split at holds
        · cases holds
        next stays =>
          have posted := ((armed id).mp holds).2
          rw [ArrivalLog.Stays, ← logged.posts, post?_of_entity? known] at posted
          obtain ⟨owner, kind, zone⟩ := Post.mk.inj (Option.some.inj posted)
          refine stays ⟨rfl, owner.symm, zone, fun minion => ?_, holds⟩
          cases kind.symm.trans minion
      · rw [if_neg moves]
        split
        next leaves =>
          apply iff_of_false nofun
          intro both
          have last := ((armed id).mp leaves.2.2.2.2).1
          exact moves (Option.some.inj (both.1.symm.trans last))
        · exact armed other

/-- The next entity is nowhere yet. -/
theorem post?_nextId (duel : Duel) : duel.table.post? duel.arena.nextId = none := by
  change ((duel.arena.get? duel.arena.nextId).map Entity.seat).map Seat.post = none
  rw [Arena.get?_nextId]
  rfl

theorem LoggedBy.brings {arrival : Option Arrival} (logged : before.LoggedBy log)
    (brings : Brings before arrival after) : after.LoggedBy (arrival.toList ++ log) := by
  cases brings with
  | @move id entity goal placement known allowed room =>
      refine logged.arrive goal known (relocate_wellPlaced placement logged.placed known room)
        (fun other => post?_relocate placement logged.placed known room) fun player slot named => ?_
      rw [holder?_relocate placement allowed]
      refine if_congr ?_ rfl rfl
      constructor
      · rintro ⟨rfl, rfl, uses⟩
        rw [(usesSlot_iff.mp uses).1]
      · intro enters
        obtain ⟨rfl, rfl, rfl⟩ := Post.mk.inj enters
        refine ⟨rfl, rfl, ?_⟩
        rcases named with same | same | same <;> rw [same] <;> rfl
  | @handOver id entity owner known =>
      refine logged.arrive .unplaced known (handOver_wellPlaced logged.placed known)
        (fun other => post?_handOver owner logged.placed known) fun player slot named => ?_
      rw [if_neg Post.unplaced_ne_play]
      rfl
  | create owner card kind =>
      have unknown := before.post?_nextId
      refine ⟨create_wellPlaced logged.placed, fun id => ?_, fun player slot id named entered => ?_,
        fun player id => ?_⟩
      · change _ = ArrivalLog.post? (⟨before.arena.nextId, owner, kind, .unplaced⟩ :: log) id
        rw [post?_create, ArrivalLog.post?_cons, logged.posts]
      · change ArrivalLog.entrant? (⟨before.arena.nextId, owner, kind, .unplaced⟩ :: log) player
          slot = some id at entered
        rw [ArrivalLog.entrant?_cons, if_neg Post.unplaced_ne_play] at entered
        exact logged.held player slot id named entered
      · change (before.table.slots player).holder? .weapon = some id ↔
          ArrivalLog.entrant? (⟨before.arena.nextId, owner, kind, .unplaced⟩ :: log) player
            .weapon = some id ∧
              ArrivalLog.post? (⟨before.arena.nextId, owner, kind, .unplaced⟩ :: log) id = _
        rw [ArrivalLog.entrant?_cons, if_neg Post.unplaced_ne_play, ArrivalLog.post?_cons,
          logged.armed]
        apply and_congr_right
        intro _
        split
        next made =>
          refine iff_of_false (fun stays => ?_) fun gone =>
            Post.unplaced_ne_play (Option.some.inj gone)
          rw [ArrivalLog.Stays, ← logged.posts, made, unknown] at stays
          cases stays
        · rfl
  | nobody change posts slots =>
      refine ⟨change.wellPlaced logged.placed, fun id => (posts id).trans (logged.posts id), ?_, ?_⟩
      · rw [slots]
        exact logged.held
      · rw [slots]
        exact logged.armed

/-- The log of a run from an empty table tells all posts and slots. -/
theorem Trail.loggedBy (trail : Trail start log duel) (empty : start.LoggedBy []) :
    duel.LoggedBy log := by
  induction trail with
  | start => exact empty
  | step _ brings ih => exact ih.brings brings

theorem bare_loggedBy {settings : Settings} {catalogue : Catalogue}
    (begun : Duel.bare settings catalogue = .ok duel) : duel.LoggedBy [] := by
  refine ⟨bare_wellPlaced begun, fun id => ?_, fun _ _ _ _ => nofun, fun player id => ?_⟩
  · obtain ⟨first, dice, zero, one, rfl⟩ := bare_eq begun
    exact congrArg (fun entity => (Option.map Entity.seat entity).map Seat.post)
      (Arena.get?_empty id)
  · refine iff_of_false (fun armed => ?_) fun both => nomatch both.1
    obtain ⟨first, dice, zero, one, rfl⟩ := bare_eq begun
    cases player <;> cases armed

/-- Whatever happens from a bare table on, some log tells its posts and slots. -/
theorem exists_loggedBy_of_bare {settings : Settings} {catalogue : Catalogue}
    (begun : Duel.bare settings catalogue = .ok start)
    (reaches : ReflTransGen Change start duel) : ∃ log, duel.LoggedBy log := by
  obtain ⟨log, trail⟩ := exists_trail reaches (bare_wellPlaced begun)
  exact ⟨log, trail.loggedBy (bare_loggedBy begun)⟩

theorem exists_loggedBy {settings : Settings} {catalogue : Catalogue}
    (created : Duel.create settings catalogue = .ok start)
    (reaches : ReflTransGen Change start duel) : ∃ log, duel.LoggedBy log := by
  obtain ⟨bare, begun, quiets⟩ := create_quiet created
  exact exists_loggedBy_of_bare begun ((Shift.changes (Quiet.shifts quiets)).trans reaches)

/-- The weapon slot names a weapon of its player that is in play. -/
theorem LoggedBy.weapon_posted {player : Player} {id : EntityId} (logged : duel.LoggedBy log)
    (armed : duel.weapon player = some id) :
    duel.table.post? id = some ⟨player, .weapon, .play⟩ :=
  (logged.posts id).trans ((logged.armed player id).mp armed).2

/-! ## Who is in a slot -/

/-- A slot that is not as it was at the very beginning names an entity of its kind. -/
def SlotsFit (duel : Duel) : Prop :=
  ∀ player slot id, (duel.table.slots player).holder? slot = some id →
    id.isPlayer = true ∨ ∃ post, duel.table.post? id = some post ∧ post.kind = slot

theorem SlotsFit.brings {arrival : Option Arrival} (fit : before.SlotsFit)
    (sound : before.WellPlaced) (brings : Brings before arrival after) : after.SlotsFit := by
  intro player slot other holds
  -- Leaving a zone only empties slots, and nobody changes its kind.
  have stays {id : EntityId} {entity : Entity} (goal : ZoneKind)
      (known : before.entity? id = some entity)
      (kept : ((before.leaveZone id goal).table.slots player).holder? slot = some other) :
      (before.table.slots player).holder? slot = some other := by
    rw [holder?_leaveZone sound.placed known goal] at kept
    split at kept
    · cases kept
    · exact kept
  have moved {id : EntityId} {entity : Entity} {post : Post}
      (known : before.entity? id = some entity) (kind : post.kind = entity.kind)
      (posts : after.table.post? other =
        if other = id then some post else before.table.post? other)
      (held : (before.table.slots player).holder? slot = some other) :
      other.isPlayer = true ∨ ∃ post, after.table.post? other = some post ∧ post.kind = slot := by
    refine (fit player slot other held).imp_right ?_
    rintro ⟨old, posted, sort⟩
    rw [posts]
    split
    next here =>
      rw [here, post?_of_entity? known] at posted
      cases posted
      exact ⟨post, rfl, kind.trans sort⟩
    next => exact ⟨old, posted, sort⟩
  cases brings with
  | @move id entity goal placement known allowed room =>
      have posts : (before.relocate id entity goal placement).table.post? other = _ :=
        post?_relocate placement sound known room
      rw [holder?_relocate placement allowed] at holds
      split at holds
      next fills =>
        cases holds
        exact .inr ⟨_, posts.trans (if_pos rfl), fills.2.1.symm⟩
      next => exact moved known rfl posts (stays goal known holds)
  | @handOver id entity owner known =>
      exact moved known rfl (post?_handOver owner sound known) (stays .unplaced known holds)
  | create owner card kind =>
      refine (fit player slot other holds).imp_right ?_
      rintro ⟨post, posted, sort⟩
      rw [post?_create, if_neg]
      · exact ⟨post, posted, sort⟩
      · rintro rfl
        cases posted.symm.trans before.post?_nextId
  | nobody change posts slots =>
      rw [slots] at holds
      rw [posts]
      exact fit player slot other holds

/-- Whoever is in the slot of a hero and is known is a hero. -/
theorem SlotsFit.hero_kind {player : Player} {post : Post} (fit : duel.SlotsFit)
    (posted : duel.table.post? (duel.hero player) = some post) : post.kind = .hero := by
  rcases fit player .hero (duel.hero player) rfl with handle | ⟨same, posted', kind⟩
  · obtain ⟨entity, known, -⟩ := exists_of_post? posted
    cases (Arena.get?_of_isPlayer duel.arena handle).symm.trans known
  · cases posted.symm.trans posted'
    exact kind

theorem slotsFit_of_reaches {settings : Settings} {catalogue : Catalogue}
    (created : Duel.create settings catalogue = .ok start)
    (reaches : ReflTransGen Change start duel) : duel.SlotsFit := by
  obtain ⟨bare, begun, quiets⟩ := create_quiet created
  have all := (Shift.changes (Quiet.shifts quiets)).trans reaches
  clear reaches
  induction all with
  | refl =>
      intro player slot id holds
      obtain ⟨first, dice, zero, one, rfl⟩ := bare_eq begun
      left
      cases player <;> cases slot <;> cases holds <;> rfl
  | tail reached change ih =>
      have sound := Change.wellPlaced_of_reaches reached (bare_wellPlaced begun)
      obtain ⟨arrival, brings⟩ := change.brings sound
      exact ih.brings sound brings

end Duel

end CardDuel
