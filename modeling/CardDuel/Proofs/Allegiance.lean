import CardDuel.Proofs.Fates
import CardDuel.Proofs.Heroes
import CardDuel.Proofs.Making
import CardDuel.Proofs.Steering

/-!
# Cards that nobody names yet

A card that a list of effects has made is set aside, and until it is placed nothing but the list
refers to it: it is in no slot, no choice offers it, and neither scheduled work nor the context of
the list names it, since all of them name entities that were there before.  So no move but its
placement gets hold of it.  Handing it over is then no danger to the heroes: each slot of a hero
keeps to an entity of its player.
-/

namespace CardDuel

open Relation

/-- Whom an event names. -/
def Event.names (event : Event) : List EntityId :=
  event.source.toList ++ event.target.toList

/-- Whom the context of a list of effects names. -/
def EffectContext.names (context : EffectContext) : List EntityId :=
  context.source :: (context.target.toList ++ (context.event.map Event.names).getD [])

/-- Whether scheduled work names known entities only, and whether a list starts from scratch. -/
def Work.Known (duel : Duel) : Work → Prop
  | .run resolution => resolution.scratch = Scratch.initial ∧
      ∀ id ∈ resolution.context.names, duel.entity? id ≠ none
  | .trigger _ event | .announce event => ∀ id ∈ event.names, duel.entity? id ≠ none
  | .bury _ => True

namespace Duel

variable {duel before after : Duel} {held : Option Resolution} {made named ids : List EntityId}
variable {id : EntityId} {entity : Entity} {player : Player}

theorem Arisen.slotsFit (arisen : duel.Arisen) : duel.SlotsFit := by
  obtain ⟨_, _, _, created, reached⟩ := arisen
  exact slotsFit_of_reaches created reached

theorem entity?_ne_none_of_post? {post : Post} (posted : duel.table.post? id = some post) :
    duel.entity? id ≠ none := by
  obtain ⟨entity, known, -⟩ := exists_of_post? posted
  exact Option.ne_none_iff_exists'.mpr ⟨entity, known⟩

theorem workKnown_of_reaches {work : Work} (reaches : ReflTransGen Change before after)
    (known : work.Known before) : work.Known after := by
  have later {ids : List EntityId} (known : ∀ id ∈ ids, before.entity? id ≠ none) :
      ∀ id ∈ ids, after.entity? id ≠ none := fun id member =>
    Duel.known_of_reaches reaches (known id member)
  cases work with
  | run resolution => exact ⟨known.1, later known.2⟩
  | trigger | announce => exact later known
  | bury => trivial

/-! ## Whose the heroes are -/

/-- The slot of a hero names an entity of its player, unless it is as it was at the very
beginning. -/
def Loyal (duel : Duel) : Prop :=
  ∀ player, (duel.hero player).isPlayer = true ∨
    ∃ kind zone, duel.table.post? (duel.hero player) = some ⟨player, kind, zone⟩

/-- No known entity is in the slots of both heroes. -/
theorem Loyal.not_shared (loyal : duel.Loyal) (known : duel.entity? id ≠ none) :
    ¬ ∀ player, duel.hero player = id := by
  intro shared
  obtain ⟨entity, found⟩ := Option.ne_none_iff_exists'.mp known
  have owned (player : Player) : entity.owner = player := by
    have own := loyal player
    rw [shared player, isPlayer_of_entity? found, post?_of_entity? found] at own
    obtain absent | ⟨kind, zone, posted⟩ := own
    · cases absent
    · exact congrArg Post.owner (Option.some.inj posted)
  exact absurd ((owned .zero).symm.trans (owned .one)) (by decide)

theorem Loyal.of_table (loyal : before.Loyal) (table : after.table = before.table) :
    after.Loyal := by
  intro player
  have slots : after.hero player = before.hero player :=
    congrArg (fun table => (Table.slots table player).hero) table
  rw [slots, table]
  exact loyal player

/-- Nobody changes sides by moving. -/
theorem Loyal.relocate {goal : ZoneKind} (loyal : duel.Loyal) (placement : Placement)
    (sound : duel.WellPlaced) (known : duel.entity? id = some entity)
    (allowed : ¬ (entity.kind = .spell ∧ goal = .play))
    (room : usesSlot entity.kind goal = true ∨ entity.zone = goal ∨
      duel.zones.isFull entity.owner goal = false) :
    (duel.relocate id entity goal placement).Loyal := by
  intro player
  have posts (other : EntityId) : (duel.relocate id entity goal placement).table.post? other = _ :=
    post?_relocate placement sound known room
  rw [hero_relocate placement allowed]
  split
  next fills =>
    rw [posts, if_pos rfl, fills.1]
    exact .inr ⟨_, _, rfl⟩
  next =>
    rw [hero_leaveZone sound known]
    refine (loyal player).imp_right ?_
    rintro ⟨kind, zone, posted⟩
    rw [posts]
    split
    next here =>
      rw [here, post?_of_entity? known] at posted
      cases posted
      exact ⟨_, _, rfl⟩
    next => exact ⟨kind, zone, posted⟩

theorem Loyal.create {owner : Player} {card : Card} {kind : EntityKind} (loyal : duel.Loyal) :
    Loyal { duel with arena := duel.arena.push (Entity.fresh owner card kind) } := by
  intro player
  refine (loyal player).imp_right ?_
  rintro ⟨sort, zone, posted⟩
  refine ⟨sort, zone, post?_create.trans ((if_neg ?_).trans posted)⟩
  intro new
  rw [show duel.hero player = duel.arena.nextId from new, duel.post?_nextId] at posted
  cases posted

/-- Whoever is in no slot of a hero may change sides. -/
theorem Loyal.handOver (loyal : duel.Loyal) (sound : duel.WellPlaced)
    (known : duel.entity? id = some entity) (free : ∀ player, duel.hero player ≠ id)
    (owner : Player) :
    Loyal ((duel.leaveZone id .unplaced).updateEntity id fun entity =>
      { entity with owner := owner }) := by
  intro player
  have heroes : ((duel.leaveZone id .unplaced).updateEntity id fun entity : Entity =>
      { entity with owner := owner }).hero player = duel.hero player :=
    hero_leaveZone sound known .unplaced player
  rw [heroes, post?_handOver owner sound known, if_neg (free player)]
  exact loyal player

instance : Placing (Keeping fun duel => duel.WellPlaced ∧ duel.Loyal) where
  roll _ _ := fun ⟨sound, loyal⟩ => ⟨sound.congr rfl rfl, loyal⟩
  relocate _ _ _ _ placement known allowed room := fun ⟨sound, loyal⟩ =>
    ⟨relocate_wellPlaced placement sound known room,
      loyal.relocate placement sound known allowed room⟩
  create _ _ _ _ _ _ _ := fun ⟨sound, loyal⟩ => ⟨create_wellPlaced sound, loyal.create⟩

theorem loyal_of_created {settings : Settings} {catalogue : Catalogue}
    (created : Duel.create settings catalogue = .ok duel) : duel.Loyal := by
  obtain ⟨bare, begun, kept⟩ : ∃ bare, Duel.bare settings catalogue = .ok bare ∧
      ReflTransGen (Keeping fun duel => duel.WellPlaced ∧ duel.Loyal) bare duel :=
    exists_bare created
  have first : bare.Loyal := by
    obtain ⟨first, dice, zero, one, rfl⟩ := bare_eq begun
    intro player
    cases player <;> exact .inl rfl
  exact (keeping_of_reaches kept ⟨bare_wellPlaced begun, first⟩).2

/-! ## Cards under guard -/

/-- While a list waits or none does, made cards are under guard: they are different, set aside and in
no slot, and no choice offers them.  Whoever is named is known, and so is whoever scheduled work
names. -/
structure Guarded (held : Option Resolution) (made named : List EntityId) (duel : Duel) :
    Prop where
  arisen : duel.Arisen
  loyal : duel.Loyal
  waiting : duel.suspended = held
  aside : ∀ id ∈ made, ∃ owner kind, duel.table.post? id = some ⟨owner, kind, .setAside⟩
  unslotted : ∀ id ∈ made, ∀ player slot, (duel.table.slots player).holder? slot ≠ some id
  distinct : made.Nodup
  known : ∀ id ∈ named, duel.entity? id ≠ none
  offered : ∀ player choice, duel.choice? player = some choice → ∀ id ∈ choice.options,
    duel.entity? id ≠ none ∧ id ∉ made
  scheduled : duel.Schedules (Work.Known duel)

namespace Guarded

variable {fewer : List EntityId} {event : Event} {works : List Work}

section

variable (guarded : Guarded held made named duel)

include guarded

theorem naming (known : ∀ id ∈ ids, duel.entity? id ≠ none) : Guarded held made ids duel :=
  { guarded with known := known }

theorem name (known : ∀ id ∈ ids, duel.entity? id ≠ none) : Guarded held made (ids ++ named) duel :=
  guarded.naming (List.forall_mem_append.mpr ⟨known, guarded.known⟩)

theorem forget (fewer' : ids ⊆ named) : Guarded held made ids duel :=
  guarded.naming fun id member => guarded.known id (fewer' member)

/-- Fewer cards are under guard. -/
theorem release (sublist : fewer.Sublist made) : Guarded held fewer named duel :=
  { guarded with
    aside := fun id member => guarded.aside id (sublist.subset member)
    unslotted := fun id member => guarded.unslotted id (sublist.subset member)
    distinct := guarded.distinct.sublist sublist
    offered := fun player choice pending id member =>
      (guarded.offered player choice pending id member).imp_right fun apart made =>
        apart (sublist.subset made) }

theorem released : Guarded held [] [] duel :=
  (guarded.release (List.nil_sublist made)).forget (List.nil_subset named)

theorem made_known (member : id ∈ made) : duel.entity? id ≠ none := by
  obtain ⟨owner, kind, posted⟩ := guarded.aside id member
  exact entity?_ne_none_of_post? posted

theorem not_mem_of_unknown (unknown : duel.entity? id = none) : id ∉ made := fun member =>
  guarded.made_known member unknown

theorem not_mem_of_posted {post : Post} (posted : duel.table.post? id = some post)
    (away : post.zone ≠ .setAside) : id ∉ made := fun member => by
  obtain ⟨owner, kind, aside⟩ := guarded.aside id member
  cases posted.symm.trans aside
  exact away rfl

theorem not_mem_of_mem {zone : ZoneKind} (member : id ∈ duel.members player zone)
    (away : zone ≠ .setAside) : id ∉ made := by
  obtain ⟨kind, posted⟩ := guarded.arisen.sound.posted_of_mem member
  exact guarded.not_mem_of_posted posted away

theorem known_of_mem {zone : ZoneKind} (member : id ∈ duel.members player zone) :
    duel.entity? id ≠ none := by
  obtain ⟨kind, posted⟩ := guarded.arisen.sound.posted_of_mem member
  exact entity?_ne_none_of_post? posted

theorem not_mem_of_held {slot : EntityKind} (holds : (duel.table.slots player).holder? slot = some id) :
    id ∉ made := fun member =>
  guarded.unslotted id member player slot holds

end

/-- What a change has to leave alone. -/
theorem later (guarded : Guarded held made named before) (reaches : ReflTransGen Change before after)
    (loyal : after.Loyal) (suspended : after.suspended = before.suspended)
    (choices : after.choices = before.choices)
    (works : ∀ work ∈ after.agenda.toList, work ∈ before.agenda.toList ∨ work.Known after)
    (posts : ∀ id ∈ made, after.table.post? id = before.table.post? id)
    (slots : ∀ id ∈ made, ∀ player slot, (after.table.slots player).holder? slot = some id →
      (before.table.slots player).holder? slot = some id) : Guarded held made named after where
  arisen := guarded.arisen.later reaches
  loyal := loyal
  waiting := suspended.trans guarded.waiting
  aside id member := by
    rw [posts id member]
    exact guarded.aside id member
  unslotted id member player slot holds :=
    guarded.unslotted id member player slot (slots id member player slot holds)
  distinct := guarded.distinct
  known id member := known_of_reaches reaches (guarded.known id member)
  offered player choice pending id member := by
    unfold choice? at pending
    rw [choices] at pending
    exact (guarded.offered player choice pending id member).imp_left (known_of_reaches reaches)
  scheduled work scheduled := by
    rcases works work scheduled with old | known
    · exact workKnown_of_reaches reaches (guarded.scheduled work old)
    · exact known

/-- Where the table stays as it is, little is to be shown. -/
theorem of_table (guarded : Guarded held made named before) (change : Change before after)
    (table : after.table = before.table) (suspended : after.suspended = before.suspended)
    (choices : after.choices = before.choices)
    (works : ∀ work ∈ after.agenda.toList, work ∈ before.agenda.toList ∨ work.Known after) :
    Guarded held made named after :=
  guarded.later (.single change) (guarded.loyal.of_table table) suspended choices works
    (fun id _ => by rw [table]) fun id _ player slot holds => by rwa [table] at holds

theorem stir (guarded : Guarded held made named before) (stir : Stir before after)
    (works : ∀ work ∈ after.agenda.toList, work ∈ before.agenda.toList ∨ work.Known after) :
    Guarded held made named after :=
  guarded.of_table (.shift (.stir stir)) stir.table (congrArg Control.suspended stir.control)
    (congrArg Control.choices stir.control) works

/-- Only the table shifts. -/
theorem shift (guarded : Guarded held made named before) (shift : Shift before after)
    (agenda : after.agenda = before.agenda) (loyal : after.Loyal)
    (posts : ∀ id ∈ made, after.table.post? id = before.table.post? id)
    (slots : ∀ id ∈ made, ∀ player slot, (after.table.slots player).holder? slot = some id →
      (before.table.slots player).holder? slot = some id) : Guarded held made named after :=
  guarded.later (.single (.shift shift)) loyal (congrArg Control.suspended shift.control)
    (congrArg Control.choices shift.control) (fun _ scheduled => .inl (agenda ▸ scheduled))
    posts slots

theorem announce (guarded : Guarded held made named duel)
    (names : ∀ id ∈ event.names, duel.entity? id ≠ none) :
    Guarded held made named (duel.announce event) :=
  guarded.stir (.announce duel event) fun _ scheduled =>
    (Agenda.mem_toList_addReactions.mp scheduled).imp_right fun new => by
      obtain ⟨heard, -, rfl⟩ := List.mem_map.mp new
      exact names

theorem react {work : Work} (guarded : Guarded held made named duel) (known : work.Known duel) :
    Guarded held made named (duel.addReaction work) :=
  guarded.stir (.react duel work) fun other scheduled =>
    (Agenda.mem_toList_addReactions.mp scheduled).imp_right fun new => by
      rw [List.mem_singleton.mp new]
      exact workKnown_of_reaches (.single (.shift (.stir (.react duel work)))) known

theorem schedule (guarded : Guarded held made named duel)
    (known : ∀ work ∈ works, work.Known duel) :
    Guarded held made named { duel with agenda := duel.agenda.addPhases works } :=
  guarded.of_table (.schedule duel works) rfl rfl rfl fun work scheduled =>
    (Agenda.mem_toList_addPhases.mp scheduled).imp_right fun new =>
      workKnown_of_reaches (.single (.schedule duel works)) (known work new)

theorem choose (guarded : Guarded held made named duel) {choice : Option Choice}
    (offers : ∀ offered, choice = some offered → ∀ id ∈ offered.options,
      duel.entity? id ≠ none ∧ id ∉ made) :
    Guarded held made named (duel.setChoice player choice) :=
  { guarded with
    arisen := guarded.arisen.later (.single (.choose duel player choice))
    offered := fun other offered pending => by
      have set : (duel.setChoice player choice).choice? other =
          if other = player then choice else duel.choice? other := PerPlayer.get_set ..
      rw [set] at pending
      split at pending
      · exact offers offered pending
      · exact guarded.offered other offered pending }

/-- Once the match is over, nothing is left to guard. -/
theorem of_clear (guarded : Guarded held made named before) (change : Change before after)
    (table : after.table = before.table) (suspended : after.suspended = none)
    (choices : after.choices = PerPlayer.const none) (agenda : after.agenda = Agenda.empty) :
    Guarded none [] [] after where
  arisen := guarded.arisen.later (.single change)
  loyal := guarded.loyal.of_table table
  waiting := suspended
  aside _ := nofun
  unslotted _ := nofun
  distinct := List.nodup_nil
  known _ := nofun
  offered player choice pending := by
    rw [choice?, choices, PerPlayer.get_const] at pending
    cases pending
  scheduled work scheduled := by
    rw [agenda] at scheduled
    cases scheduled

/-! ### Moves -/

theorem relocate {goal : ZoneKind} (guarded : Guarded held made named duel)
    (placement : Placement) (apart : id ∉ made) (known : duel.entity? id = some entity)
    (allowed : ¬ (entity.kind = .spell ∧ goal = .play))
    (room : usesSlot entity.kind goal = true ∨ entity.zone = goal ∨
      duel.zones.isFull entity.owner goal = false) :
    Guarded held made named (duel.relocate id entity goal placement) := by
  have sound := guarded.arisen.sound
  refine guarded.shift (.relocate duel placement known allowed room)
    (agenda_relocate duel id entity goal placement)
    (guarded.loyal.relocate placement sound known allowed room) (fun other member => ?_)
    fun other member player slot holds => ?_
  · rw [post?_relocate placement sound known room, if_neg]
    rintro rfl
    exact apart member
  · rw [holder?_relocate placement allowed, holder?_leaveZone sound.placed known] at holds
    split at holds
    · cases holds
      exact absurd member apart
    split at holds
    · cases holds
    · exact holds

theorem create {owner : Player} {form : CardId} {card : Card} {kind : EntityKind}
    (guarded : Guarded held made named duel) (listed : duel.catalogue.card? form = some card)
    (instantiable : EntityKind.ofCardType? card.cardType = some kind) :
    Guarded held made named { duel with arena := duel.arena.push (Entity.fresh owner card kind) } :=
  guarded.shift (.create duel owner listed instantiable) rfl guarded.loyal.create
    (fun id member => post?_create.trans (if_neg fun new => by
      rw [new] at member
      exact guarded.made_known member duel.arena.get?_nextId))
    fun _ _ _ _ holds => holds

/-- Whoever is in no slot of a hero may be handed over. -/
theorem handOver (guarded : Guarded held made named duel) (apart : id ∉ made)
    (known : duel.entity? id = some entity) (free : ∀ player, duel.hero player ≠ id) {owner : Player}
    (other : entity.owner ≠ owner) :
    Guarded held made named ((duel.leaveZone id .unplaced).updateEntity id fun entity =>
      { entity with owner := owner }) := by
  have sound := guarded.arisen.sound
  refine guarded.shift (.handOver duel known other) (agenda_leaveZone duel id .unplaced)
    (guarded.loyal.handOver sound known free owner) (fun other member => ?_)
    fun other member player slot holds => ?_
  · rw [post?_handOver owner sound known, if_neg]
    rintro rfl
    exact apart member
  · have left : ((duel.leaveZone id .unplaced).table.slots player).holder? slot = some other :=
      holds
    rw [holder?_leaveZone sound.placed known] at left
    split at left
    · cases left
    · exact left

theorem shuffle {owner : Player} {zone : Zone} {shuffled : List EntityId}
    (guarded : Guarded held made named duel) (found : duel.zones.get? owner .deck = some zone)
    (reordered : shuffled.Perm zone.members) :
    Guarded held made named
      ({ duel with
        zones := duel.zones.set owner .deck { zone with members := shuffled } }.renumber
          owner .deck) :=
  have posts (id : EntityId) : (duel.refill owner .deck
      { zone with members := shuffled }).table.post? id = duel.table.post? id :=
    post?_shuffle guarded.arisen.sound found reordered
  guarded.shift (.shuffle duel owner found reordered) rfl
    (fun player => by
      refine (guarded.loyal player).imp_right fun ⟨kind, zone, posted⟩ => ⟨kind, zone, ?_⟩
      exact (posts _).trans posted)
    (fun id _ => posts id) fun _ _ _ _ holds => holds

/-- Cards that are made come under guard. -/
theorem creates {owner : Player} {cards : List CardId} (guarded : Guarded held made named before)
    (reaches : ReflTransGen Change before after) (creates : before.Creates owner cards ids after) :
    Guarded held (made ++ ids) named after := by
  have unmade {id : EntityId} (known : before.entity? id ≠ none) : id ∉ ids := fun new =>
    known (creates.fresh id new)
  have slots (player : Player) : after.table.slots player = before.table.slots player :=
    congrArg (fun players => (PerPlayer.get players player).slots) creates.players
  have old {id : EntityId} {post : Post} (posted : before.table.post? id = some post) :
      after.table.post? id = some post :=
    (creates.posts id (unmade (entity?_ne_none_of_post? posted))).trans posted
  have new (id : EntityId) (member : id ∈ ids) :
      ∃ kind, after.table.post? id = some ⟨owner, kind, .setAside⟩ := by
    refine creates.sound.posted_of_mem ?_
    rw [creates.members, if_pos ⟨rfl, rfl⟩]
    exact List.mem_append_right _ member
  constructor
  case arisen => exact guarded.arisen.later reaches
  case loyal =>
    intro player
    have hero : after.hero player = before.hero player := congrArg Slots.hero (slots player)
    rw [hero]
    exact (guarded.loyal player).imp_right fun ⟨kind, zone, posted⟩ => ⟨kind, zone, old posted⟩
  case waiting => exact (congrArg Control.suspended creates.control).trans guarded.waiting
  case aside =>
    intro id member
    rcases List.mem_append.mp member with here | there
    · obtain ⟨owner, kind, posted⟩ := guarded.aside id here
      exact ⟨owner, kind, old posted⟩
    · exact ⟨owner, new id there⟩
  case unslotted =>
    intro id member player slot holds
    rw [slots] at holds
    rcases List.mem_append.mp member with here | there
    · exact guarded.unslotted id here player slot holds
    · obtain ⟨kind, posted⟩ := new id there
      obtain ⟨entity, known, -⟩ := exists_of_post? posted
      obtain handle | ⟨post, before, -⟩ := guarded.arisen.slotsFit player slot id holds
      · cases handle.symm.trans (isPlayer_of_entity? known)
      · exact unmade (entity?_ne_none_of_post? before) there
  case distinct =>
    exact guarded.distinct.append creates.distinct fun id member => unmade (guarded.made_known member)
  case known => exact fun id member => known_of_reaches reaches (guarded.known id member)
  case offered =>
    intro player choice pending id member
    have same : after.choice? player = before.choice? player :=
      congrArg (fun control => control.choices.get player) creates.control
    obtain ⟨known, apart⟩ := guarded.offered player choice (same ▸ pending) id member
    exact ⟨known_of_reaches reaches known, by simp [apart, unmade known]⟩
  case scheduled =>
    intro work scheduled
    rw [creates.agenda] at scheduled
    exact workKnown_of_reaches reaches (guarded.scheduled work scheduled)

end Guarded

end Duel

end CardDuel
