import CardDuel.Proofs.Burials
import CardDuel.Proofs.Interpretation

/-!
# Successors

A minion may leave a token behind: a deathrattle that summons in place puts it where the
minion stood.  That place was counted on the field before the dead left it, and the token
finds it on the field that they have left.  So the token comes right behind as many
survivors as minions stood to the left of the dead one, those included that died
themselves: for each of these it goes one survivor too far to the right.
-/

namespace CardDuel

open Relation

/-! ## Rows of entities -/

/-- Whether the first of two entities stands in a row to the left of the second. -/
def Precedes (row : List EntityId) (first second : EntityId) : Prop :=
  [first, second].Sublist row

instance (row : List EntityId) (first second : EntityId) : Decidable (Precedes row first second) :=
  inferInstanceAs (Decidable (List.Sublist _ _))

section Rows

variable {left right row : List EntityId} {id other token : EntityId} {stays : EntityId → Bool}

theorem precedes_iff_mem_left (nodup : (left ++ id :: right).Nodup) :
    Precedes (left ++ id :: right) other id ↔ other ∈ left := by
  obtain ⟨fresh, -⟩ := List.nodup_cons.mp (List.nodup_middle.mp nodup)
  obtain ⟨notLeft, notRight⟩ := not_or.mp (List.mem_append.not.mp fresh)
  constructor
  · intro precedes
    obtain ⟨first, second, whole, inLeft, inRight⟩ := List.sublist_append_iff.mp precedes
    rcases List.append_eq_cons_iff.mp whole.symm with ⟨rfl, rfl⟩ | ⟨rest, rfl, -⟩
    · -- Both stand from the entity on, which is there only once.
      rcases List.cons_sublist_cons'.mp inRight with later | ⟨-, later⟩
      · exact absurd (later.subset (by simp)) notRight
      · exact absurd (later.subset (by simp)) notRight
    · exact inLeft.subset List.mem_cons_self
  · intro member
    exact (List.singleton_sublist.mpr member).append (List.singleton_sublist.mpr List.mem_cons_self)

theorem precedes_iff_mem_right (nodup : (left ++ id :: right).Nodup) :
    Precedes (left ++ id :: right) id other ↔ other ∈ right := by
  have mirrored : (right.reverse ++ id :: left.reverse).Nodup := by
    have reversed := List.nodup_reverse.mpr nodup
    rwa [List.reverse_append, List.reverse_cons, List.append_assoc] at reversed
  have turned : Precedes (left ++ id :: right) id other ↔
      Precedes (right.reverse ++ id :: left.reverse) other id := by
    unfold Precedes
    rw [← List.reverse_sublist]
    simp
  exact turned.trans ((precedes_iff_mem_left mirrored).trans List.mem_reverse)

/-- Whoever is inserted at a place, or at the end if there are not that many, comes right behind
that many. -/
theorem insertIdx_min (row : List EntityId) (place : Nat) (token : EntityId) :
    row.insertIdx (min place row.length) token = row.take place ++ token :: row.drop place := by
  induction row generalizing place with
  | nil => simp
  | cons first row ih =>
      cases place with
      | zero => simp
      | succ place => simp [Nat.succ_min_succ, ih]

/-- Nobody in a row is left when some drop off its head. -/
theorem subset_drop_iff (nodup : row.Nodup) (count : Nat) :
    row ⊆ row.drop count ↔ count = 0 ∨ row = [] := by
  constructor
  · intro subset
    cases row with
    | nil => exact .inr rfl
    | cons first row =>
        cases count with
        | zero => exact .inl rfl
        | succ count =>
            have later : first ∈ row := List.mem_of_mem_drop (subset List.mem_cons_self)
            exact absurd later (List.nodup_cons.mp nodup).1
  · rintro (rfl | rfl)
    · rw [List.drop_zero]
      exact List.Subset.refl row
    · exact List.nil_subset _

/-- A row from which some have gone, with a token at the place that the entity had before. -/
def withToken (left right : List EntityId) (stays : EntityId → Bool) (token : EntityId) :
    List EntityId :=
  let rest := (left ++ right).filter stays
  rest.insertIdx (min left.length rest.length) token

/-- How many of a row have gone. -/
def departures (row : List EntityId) (stays : EntityId → Bool) : Nat :=
  row.length - (row.filter stays).length

theorem departures_eq_zero_iff : departures row stays = 0 ↔ ∀ other ∈ row, stays other = true := by
  have shorter : (row.filter stays).length ≤ row.length := List.length_filter_le stays row
  unfold departures
  rw [← List.length_filter_eq_length_iff]
  omega

/-- The token stands behind as many of those to the right of its place as have gone from its
left. -/
theorem withToken_eq : withToken left right stays token =
    (left.filter stays ++ (right.filter stays).take (departures left stays)) ++
      token :: (right.filter stays).drop (departures left stays) := by
  have shorter : (left.filter stays).length ≤ left.length := List.length_filter_le stays left
  unfold withToken
  dsimp only
  rw [insertIdx_min, List.filter_append, List.take_append, List.drop_append,
    List.take_of_length_le shorter, List.drop_eq_nil_of_le shorter, List.nil_append]
  rfl

theorem nodup_withToken (nodup : (left ++ id :: right).Nodup)
    (fresh : token ∉ (left ++ right).filter stays) : (withToken left right stays token).Nodup := by
  have apart : ((left ++ right).filter stays).Nodup :=
    (List.nodup_cons.mp (List.nodup_middle.mp nodup)).2.filter stays
  have permuted := List.perm_insertIdx token ((left ++ right).filter stays)
    (Nat.min_le_right left.length ((left ++ right).filter stays).length)
  exact permuted.nodup_iff.mpr (List.nodup_cons.mpr ⟨fresh, apart⟩)

theorem precedes_withToken (nodup : (left ++ id :: right).Nodup)
    (fresh : token ∉ (left ++ right).filter stays) (stayed : other ∈ (left ++ right).filter stays)
    (precedes : Precedes (left ++ id :: right) other id) :
    Precedes (withToken left right stays token) other token := by
  have apart := nodup_withToken nodup fresh
  have stood := (precedes_iff_mem_left nodup).mp precedes
  rw [withToken_eq] at apart ⊢
  refine (precedes_iff_mem_left apart).mpr (List.mem_append_left _ ?_)
  exact List.mem_filter.mpr ⟨stood, (List.mem_filter.mp stayed).2⟩

/-- Whoever stays to the right of the place stands to the right of the token if nobody has gone from
its left, and otherwise only if nobody stays to the right. -/
theorem withToken_precedes_iff (nodup : (left ++ id :: right).Nodup)
    (fresh : token ∉ (left ++ right).filter stays) :
    (∀ other ∈ (left ++ right).filter stays, Precedes (left ++ id :: right) id other →
        Precedes (withToken left right stays token) token other) ↔
      (∀ other, Precedes (left ++ id :: right) other id → other ∈ (left ++ right).filter stays) ∨
        ∀ other, Precedes (left ++ id :: right) id other →
          other ∉ (left ++ right).filter stays := by
  have apart := nodup_withToken nodup fresh
  have rightNodup : (right.filter stays).Nodup :=
    ((List.nodup_cons.mp (List.nodup_append.mp nodup).2.1).2).filter stays
  have allLeft : (∀ other, other ∈ left → other ∈ (left ++ right).filter stays) ↔
      departures left stays = 0 := by
    rw [departures_eq_zero_iff]
    refine forall₂_congr fun other stood => ?_
    rw [List.mem_filter, and_iff_right (List.mem_append_left right stood)]
  have noneRight : (∀ other, other ∈ right → other ∉ (left ++ right).filter stays) ↔
      right.filter stays = [] := by
    rw [List.filter_eq_nil_iff]
    refine forall₂_congr fun other stood => not_congr ?_
    rw [List.mem_filter, and_iff_right (List.mem_append_right left stood)]
  rw [withToken_eq] at apart ⊢
  simp only [precedes_iff_mem_left nodup, precedes_iff_mem_right nodup,
    precedes_iff_mem_right apart]
  rw [allLeft, noneRight, ← subset_drop_iff rightNodup]
  constructor
  · intro behind other member
    obtain ⟨stood, stayed⟩ := List.mem_filter.mp member
    exact behind other (List.mem_filter.mpr ⟨List.mem_append_right left stood, stayed⟩) stood
  · intro subset other stayed stood
    exact subset (List.mem_filter.mpr ⟨stood, (List.mem_filter.mp stayed).2⟩)

end Rows

/-! ## A summon -/

/-- Whether a code is that of a minion. -/
def Catalogue.NamesMinion (catalogue : Catalogue) (code : String) : Prop :=
  ∃ named card, catalogue.cardByCode? code = some named ∧
    catalogue.card? named.id = some card ∧ card.cardType = .minion

namespace Duel

/-- A new minion has come to a place of a player's field, and nobody else has come or gone. -/
structure Gains (before : Duel) (player : Player) (place : Nat) (token : EntityId) (after : Duel) :
    Prop where
  fresh : before.entity? token = none
  posted : after.table.post? token = some ⟨player, .minion, .play⟩
  field : after.field player =
    (before.field player).insertIdx (min place (before.field player).length) token

variable {before after : Duel} {player : Player} {place : Nat} {token : EntityId}

theorem Gains.congr {mid : Duel} (gains : before.Gains player place token mid)
    (table : after.table = mid.table) : before.Gains player place token after where
  fresh := gains.fresh
  posted := by
    rw [table]
    exact gains.posted
  field := (congrArg (fun table => Table.members table player .play) table).trans gains.field

theorem Gains.not_mem (gains : before.Gains player place token after) (sound : before.WellPlaced) :
    token ∉ before.field player := fun member => by
  obtain ⟨held, known, -⟩ := exists_of_post? ((sound.mem_field_iff player token).mp member)
  cases gains.fresh.symm.trans known

/-- Who is in no zone yet and is moved to a place of the field. -/
theorem gains_relocate {entity : Entity} (sound : after.WellPlaced)
    (known : after.entity? token = some entity) (kind : entity.kind = .minion)
    (waits : entity.zone = .unplaced) (room : after.zones.isFull entity.owner .play = false)
    (fresh : before.entity? token = none)
    (field : before.field entity.owner = after.field entity.owner) :
    before.Gains entity.owner place token
      (after.relocate token entity .play (.index place)) := by
  have open' : usesSlot entity.kind .play = true ∨ entity.zone = .play ∨
      after.zones.isFull entity.owner .play = false := .inr (.inr room)
  have noSlot : usesSlot entity.kind .play = false := by
    rw [kind]
    rfl
  have away : token ∉ after.field entity.owner := fun member => by
    have zone := sound.zone_of_mem member (post?_of_entity? known)
    cases waits.symm.trans zone
  refine ⟨fresh, ?_, ?_⟩
  · rw [post?_relocate _ sound known open', if_pos rfl, kind]
  · have moved := members_relocate (.index place) sound known open' entity.owner .play
    rw [if_pos ⟨⟨rfl, rfl⟩, by decide, noSlot⟩] at moved
    have absent : (after.members entity.owner .play).erase token = after.field entity.owner :=
      List.erase_of_not_mem away
    rw [absent] at moved
    rw [field]
    exact moved

end Duel

namespace Play

open Duel

variable {before duel : Duel} {id : EntityId} {entity : Entity} {context : EffectContext}
variable {code : String} {side : SummonSide} {scratch : Scratch} {place : Nat}

/-- What follows the arrival of a summoned minion leaves the table alone. -/
theorem yields_summon_room (sound : duel.WellPlaced) (known : duel.entity? id = some entity)
    (kind : entity.kind = .minion) (room : duel.zones.isFull entity.owner .play = false) :
    (summon id (some place)).Yields duel
      (fun _ after => after.table = (duel.relocate id entity .play (.index place)).table)
      fun _ => False := by
  have allowed : ¬ (entity.kind = .spell ∧ ZoneKind.play = .play) := by
    rw [kind]
    nofun
  let arrived := duel.relocate id entity .play (.index place)
  have posted : arrived.table.post? id = some ⟨entity.owner, entity.kind, .play⟩ :=
    (post?_relocate _ sound known (.inr (.inr room))).trans (if_pos rfl)
  obtain ⟨moved, there, -⟩ := exists_of_post? posted
  let settled := arrived.updateEntity id Entity.newcomer
  have kept : settled.table = arrived.table :=
    table_updateEntity arrived id Entity.Revision.newcomer.seat
  have still : settled.entity? id = some moved.newcomer := by
    change (arrived.updateEntity id Entity.newcomer).entity? id = _
    rw [entity?_updateEntity, if_pos rfl, there]
    rfl
  unfold summon placeMinion
  rw [yields_bind, yields_bind]
  refine yields_move_of_room known allowed (.inr (.inr room)) ?_
  rw [if_pos rfl, yields_bind, Play.change, yields_bind, yields_lookup]
  refine ⟨fun _ _ => ?_, fun unknown => ?_⟩
  · change Yields _ settled _ _
    rw [if_pos rfl, yields_bind, yields_lookup]
    refine ⟨fun _ _ => kept, fun unknown => ?_⟩
    cases still.symm.trans unknown
  · cases there.symm.trans unknown

/-- A summon of a minion that finds room brings a new one to the place that it aims at. -/
theorem yields_perform_summon (sound : duel.WellPlaced) (names : duel.catalogue.NamesMinion code)
    (room : duel.zones.isFull context.controller .play = false)
    (aims : duel.summonPlace? context side = some place) :
    (perform ⟨[], context, scratch⟩ (.summon code side)).Yields duel
      (fun answer after => answer = (.complete, ⟨[], context, scratch⟩) ∧
        ∃ token, duel.Gains context.controller place token after)
      fun _ => False := by
  obtain ⟨named, card, coded, listed, type⟩ := names
  have kind : EntityKind.ofCardType? card.cardType = some .minion := by
    rw [type]
    rfl
  let fresh := Entity.fresh context.controller card .minion
  let token := duel.arena.nextId
  let created : Duel := { duel with arena := duel.arena.push fresh }
  have soundCreated : created.WellPlaced := create_wellPlaced sound
  have known : created.entity? token = some fresh := by
    change (duel.arena.push fresh).get? token = _
    rw [Arena.get?_push, if_pos rfl]
  have unused : duel.entity? token = none := duel.arena.get?_nextId
  have looksUp : lookupCode code duel = .ok named.id duel := lookupCode_of_card coded
  have creates : create context.controller named.id duel = .ok token created :=
    create_of_listed listed kind
  have summons : (summon token (some place)).Yields created
      (fun _ after => after.table = (created.relocate token fresh .play (.index place)).table)
      fun _ => False := yields_summon_room soundCreated known rfl room
  have comes : duel.Gains context.controller place token
      (created.relocate token fresh .play (.index place)) :=
    gains_relocate soundCreated known rfl rfl room unused rfl
  rw [perform, act, yields_bind, yields_bind_of_ok looksUp, yields_bind, yields_get]
  change Yields (ite (duel.zones.isFull context.controller .play = true) _ _) _ _ _
  rw [if_neg (Bool.eq_false_iff.mp room)]
  refine (yields_bind_of_ok creates).mpr (yields_discard.mpr ?_)
  change Yields (summon token (duel.summonPlace? context side)) _ _ _
  rw [aims]
  exact summons.mono (fun _ after same => ⟨rfl, token, comes.congr same⟩) fun _ => False.elim

/-- Work that is nothing but a summon of a minion. -/
theorem yields_doWork_summon (sound : duel.WellPlaced) (running : duel.isOver = false)
    (names : duel.catalogue.NamesMinion code)
    (room : duel.zones.isFull context.controller .play = false)
    (aims : duel.summonPlace? context side = some place) :
    (doWork (.run (Resolution.ofEffects [.summon code side] context))).Yields duel
      (fun _ after => ∃ token, duel.Gains context.controller place token after)
      fun _ => False := by
  have whole : resolve (Resolution.ofEffects [.summon code side] context) duel =
      (interpretAll .onEntry context [[.summon code side]] Scratch.initial >>= conclude context)
        duel := resolve_eq running
  have summons : (perform ⟨[], context, Scratch.initial⟩ (.summon code side)).Yields duel _ _ :=
    yields_perform_summon sound names room aims
  rw [doWork, yields_discard]
  unfold Yields
  rw [whole]
  change Yields _ _ _ _
  rw [interpretAll_leaf rfl, yields_bind, yields_bind]
  refine summons.mono (fun answer after gains => ?_) fun _ => False.elim
  obtain ⟨rfl, token, gains⟩ := gains
  rw [yields_bind, yields_modify]
  dsimp only
  rw [interpretAll_nil_cons]
  exact ⟨token, gains.congr (Stir.auras after).table⟩

end Play

/-! ## The field at the end -/

namespace Duel

variable {start before mid now : Duel} {player : Player} {place : Nat} {id : EntityId}
variable {entity : Entity} {code : String}

/-- A dead minion at a place of a field, whose deathrattle is nothing but a summon in its place. -/
structure Bequeaths (before : Duel) (player : Player) (place : Nat) (id : EntityId)
    (entity : Entity) (code : String) : Prop where
  stands : (before.field player)[place]? = some id
  known : before.entity? id = some entity
  dead : entity.isDead = true
  words : before.lastWords entity = [.summon code .inPlace]
  names : before.catalogue.NamesMinion code

/-- A later moment, at which the field and the record of where a minion last stood are still the
same and the field has room. -/
structure Rests (mid : Duel) (player : Player) (id : EntityId) (now : Duel) : Prop where
  reaches : ReflTransGen Change mid now
  running : now.isOver = false
  field : now.field player = mid.field player
  recorded : (now.entity? id).map Entity.lastBoardPosition =
    (mid.entity? id).map Entity.lastBoardPosition
  room : now.zones.isFull player .play = false

theorem Bequeaths.isDead (bequeaths : before.Bequeaths player place id entity code) :
    before.isDead id = true := by
  unfold Duel.isDead
  rw [bequeaths.known]
  exact bequeaths.dead

theorem Bequeaths.mem_fallen (bequeaths : before.Bequeaths player place id entity code) :
    id ∈ before.fallen :=
  mem_fallen_iff.mpr
    ⟨bequeaths.isDead, player, .inl (List.mem_of_getElem? bequeaths.stands)⟩

theorem Bequeaths.exists_sides (bequeaths : before.Bequeaths player place id entity code) :
    ∃ left right, before.field player = left ++ id :: right ∧ left.length = place := by
  obtain ⟨small, here⟩ := List.getElem?_eq_some_iff.mp bequeaths.stands
  refine ⟨(before.field player).take place, (before.field player).drop (place + 1), ?_, ?_⟩
  · rw [← here, ← List.drop_eq_getElem_cons small, List.take_append_drop]
  · exact List.length_take_of_le (Nat.le_of_lt small)

theorem Rests.reaches_of_pass (rests : mid.Rests player id now)
    (pass : Play.processDeaths before = .ok () mid) : ReflTransGen Change before now := by
  have passes : Play.Follows Change Play.processDeaths := Play.follows_processDeaths
  exact (passes.ensures.of_ok pass).trans rests.reaches

section Hatching

variable {settings : Settings} {catalogue : Catalogue}

/-- The deathrattle puts a token at the place where the minion stood before the pass, counted among
those whom the pass has left. -/
theorem Bequeaths.exists_gains (bequeaths : before.Bequeaths player place id entity code)
    (created : Duel.create settings catalogue = .ok start)
    (reaches : ReflTransGen Change start before)
    (pass : Play.processDeaths before = .ok () mid) (goesOn : mid.isOver = false)
    (rests : mid.Rests player id now) :
    ∃ token after, Play.doWork (.run (before.rattle id entity)) now = .ok () after ∧
      now.Gains player place token after := by
  obtain ⟨sound, -⟩ := sound_of_reaches created reaches
  have reaps := reaps_of_pass created reaches pass goesOn
  have later := rests.reaches_of_pass pass
  have posted := (sound.mem_field_iff player id).mp (List.mem_of_getElem? bequeaths.stands)
  have owner : entity.owner = player := by
    rw [post?_of_entity? bequeaths.known] at posted
    exact congrArg Post.owner (Option.some.inj posted)
  have aims : now.summonPlace? ⟨player, id, none, none⟩ .inPlace = some place := by
    change (now.entity? id).map Entity.lastBoardPosition = some place
    rw [rests.recorded, reaps.places player place id bequeaths.stands bequeaths.isDead]
  have names : now.catalogue.NamesMinion code := by
    rw [(Change.fixed_of_reaches later).2]
    exact bequeaths.names
  obtain ⟨⟨⟩, after, ran, token, gains⟩ :=
    (Play.yields_doWork_summon (Change.wellPlaced_of_reaches later sound) rests.running names
      rests.room aims).exists_ok
  refine ⟨token, after, ?_, gains⟩
  unfold rattle
  rw [bequeaths.words, owner]
  exact ran

/-- A deathrattle that summons in the place of a dead minion keeps the token to the right of every
survivor that stood to the left.  It keeps the token to the left of every survivor that stood to the
right exactly if nobody to the left died in the same pass, or nobody to the right survived. -/
theorem summons_inPlace (created : Duel.create settings catalogue = .ok start)
    (reaches : ReflTransGen Change start before)
    (pass : Play.processDeaths before = .ok () mid) (goesOn : mid.isOver = false)
    (bequeaths : before.Bequeaths player place id entity code) (rests : mid.Rests player id now) :
    .run (before.rattle id entity) ∈ mid.agenda.reactions ∧
      ∃ token after, Play.doWork (.run (before.rattle id entity)) now = .ok () after ∧
        now.Gains player place token after ∧
        (∀ other ∈ mid.field player, Precedes (before.field player) other id →
          Precedes (after.field player) other token) ∧
        ((∀ other ∈ mid.field player, Precedes (before.field player) id other →
            Precedes (after.field player) token other) ↔
          (∀ other, Precedes (before.field player) other id → other ∈ mid.field player) ∨
            ∀ other, Precedes (before.field player) id other → other ∉ mid.field player) := by
  obtain ⟨sound, armed⟩ := sound_of_reaches created reaches
  have reaps := reaps_of_pass created reaches pass goesOn
  have soundNow : now.WellPlaced :=
    Change.wellPlaced_of_reaches (rests.reaches_of_pass pass) sound
  refine ⟨reaps.mem_reactions sound armed bequeaths.mem_fallen bequeaths.known ?_, ?_⟩
  · rw [bequeaths.words]
    exact List.cons_ne_nil _ _
  obtain ⟨token, after, ran, gains⟩ :=
    bequeaths.exists_gains created reaches pass goesOn rests
  refine ⟨token, after, ran, gains, ?_⟩
  obtain ⟨left, right, sides, rfl⟩ := bequeaths.exists_sides
  let stays (other : EntityId) : Bool := decide (other ∉ before.fallen)
  have nodup : (left ++ id :: right).Nodup := by
    rw [← sides]
    exact sound.placed.nodup player .play
  have rest : mid.field player = (left ++ right).filter stays := by
    have gone : ¬ stays id = true := by
      simp only [stays, decide_eq_true_eq, not_not]
      exact bequeaths.mem_fallen
    rw [reaps.fields, sides, List.filter_append, List.filter_cons_of_neg gone, List.filter_append]
  have final : after.field player = withToken left right stays token := by
    rw [gains.field, rests.field, rest]
    rfl
  have fresh : token ∉ (left ++ right).filter stays := by
    rw [← rest, ← rests.field]
    exact gains.not_mem soundNow
  rw [sides, final, rest]
  exact ⟨fun other stayed => precedes_withToken nodup fresh stayed,
    withToken_precedes_iff nodup fresh⟩

end Hatching

end Duel

/-! ## A token on the wrong side -/

/-- An egg leaves a chick in its place, a wall outlives a nova, and fodder does not. -/
def Catalogue.hatchery : Catalogue :=
  .ofEntries
    [⟨Card.hero ⟨1⟩ "HERO" "" .mage 30 "POWER", Behaviour.none⟩,
      ⟨Card.power ⟨2⟩ "POWER" "" 2, Behaviour.none⟩,
      ⟨Card.minion ⟨3⟩ "FODDER" "" 0 1 1, Behaviour.none⟩,
      ⟨Card.minion ⟨4⟩ "EGG" "" 0 0 1,
        { Behaviour.none with deathrattle := [.summon "CHICK" .inPlace] }⟩,
      ⟨Card.minion ⟨5⟩ "WALL" "" 0 0 5, Behaviour.none⟩,
      ⟨Card.spell ⟨6⟩ "NOVA" "" 0, { Behaviour.none with effects := [.damage .minions 1 true] }⟩,
      ⟨Card.minion ⟨7⟩ "CHICK" "" 1 1 1, Behaviour.none⟩]
    [(.mage, ⟨1⟩)] (by decide) (by decide)

/-- Player zero draws the nova, the wall, the egg and the fodder. -/
def Settings.hatchery : Settings :=
  { Settings.standard with
    decks := [["NOVA", "WALL", "EGG", "FODDER"], []]
    shuffleDecks := false }

/-- The effects of the nova. -/
def Play.nova : Play Outcome :=
  resolve (Resolution.ofEffects [.damage .minions 1 true] ⟨.zero, ⟨4⟩, none, none⟩)

namespace Duel

/-- Whether the egg is dead at a place of its field, and the match goes on after the pass with room
for a chick. -/
def hatches (before : Duel) (place : Nat) : Bool :=
  let mid := Play.processDeaths.left before
  (before.field .zero)[place]? = some ⟨6⟩ && !before.isOver && !mid.isOver &&
    !mid.zones.isFull .zero .play &&
      (before.entity? ⟨6⟩).any fun egg => egg.isDead &&
        match before.lastWords egg with
        | [.summon code .inPlace] => code = "CHICK"
        | _ => false

/-- A duel in which the nova has killed the egg, which then leaves a chick. -/
theorem exists_hatching (calls : List Call) (place : Nat) (row rest : List EntityId)
    (comes : (outcome? Settings.hatchery Catalogue.hatchery 100 calls).any (fun duel =>
      let before := Play.nova.left duel
      before.hatches place && before.field .zero = row &&
        (Play.processDeaths.left before).field .zero = rest) = true) :
    ∃ start before mid egg, Duel.create Settings.hatchery Catalogue.hatchery = .ok start ∧
      ReflTransGen Change start before ∧ Play.processDeaths before = .ok () mid ∧
        mid.isOver = false ∧ before.Bequeaths .zero place ⟨6⟩ egg "CHICK" ∧
          mid.Rests .zero ⟨6⟩ mid ∧ before.field .zero = row ∧ mid.field .zero = rest := by
  obtain ⟨start, duel, created, runs, holds⟩ := exists_of_outcome _ _ _ _ _ comes
  let before := Play.nova.left duel
  have strikes : Play.Follows Change Play.nova := Play.follows_resolve (Resolution.fits_true _)
  have reaches : ReflTransGen Change start before :=
    (reaches_of_runs runs).trans (strikes duel).reaches
  unfold hatches at holds
  simp only [Bool.and_eq_true, Bool.not_eq_true', decide_eq_true_eq, Option.any_eq_true] at holds
  obtain ⟨⟨⟨⟨⟨⟨stands, running⟩, goesOn⟩, room⟩, egg, known, dead, words⟩, stood⟩, stayed⟩ := holds
  obtain ⟨mid, ran⟩ : ∃ mid, Play.processDeaths before = .ok () mid := by
    obtain ⟨_, ran, -⟩ := exists_pass created reaches running
    exact ⟨_, ran⟩
  have left : Play.processDeaths.left before = mid := by
    unfold Play.left
    rw [ran]
  change (Play.processDeaths.left before).isOver = false at goesOn
  change (Play.processDeaths.left before).zones.isFull .zero .play = false at room
  change (Play.processDeaths.left before).field .zero = rest at stayed
  rw [left] at goesOn room stayed
  have bequeathed : before.lastWords egg = [.summon "CHICK" .inPlace] := by
    split at words
    next code words' => rw [words', of_decide_eq_true words]
    next => cases words
  have names : before.catalogue.NamesMinion "CHICK" := by
    rw [(Change.fixed_of_reaches reaches).2, (fixed_of_created created).2]
    exact ⟨_, _, rfl, rfl, rfl⟩
  exact ⟨start, before, mid, egg, created, reaches, ran, goesOn,
    ⟨stands, known, dead, bequeathed, names⟩, ⟨.refl, goesOn, rfl, rfl, room⟩, stood, stayed⟩

/-- Without the fodder the chick comes out to the left of the wall, which stood to the right of its
egg. -/
theorem summons_inPlace_hatchery :
    ∃ start before mid egg, Duel.create Settings.hatchery Catalogue.hatchery = .ok start ∧
      ReflTransGen Change start before ∧ Play.processDeaths before = .ok () mid ∧
        mid.isOver = false ∧ before.Bequeaths .zero 0 ⟨6⟩ egg "CHICK" ∧
          mid.Rests .zero ⟨6⟩ mid ∧ mid.field .zero = [⟨5⟩] ∧
            .run (before.rattle ⟨6⟩ egg) ∈ mid.agenda.reactions ∧
              ∃ token after, Play.doWork (.run (before.rattle ⟨6⟩ egg)) mid = .ok () after ∧
                Precedes (after.field .zero) token ⟨5⟩ := by
  obtain ⟨start, before, mid, egg, created, reaches, pass, goesOn, bequeaths, rests, row, rest⟩ :=
    exists_hatching [.start, .take .zero (.play ⟨6⟩), .take .zero (.play ⟨5⟩)] 0 [⟨6⟩, ⟨5⟩] [⟨5⟩]
      (by decide +kernel)
  obtain ⟨queued, token, after, ran, -, -, rightOf⟩ :=
    summons_inPlace created reaches pass goesOn bequeaths rests
  refine ⟨start, before, mid, egg, created, reaches, pass, goesOn, bequeaths, rests, rest, queued,
    token, after, ran, rightOf.mpr (.inl fun other precedes => ?_) ⟨5⟩ ?_ ?_⟩
  · -- Nobody stands to the left of the egg.
    rw [row] at precedes
    have alone : ([] ++ ⟨6⟩ :: [⟨5⟩] : List EntityId).Nodup := by decide
    cases (precedes_iff_mem_left alone).mp precedes
  · rw [rest]
    exact List.mem_singleton_self _
  · rw [row]
    decide

/-- When the nova kills the fodder to the left of the egg too, the chick comes out to the right of
the wall. -/
theorem not_inPlace_hatchery :
    ∃ start before mid egg token after,
      Duel.create Settings.hatchery Catalogue.hatchery = .ok start ∧
        ReflTransGen Change start before ∧ Play.processDeaths before = .ok () mid ∧
          mid.isOver = false ∧ before.Bequeaths .zero 1 ⟨6⟩ egg "CHICK" ∧
            mid.Rests .zero ⟨6⟩ mid ∧
              Play.doWork (.run (before.rattle ⟨6⟩ egg)) mid = .ok () after ∧
                mid.Gains .zero 1 token after ∧ ⟨5⟩ ∈ mid.field .zero ∧
                  Precedes (before.field .zero) ⟨6⟩ ⟨5⟩ ∧
                    ¬ Precedes (after.field .zero) token ⟨5⟩ := by
  obtain ⟨start, before, mid, egg, created, reaches, pass, goesOn, bequeaths, rests, row, rest⟩ :=
    exists_hatching
      [.start, .take .zero (.play ⟨7⟩), .take .zero (.play ⟨6⟩), .take .zero (.play ⟨5⟩)] 1
      [⟨7⟩, ⟨6⟩, ⟨5⟩] [⟨5⟩] (by decide +kernel)
  obtain ⟨token, after, ran, gains⟩ := bequeaths.exists_gains created reaches pass goesOn rests
  have final : after.field .zero = [⟨5⟩, token] := by
    rw [gains.field, rest]
    rfl
  refine ⟨start, before, mid, egg, token, after, created, reaches, pass, goesOn, bequeaths, rests,
    ran, gains, ?_, ?_, ?_⟩
  · rw [rest]
    exact List.mem_singleton_self _
  · rw [row]
    decide
  · intro precedes
    obtain ⟨sound, -⟩ := sound_of_reaches created (reaches.trans (rests.reaches_of_pass pass))
    have fresh := gains.not_mem sound
    rw [rest] at fresh
    have apart : ([⟨5⟩] ++ token :: [] : List EntityId).Nodup :=
      List.nodup_middle.mpr (List.nodup_cons.mpr ⟨fresh, List.nodup_singleton _⟩)
    rw [final] at precedes
    cases (precedes_iff_mem_right apart).mp precedes

end Duel

end CardDuel
