import CardDuel.Proofs.Auras
import CardDuel.Proofs.Settlement

/-!
# Auras at hand-back

Under a catalogue without conditions the auras that an entity carries can be read off the table:
they are the total of the auras in play that reach it now.  A pass makes them so, and every call
of a match that has started ends with a round, moves nothing, or moves only standings.
-/

namespace CardDuel

open Relation

/-! ## Neighbours -/

namespace Duel

theorem mem_neighbours_iff {row : List EntityId} (nodup : row.Nodup) {id other : EntityId} :
    other ∈ neighbours row id ↔ ∃ place,
      row[place]? = some id ∧ row[place + 1]? = some other ∨
        row[place]? = some other ∧ row[place + 1]? = some id := by
  unfold neighbours
  split
  next missing =>
    have absent (place : Nat) : row[place]? ≠ some id := fun found => by
      have differs := List.findIdx?_eq_none_iff.mp missing id (List.mem_of_getElem? found)
      simp at differs
    simp [absent]
  next place found =>
    obtain ⟨bound, here, -⟩ := List.findIdx?_eq_some_iff_getElem.mp found
    have here : row[place]? = some id := by
      rw [List.getElem?_eq_getElem bound, eq_of_beq here]
    have unique {spot : Nat} (there : row[spot]? = some id) : spot = place :=
      ((List.getElem?_inj bound nodup).mp (here.trans there.symm)).symm
    rw [List.mem_append, Option.mem_toList]
    constructor
    · rintro (left | right)
      · split at left
        · cases left
        next inner =>
          have next : place - 1 + 1 = place := Nat.sub_add_cancel (Nat.pos_of_ne_zero inner)
          exact ⟨place - 1, .inr ⟨Option.mem_toList.mp left, by rw [next, here]⟩⟩
      · exact ⟨place, .inl ⟨here, right⟩⟩
    · rintro ⟨spot, ⟨there, right⟩ | ⟨left, there⟩⟩
      · rw [unique there] at right
        exact .inr right
      · rw [← unique there, if_neg (Nat.succ_ne_zero spot)]
        exact .inl (Option.mem_toList.mpr left)

theorem nodup_neighbours {row : List EntityId} (nodup : row.Nodup) (id : EntityId) :
    (neighbours row id).Nodup := by
  have single (found : Option EntityId) : found.toList.Nodup := by cases found <;> simp
  unfold neighbours
  split
  · exact List.nodup_nil
  next place found =>
    obtain ⟨bound, -⟩ := List.findIdx?_eq_some_iff_getElem.mp found
    split
    · exact single _
    · refine List.nodup_append.mpr ⟨single _, single _, ?_⟩
      rintro other left _ right rfl
      have same := (List.getElem?_inj (by omega) nodup).mp
        ((Option.mem_toList.mp left).trans (Option.mem_toList.mp right).symm)
      omega

/-! ## What the table offers -/

variable {duel before after : Duel} {player : Player} {id source : EntityId}

/-- Whether an entity is on the field of a player, its weapon or its hero. -/
def Stands (duel : Duel) (player : Player) (source : EntityId) : Prop :=
  source ∈ duel.field player ∨ duel.weapon player = some source ∨ source = duel.hero player

/-- Whether an entity is in play, is not silenced and has an aura. -/
def Projects (duel : Duel) (source : EntityId) (aura : Aura) : Prop :=
  ∃ entity, duel.entity? source = some entity ∧ entity.zone = .play ∧
    entity.tags.has .silenced = false ∧ (duel.behaviourOf entity).aura = some aura

/-- Whether an entity is in reach of a source on a player's side. -/
def InReach (duel : Duel) (player : Player) (source id : EntityId) : AuraReach → Prop
  | .field => id ∈ duel.field player
  | .fieldExceptSource => id ∈ duel.field player ∧ id ≠ source
  | .adjacent => ∃ place,
      (duel.field player)[place]? = some source ∧ (duel.field player)[place + 1]? = some id ∨
        (duel.field player)[place]? = some id ∧ (duel.field player)[place + 1]? = some source
  | .enemyField => id ∈ duel.field player.opponent
  | .allMinions => ∃ side, id ∈ duel.field side
  | .hand => id ∈ duel.hand player
  | .hero => id = duel.hero player
  | .weapon => duel.weapon player = some id

/-- Whether an offer is one that the table makes. -/
structure Makes (duel : Duel) (offer : Offer) : Prop where
  stands : duel.Stands offer.view.controller offer.view.source
  projects : duel.Projects offer.view.source offer.aura
  inReach : duel.InReach offer.view.controller offer.view.source offer.target offer.aura.reach

/-- Whether every entity carries the total of what the table offers it, each source of a side
counted once. -/
def UpToDate (duel : Duel) : Prop :=
  ∀ id entity, duel.entity? id = some entity →
    ∃ offers : List Offer, offers.Nodup ∧
      (∀ offer, offer ∈ offers ↔ duel.Makes offer ∧ offer.target = id) ∧
        entity.aura.Totals (offers.map fun offer => offer.aura.effect)

theorem mem_auraSources_iff : source ∈ duel.auraSources player ↔ duel.Stands player source := by
  simp [auraSources, Stands, Option.mem_toList]

theorem projected?_eq_some_iff {aura : Aura} :
    duel.projected? source = some aura ↔ duel.Projects source aura := by
  unfold projected? Projects
  cases duel.entity? source with
  | none => simp
  | some entity => simp [Entity.inPlay, and_comm, and_left_comm]

theorem mem_reached_iff (sound : duel.WellPlaced) {reach : AuraReach} :
    id ∈ duel.reached source player reach ↔ duel.InReach player source id reach := by
  cases reach with
  | fieldExceptSource => simp [reached, InReach]
  | adjacent => exact mem_neighbours_iff (sound.placed.nodup player .play)
  | allMinions =>
      refine List.mem_append.trans ⟨?_, ?_⟩
      · rintro (own | others)
        · exact ⟨player, own⟩
        · exact ⟨player.opponent, others⟩
      · rintro ⟨side, member⟩
        cases player <;> cases side <;> first | exact .inl member | exact .inr member
  | hero => exact List.mem_singleton
  | weapon => exact Option.mem_toList
  | _ => exact Iff.rfl

theorem nodup_reached (sound : duel.WellPlaced) (source : EntityId) (player : Player)
    (reach : AuraReach) : (duel.reached source player reach).Nodup := by
  have row (player : Player) : (duel.field player).Nodup := sound.placed.nodup player .play
  cases reach with
  | field => exact row player
  | fieldExceptSource => exact (row player).filter _
  | adjacent => exact nodup_neighbours (row player) source
  | enemyField => exact row player.opponent
  | allMinions => exact sound.nodup_fields player
  | hand => exact sound.placed.nodup player .hand
  | hero => exact List.nodup_singleton _
  | weapon =>
      unfold reached
      cases duel.weapon player <;> simp

theorem mem_offers_iff (sound : duel.WellPlaced) {offer : Offer} :
    offer ∈ duel.offers ↔ duel.Makes offer := by
  have one (player : Player) (source : EntityId) : offer ∈ duel.offersOf player source ↔
      offer.view = ⟨player, source⟩ ∧ duel.Projects source offer.aura ∧
        duel.InReach player source offer.target offer.aura.reach := by
    unfold offersOf
    simp only [← mem_reached_iff sound, ← projected?_eq_some_iff]
    cases duel.projected? source with
    | none => simp
    | some aura =>
        simp only [List.mem_map, Option.some.injEq]
        constructor
        · rintro ⟨id, reached, rfl⟩
          exact ⟨rfl, rfl, reached⟩
        · obtain ⟨view, _, id⟩ := offer
          rintro ⟨rfl, rfl, reached⟩
          exact ⟨id, reached, rfl⟩
  simp only [offers, List.mem_flatMap, one, mem_auraSources_iff]
  constructor
  · rintro ⟨player, -, source, stands, view, projects, reaches⟩
    obtain ⟨rfl, rfl⟩ := Viewpoint.mk.inj view.symm
    exact ⟨stands, projects, reaches⟩
  · rintro ⟨stands, projects, reaches⟩
    exact ⟨_, Player.mem_both _, _, stands, rfl, projects, reaches⟩

/-- Nobody stands in two places of one side. -/
theorem nodup_auraSources (sound : duel.WellPlaced) (armed : duel.Armed) (fits : duel.SlotsFit)
    (player : Player) : (duel.auraSources player).Nodup := by
  have single : (duel.weapon player).toList.Nodup := by cases duel.weapon player <;> simp
  unfold auraSources
  refine List.nodup_append.mpr ⟨List.nodup_append.mpr
    ⟨sound.placed.nodup player .play, single, ?_⟩, List.nodup_singleton _, ?_⟩
  · rintro id stands _ held rfl
    have posted := (sound.mem_field_iff player id).mp stands
    cases posted.symm.trans (armed player id (Option.mem_toList.mp held))
  · rintro id member _ last rfl
    rw [List.mem_singleton.mp last] at member
    rcases List.mem_append.mp member with stands | held
    · cases fits.hero_kind ((sound.mem_field_iff player _).mp stands)
    · cases fits.hero_kind (armed player _ (Option.mem_toList.mp held))

theorem nodup_offers (sound : duel.WellPlaced) (armed : duel.Armed) (fits : duel.SlotsFit) :
    duel.offers.Nodup := by
  have view {player : Player} {source : EntityId} {offer : Offer}
      (offered : offer ∈ duel.offersOf player source) : offer.view = ⟨player, source⟩ := by
    unfold offersOf at offered
    split at offered
    · cases offered
    · obtain ⟨id, -, rfl⟩ := List.mem_map.mp offered
      rfl
  have one (player : Player) (source : EntityId) : (duel.offersOf player source).Nodup := by
    unfold offersOf
    split
    · exact List.nodup_nil
    · exact (nodup_reached sound source player _).map fun _ _ same => congrArg Offer.target same
  unfold offers
  refine List.nodup_flatMap.mpr ⟨fun player _ => List.nodup_flatMap.mpr
    ⟨fun source _ => one player source, ?_⟩, ?_⟩
  · refine (nodup_auraSources sound armed fits player).imp fun {source other} apart => ?_
    intro offer here there
    exact apart (congrArg Viewpoint.source ((view here).symm.trans (view there)))
  · have players : Player.both.Nodup := by decide
    refine players.imp fun {player other} apart => ?_
    intro offer here there
    obtain ⟨source, -, here⟩ := List.mem_flatMap.mp here
    obtain ⟨another, -, there⟩ := List.mem_flatMap.mp there
    exact apart (congrArg Viewpoint.controller ((view here).symm.trans (view there)))

end Duel

/-- No aura of the catalogue has a condition. -/
def Catalogue.Unconditional (catalogue : Catalogue) : Prop :=
  ∀ entry ∈ catalogue.entries, ∀ aura, entry.behaviour.aura = some aura → aura.condition = none

namespace Duel

variable {start duel before after : Duel} {settings : Settings} {catalogue : Catalogue}

/-- A pass brings every entity up to date. -/
theorem upToDate_updateAuras (plain : duel.catalogue.Unconditional)
    (sound : duel.updateAuras.WellPlaced) (armed : duel.updateAuras.Armed)
    (fits : duel.updateAuras.SlotsFit) : duel.updateAuras.UpToDate := by
  intro id entity known
  refine ⟨duel.updateAuras.offers.filter fun offer => offer.target = id,
    (nodup_offers sound armed fits).filter _, fun offer => ?_, ?_⟩
  · rw [List.mem_filter, mem_offers_iff sound, decide_eq_true_eq]
  · have admitted : (duel.offers.filter fun offer => duel.admits offer && offer.target = id) =
        duel.offers.filter fun offer => offer.target = id := by
      refine List.filter_congr fun offer offered => ?_
      obtain ⟨entry, listed, aura⟩ := exists_entry_of_offer offered
      rw [admits, plain entry listed offer.aura aura, Bool.true_and]
    rw [aura_updateAuras known, offers_updateAuras, Duel.admitted, admitted]
    exact AuraTotal.totals_sum _

/-- Nothing but the table, the entities and the catalogue matters to being up to date. -/
theorem UpToDate.congr (upToDate : before.UpToDate) (table : after.table = before.table)
    (arena : after.arena = before.arena) (catalogue : after.catalogue = before.catalogue) :
    after.UpToDate := by
  have field : after.field = before.field :=
    funext fun player => congrArg (fun table : Table => table.zones.members player .play) table
  have hand : after.hand = before.hand :=
    funext fun player => congrArg (fun table : Table => table.zones.members player .hand) table
  have weapon : after.weapon = before.weapon :=
    funext fun player => congrArg (fun table : Table => (table.slots player).weapon) table
  have hero : after.hero = before.hero :=
    funext fun player => congrArg (fun table : Table => (table.slots player).hero) table
  have entities : after.entity? = before.entity? :=
    funext fun id => congrArg (Arena.get? · id) arena
  have behaviour : after.behaviourOf = before.behaviourOf :=
    funext fun entity => congrArg (fun catalogue : Catalogue =>
      (catalogue.behaviour? entity.card).getD Behaviour.none) catalogue
  have inReach : after.InReach = before.InReach := by
    funext player source id reach
    cases reach <;> simp only [InReach, field, hand, weapon, hero]
  have makes (offer : Offer) : after.Makes offer ↔ before.Makes offer := by
    constructor
    · rintro ⟨stands, projects, reaches⟩
      refine ⟨?_, ?_, ?_⟩
      · rwa [Stands, field, weapon, hero] at stands
      · rwa [Projects, entities, behaviour] at projects
      · rwa [inReach] at reaches
    · rintro ⟨stands, projects, reaches⟩
      refine ⟨?_, ?_, ?_⟩
      · rwa [Stands, field, weapon, hero]
      · rwa [Projects, entities, behaviour]
      · rwa [inReach]
  intro id entity known
  rw [entities] at known
  simp only [makes]
  exact upToDate id entity known

theorem UpToDate.concede (upToDate : duel.UpToDate) (player : Player) :
    (duel.concede player).UpToDate :=
  upToDate.congr ((table_finish _ _).trans (table_updatePlayer duel player fun _ => rfl)) rfl rfl

/-- Who comes out of a round is up to date. -/
theorem Settled.upToDate (created : Duel.create settings catalogue = .ok start)
    (plain : catalogue.Unconditional) (settled : start.Settled after) : after.UpToDate := by
  obtain ⟨reaches, before, -, mid, -, rfl⟩ := settled
  obtain ⟨log, logged⟩ := exists_loggedBy created reaches
  have same : mid.catalogue = catalogue :=
    (Change.fixed_of_reaches reaches).2.trans (fixed_of_created created).2
  exact upToDate_updateAuras (same ▸ plain) logged.placed (fun _ _ => logged.weapon_posted)
    (slotsFit_of_reaches created reaches)

end Duel

/-! ## Calls -/

/-- The calls of a match, and not of a test bench. -/
def Call.Regular : Call → Prop
  | .start | .take _ _ | .advance | .advanceTo _ => True
  | .give _ _ | .setMana _ _ => False

namespace Play

open Duel

variable {start duel : Duel} {allowance : Nat} {settings : Settings} {catalogue : Catalogue}

theorem ensures_take_upToDate {player : Player} {action : Action}
    (created : Duel.create settings catalogue = .ok start) (plain : catalogue.Unconditional)
    (reaches : ReflTransGen Change start duel) (upToDate : duel.UpToDate) :
    (take allowance player action).Ensures duel fun _ left => left.UpToDate := by
  unfold take
  rw [ensures_get_bind]
  split
  · exact ensures_throw
  split
  · exact ensures_throw
  rw [ensures_modify_bind]
  apply Ensures.onFault
  have recorded : (record player action duel).UpToDate := upToDate.congr rfl rfl rfl
  by_cases concedes : action = .concede
  · rw [concedes] at recorded ⊢
    exact recorded.concede player
  · exact (ensures_carryOut_settled concedes (reaches.tail (.record duel player action))).mono
      fun _ _ => Settled.upToDate created plain

/-- A call of a match that is up to date, or that starts it, leaves it up to date. -/
theorem ensures_play_upToDate {call : Call} (regular : call.Regular)
    (created : Duel.create settings catalogue = .ok start) (plain : catalogue.Unconditional)
    (reaches : ReflTransGen Change start duel) (begun : call = .start ∨ duel.UpToDate) :
    (call.play allowance).Ensures duel fun _ left => left.UpToDate := by
  have moved (upToDate : duel.UpToDate) {left : Duel} (moved : left = duel ∨ start.Settled left) :
      left.UpToDate :=
    moved.elim (· ▸ upToDate) (Settled.upToDate created plain)
  cases call with
  | start => exact (ensures_start_settled reaches).mono fun _ _ => Settled.upToDate created plain
  | take player action =>
      exact ensures_take_upToDate created plain reaches (begun.resolve_left nofun)
  | advance =>
      exact ((ensures_advance_settled reaches).mono fun _ _ =>
        moved (begun.resolve_left nofun)).discard
  | advanceTo target =>
      exact (ensures_advanceTo_settled reaches).mono fun _ _ => moved (begun.resolve_left nofun)
  | _ => exact regular.elim

end Play

namespace Duel

variable {start duel after : Duel} {allowance : Nat} {settings : Settings} {catalogue : Catalogue}
  {calls : List Call}

theorem UpToDate.of_runs (created : Duel.create settings catalogue = .ok start)
    (plain : catalogue.Unconditional) (regular : ∀ call ∈ calls, call.Regular)
    (reaches : ReflTransGen Change start duel) (begun : .start ∈ calls ∨ duel.UpToDate)
    (runs : duel.Runs allowance calls after) : after.UpToDate := by
  induction calls generalizing duel with
  | nil =>
      obtain rfl := runs_nil.mp runs
      exact begun.resolve_left (List.not_mem_nil)
  | cons call calls ih =>
      obtain ⟨left, ran, rest⟩ := runs_cons.mp runs
      have follows : Play.Follows Change (call.play allowance) := call.follows_play allowance
      have moves := Play.Yields.of_ok (follows duel) ran
      have step (begun : call = .start ∨ duel.UpToDate) : left.UpToDate :=
        (Play.ensures_play_upToDate (regular call List.mem_cons_self) created plain reaches
          begun).of_ok ran
      refine ih (fun other member => regular other (List.mem_cons_of_mem call member))
        (reaches.trans moves) ?_ rest
      rcases begun with member | upToDate
      · rcases List.mem_cons.mp member with first | later
        · exact .inr (step (.inl first.symm))
        · exact .inl later
      · exact .inr (step (.inr upToDate))

end Duel

/-! ## Heroes with auras -/

/-- A mage that gives itself windfury as long as it is in play. -/
def Catalogue.gales : Catalogue :=
  .ofEntries
    [⟨Card.hero ⟨1⟩ "HERO" "" .mage 30 "POWER",
        { Behaviour.none with
          aura := some ⟨.hero, { Modifier.none with grants := [.windfury] }, none⟩ }⟩,
      ⟨Card.power ⟨2⟩ "POWER" "" 2, Behaviour.none⟩]
    [(.mage, ⟨1⟩)] (by decide) (by decide)

theorem Catalogue.unconditional_gales : Catalogue.gales.Unconditional := by
  intro entry listed aura projected
  have plain : ∀ entry ∈ Catalogue.gales.entries,
      (entry.behaviour.aura.all fun aura => aura.condition.isNone) = true := by decide
  have none' := plain entry listed
  rw [projected] at none'
  exact Option.isNone_iff_eq_none.mp none'

/-- Two mages without cards. -/
def Settings.gales : Settings :=
  { Settings.standard with shuffleDecks := false }

namespace Duel

end Duel
end CardDuel
