import CardDuel.Proofs.Registration
import CardDuel.Proofs.Transfers
import Mathlib.Data.List.Forall2

/-!
# Cards that are made

A card that an effect makes is a new entity, set aside until it is placed or chosen.  Making cards
never fails while they can become entities at all, and it leaves everybody else alone.
-/

namespace CardDuel

/-- A card that entities can be copies of. -/
def Catalogue.Instantiable (catalogue : Catalogue) (id : CardId) : Prop :=
  ∃ card kind, catalogue.card? id = some card ∧ EntityKind.ofCardType? card.cardType = some kind

namespace Duel

variable {duel before middle after : Duel} {owner : Player} {id : EntityId} {form : CardId}
variable {ids others : List EntityId} {cards forms : List CardId}

/-- New copies of cards have been made for a player, one after the other, and are set aside.  Nothing
else has happened. -/
structure Creates (owner : Player) (cards : List CardId) (ids : List EntityId)
    (before after : Duel) : Prop where
  distinct : ids.Nodup
  fresh : ∀ id ∈ ids, before.entity? id = none
  copies : List.Forall₂ (fun id form => ∃ card kind, before.catalogue.card? form = some card ∧
    EntityKind.ofCardType? card.cardType = some kind ∧
      after.body? id = some (Entity.fresh owner card kind)) ids cards
  members : ∀ player zone, after.members player zone =
    before.members player zone ++ if player = owner ∧ zone = .setAside then ids else []
  posts : ∀ id ∉ ids, after.table.post? id = before.table.post? id
  bodies : ∀ id ∉ ids, after.body? id = before.body? id
  players : after.players = before.players
  control : after.control = before.control
  agenda : after.agenda = before.agenda
  sound : after.WellPlaced

theorem creates_nil (owner : Player) (sound : before.WellPlaced) :
    before.Creates owner [] [] before where
  distinct := List.nodup_nil
  fresh _ := nofun
  copies := .nil
  members player zone := by simp
  posts _ _ := rfl
  bodies _ _ := rfl
  players := rfl
  control := rfl
  agenda := rfl
  sound := sound

theorem Creates.catalogue (creates : before.Creates owner cards ids after) :
    after.catalogue = before.catalogue :=
  congrArg Control.catalogue creates.control

/-- What is made is known afterwards. -/
theorem Creates.exists_body? (creates : before.Creates owner cards ids after) (made : id ∈ ids) :
    ∃ body, after.body? id = some body := by
  have copies := creates.copies
  obtain ⟨place, bound, rfl⟩ := List.getElem_of_mem made
  obtain ⟨card, kind, -, -, held⟩ := copies.get bound (copies.length_eq ▸ bound)
  exact ⟨_, held⟩

theorem Creates.trans (first : before.Creates owner cards ids middle)
    (second : middle.Creates owner forms others after) :
    before.Creates owner (cards ++ forms) (ids ++ others) after := by
  have unmade (id : EntityId) (made : id ∈ ids) : id ∉ others := fun madeToo => by
    obtain ⟨body, held⟩ := first.exists_body? made
    have unknown := entity?_eq_none_iff.mp (second.fresh id madeToo)
    exact nomatch held.symm.trans unknown
  constructor
  case distinct => exact first.distinct.append second.distinct unmade
  case fresh =>
    intro id made
    rcases List.mem_append.mp made with here | there
    · exact first.fresh id here
    · by_cases madeFirst : id ∈ ids
      · exact first.fresh id madeFirst
      · rw [entity?_eq_none_iff, ← first.bodies id madeFirst, ← entity?_eq_none_iff]
        exact second.fresh id there
  case copies =>
    have kept : List.Forall₂ (fun id form => ∃ card kind,
        before.catalogue.card? form = some card ∧
          EntityKind.ofCardType? card.cardType = some kind ∧
            after.body? id = some (Entity.fresh owner card kind)) ids cards := by
      refine List.forall₂_iff_get.mpr ⟨first.copies.length_eq, fun place bound bound' => ?_⟩
      obtain ⟨card, kind, listed, formed, held⟩ := first.copies.get bound bound'
      refine ⟨card, kind, listed, formed, ?_⟩
      rw [second.bodies _ (unmade _ (List.get_mem ..)), held]
    have later := second.copies
    rw [first.catalogue] at later
    exact List.rel_append kept later
  case members =>
    intro player zone
    rw [second.members, first.members, List.append_assoc]
    split <;> rfl
  case posts =>
    intro id away
    simp only [List.mem_append, not_or] at away
    rw [second.posts id away.2, first.posts id away.1]
  case bodies =>
    intro id away
    simp only [List.mem_append, not_or] at away
    rw [second.bodies id away.2, first.bodies id away.1]
  case players => exact second.players.trans first.players
  case control => exact second.control.trans first.control
  case agenda => exact second.agenda.trans first.agenda
  case sound => exact second.sound

end Duel

namespace Play

open Duel

variable {duel : Duel} {form : CardId} {forms : List CardId}

/-- A card that can become an entity is made and set aside. -/
theorem exists_setAside (owner : Player) (sound : duel.WellPlaced)
    (instantiable : duel.catalogue.Instantiable form) :
    ∃ id after, setAside owner form duel = .ok id after ∧
      duel.Creates owner [form] [id] after := by
  obtain ⟨card, kind, listed, formed⟩ := instantiable
  let id := duel.arena.nextId
  let pushed : Duel := { duel with arena := duel.arena.push (Entity.fresh owner card kind) }
  have created : create owner form duel = .ok id pushed := create_of_listed listed formed
  have unknown : duel.entity? id = none := Arena.get?_nextId duel.arena
  have held (other : EntityId) : pushed.entity? other =
      if other = id then some (Entity.fresh owner card kind) else duel.entity? other :=
    Arena.get?_push ..
  have placed : pushed.WellPlaced := create_wellPlaced sound
  have posted : pushed.table.post? id = some ⟨owner, kind, .unplaced⟩ :=
    post?_of_entity? ((held id).trans (if_pos rfl))
  obtain ⟨after, moved, transfers⟩ := exists_move .top placed ⟨_, posted, rfl, by simp⟩
    (by decide : ZoneKind.setAside ≠ .play)
    (placed.isFull_of_unbounded owner (by decide) rfl)
  refine ⟨id, after, ?_, ?_⟩
  · unfold setAside send
    rw [bind_of_ok created, bind_of_ok ((discard_apply _ _).trans (by rw [moved]))]
    rfl
  constructor
  case distinct => exact List.nodup_singleton id
  case fresh => simpa using unknown
  case copies =>
    refine .cons ⟨card, kind, listed, formed, ?_⟩ .nil
    rw [transfers.rearranges.bodies, body?, held, if_pos rfl]
    rfl
  case members =>
    intro player zone
    have absent : id ∉ duel.members player zone := fun inside => by
      obtain ⟨kind, there⟩ := sound.posted_of_mem inside
      obtain ⟨entity, known, -⟩ := exists_of_post? there
      cases known.symm.trans unknown
    have same : (pushed.members player zone).erase id = duel.members player zone :=
      List.erase_of_not_mem absent
    rw [transfers.members, same]
    by_cases aside : player = owner ∧ zone = .setAside
    · rw [if_pos ⟨aside, by decide⟩, if_pos aside]
      exact List.insertIdx_length_self ..
    · rw [if_neg fun all => aside all.1, if_neg aside, List.append_nil]
  case posts =>
    intro other away
    have differs : other ≠ id := by simpa using away
    rw [transfers.posts, if_neg differs]
    exact post?_create.trans (if_neg differs)
  case bodies =>
    intro other away
    rw [transfers.rearranges.bodies, body?, held, if_neg (by simpa using away)]
    rfl
  case players => exact transfers.rearranges.players
  case control => exact transfers.rearranges.control
  case agenda => exact transfers.rearranges.agenda
  case sound => exact transfers.sound

/-- Making cards never fails while they can become entities. -/
theorem exists_setAsideAll (owner : Player) (sound : duel.WellPlaced)
    (instantiable : ∀ form ∈ forms, duel.catalogue.Instantiable form) :
    ∃ ids after, setAsideAll owner forms duel = .ok ids after ∧
      duel.Creates owner forms ids after := by
  induction forms generalizing duel with
  | nil => exact ⟨[], duel, rfl, creates_nil owner sound⟩
  | cons form forms ih =>
      obtain ⟨id, middle, made, creates⟩ :=
        exists_setAside owner sound (instantiable form List.mem_cons_self)
      obtain ⟨ids, after, madeAll, createsAll⟩ := ih creates.sound fun other member => by
        rw [creates.catalogue]
        exact instantiable other (List.mem_cons_of_mem form member)
      refine ⟨id :: ids, after, ?_, creates.trans createsAll⟩
      unfold setAsideAll
      rw [bind_of_ok made, bind_of_ok madeAll]
      rfl

/-- A card that cannot become an entity is not made. -/
theorem setAside_of_not_instantiable (owner : Player)
    (not : ¬ duel.catalogue.Instantiable form) :
    ∃ fault, setAside owner form duel = .error fault duel := by
  have refused : ∃ fault, create owner form duel = .error fault duel := by
    unfold create
    rw [get_bind]
    cases listed : duel.catalogue.card? form with
    | none => exact ⟨_, rfl⟩
    | some card =>
        cases formed : EntityKind.ofCardType? card.cardType with
        | none =>
            dsimp only
            rw [formed]
            exact ⟨_, rfl⟩
        | some kind => exact absurd ⟨card, kind, listed, formed⟩ not
  exact refused.imp fun _ broken => bind_of_error broken

/-- If a card is made, then as a new entity that is set aside. -/
theorem ensures_setAside (owner : Player) (sound : duel.WellPlaced) :
    (setAside owner form).Ensures duel fun id after => duel.Creates owner [form] [id] after := by
  by_cases instantiable : duel.catalogue.Instantiable form
  · obtain ⟨id, after, made, creates⟩ := exists_setAside owner sound instantiable
    refine ensures_of_ok fun other left ran => ?_
    cases made.symm.trans ran
    exact creates
  · obtain ⟨fault, broken⟩ := setAside_of_not_instantiable owner instantiable
    refine ensures_of_ok fun id after ran => ?_
    cases broken.symm.trans ran

theorem ensures_setAsideAll (owner : Player) (sound : duel.WellPlaced) :
    (setAsideAll owner forms).Ensures duel fun ids after => duel.Creates owner forms ids after := by
  induction forms generalizing duel with
  | nil => exact creates_nil owner sound
  | cons form forms ih =>
      unfold setAsideAll
      exact (ensures_setAside owner sound).bind fun id middle creates =>
        (ih creates.sound).bind fun ids last createsAll => creates.trans createsAll

/-- Cards that the dice pick are made, and the play goes on from there. -/
theorem exists_rolled (owner : Player) (sound : duel.WellPlaced) (draw : Dice → List CardId × Dice)
    (instantiable : ∀ form ∈ (draw duel.dice).1, duel.catalogue.Instantiable form) :
    ∃ ids after, duel.Creates owner (draw duel.dice).1 ids after ∧
      ∀ {β : Type} (next : List EntityId → Play β),
        (roll draw >>= fun cards => setAsideAll owner cards >>= next) duel = next ids after := by
  let rolled := { duel with dice := (draw duel.dice).2 }
  have sound' : rolled.WellPlaced := sound.congr rfl rfl
  obtain ⟨ids, after, made, creates⟩ := exists_setAsideAll owner sound' instantiable
  refine ⟨ids, after, ?_, fun next => bind_of_ok made⟩
  exact ⟨creates.distinct, creates.fresh, creates.copies, creates.members, creates.posts,
    creates.bodies, creates.players, creates.control, creates.agenda, creates.sound⟩

end Play

end CardDuel
