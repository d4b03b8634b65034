import CardDuel.Proofs.Alerts
import CardDuel.Proofs.Burials
import CardDuel.Proofs.Consistency

/-!
# The order of reactions

Announcing an event queues one reaction for each live trigger that listens for its kind and matches
it.  The index finds them all, since it lists the live triggers of every kind.  They are sorted by
side, by a number for the place of their owner and by age.  The number puts the field before the
secrets, those before the hand and the hand before everything else by offsets of a hundred each, so
it does that only as far as a row is not longer than the gap to the next offset.
-/

namespace CardDuel

open Relation

/-! ## The index -/

namespace TriggerIndex

/-- The kinds of event that have a row. -/
def kinds (index : TriggerIndex) : List EventKind :=
  index.map Prod.fst

theorem listeners_cons (row : EventKind × List TriggerId) (rows : TriggerIndex)
    (kind : EventKind) :
    listeners (row :: rows) kind = if row.1 = kind then row.2 else listeners rows kind := by
  unfold listeners
  rw [List.find?_cons]
  by_cases here : row.1 = kind
  · rw [if_pos here, beq_iff_eq.mpr here]
  · rw [if_neg here, beq_eq_false_iff_ne.mpr here]

theorem listeners_of_not_mem {index : TriggerIndex} {kind : EventKind}
    (absent : kind ∉ index.kinds) : index.listeners kind = [] := by
  induction index with
  | nil => rfl
  | cons row rows ih =>
      obtain ⟨apart, later⟩ := not_or.mp (List.mem_cons.not.mp absent)
      rw [listeners_cons, if_neg (Ne.symm apart), ih later]

theorem listeners_insert (index : TriggerIndex) (kind other : EventKind) (id : TriggerId) :
    (index.insert kind id).listeners other =
      index.listeners other ++ if other = kind then [id] else [] := by
  induction index with
  | nil =>
      rw [insert, listeners_cons]
      by_cases same : other = kind
      · simp [same, listeners]
      · simp [same, Ne.symm same, listeners]
  | cons row rows ih =>
      unfold insert
      split
      next here =>
        rw [listeners_cons, listeners_cons]
        dsimp only
        by_cases same : other = kind
        · simp [same, here]
        · simp [same, here, Ne.symm same]
      next away =>
        rw [listeners_cons, listeners_cons, ih]
        split
        next there =>
          have apart : other ≠ kind := fun same => away (there.trans same)
          rw [if_neg apart, List.append_nil]
        next => rfl

theorem kinds_insert (index : TriggerIndex) (kind : EventKind) (id : TriggerId) :
    (index.insert kind id).kinds =
      index.kinds ++ if kind ∈ index.kinds then [] else [kind] := by
  induction index with
  | nil => rfl
  | cons row rows ih =>
      unfold insert
      by_cases here : row.1 = kind
      · simp [here, kinds]
      · rw [if_neg here]
        have member : kind ∈ kinds (row :: rows) ↔ kind ∈ kinds rows :=
          List.mem_cons.trans (or_iff_right (Ne.symm here))
        simp only [member]
        exact congrArg (row.1 :: ·) ih

theorem kinds_erase_sublist (index : TriggerIndex) (kind : EventKind) (id : TriggerId) :
    (index.erase kind id).kinds.Sublist index.kinds := by
  induction index with
  | nil => exact .slnil
  | cons row rows ih =>
      unfold erase at ih ⊢
      rw [List.filterMap_cons]
      split
      · exact ih.cons _
      next kept same =>
        have first : kept.1 = row.1 := by
          split at same
          · dsimp only at same
            split at same
            · cases same
            · cases same
              rfl
          · cases same
            rfl
        simp only [kinds, List.map_cons, first]
        exact ih.cons_cons _

theorem listeners_erase {index : TriggerIndex} (distinct : index.kinds.Nodup)
    (kind other : EventKind) (id : TriggerId) :
    (index.erase kind id).listeners other =
      if other = kind then (index.listeners kind).filter fun held => held ≠ id
      else index.listeners other := by
  induction index with
  | nil => simp [erase, listeners]
  | cons row rows ih =>
      obtain ⟨fresh, distinct⟩ := List.nodup_cons.mp distinct
      have later := ih distinct
      unfold erase at later ⊢
      rw [List.filterMap_cons]
      by_cases here : row.1 = kind
      · rw [if_pos here]
        dsimp only
        by_cases last : (row.2.filter fun held => held ≠ id) = []
        · -- The row goes, and no other row is for this kind.
          rw [if_pos (List.isEmpty_iff.mpr last), listeners_cons, listeners_cons, later,
            if_pos here]
          split
          next same =>
            rw [last, ← here, listeners_of_not_mem fresh]
            rfl
          next apart => rw [if_neg fun there => apart (there.symm.trans here)]
        · rw [if_neg (List.isEmpty_iff.not.mpr last)]
          dsimp only
          rw [listeners_cons, listeners_cons, listeners_cons, if_pos here]
          dsimp only
          rw [here]
          by_cases same : other = kind
          · rw [if_pos same.symm, if_pos same]
          · rw [if_neg (Ne.symm same), if_neg same, if_neg (Ne.symm same), later, if_neg same]
      · rw [if_neg here]
        dsimp only
        rw [listeners_cons, listeners_cons, listeners_cons, later, if_neg here]
        by_cases same : other = kind
        · rw [if_pos same, if_pos same, if_neg fun there => here (there.trans same)]
        · rw [if_neg same, if_neg same]

end TriggerIndex

namespace TriggerBook

variable {book : TriggerBook}

/-- The index lists the live triggers of every kind, oldest first. -/
structure Indexed (book : TriggerBook) : Prop where
  distinct : book.index.kinds.Nodup
  listed : ∀ kind, book.index.listeners kind =
    (book.active.filter fun trigger => trigger.rule.listensFor = kind).map Trigger.id

theorem indexed_empty : empty.Indexed :=
  ⟨List.nodup_nil, fun _ => rfl⟩

theorem Indexed.register (indexed : book.Indexed) (owner : EntityId) (controller : Player)
    (rule : TriggerRule) : (book.register owner controller rule).Indexed := by
  constructor
  · change (book.index.insert rule.listensFor book.nextId).kinds.Nodup
    rw [TriggerIndex.kinds_insert]
    split
    · rw [List.append_nil]
      exact indexed.distinct
    next absent =>
      refine List.nodup_append.mpr ⟨indexed.distinct, List.nodup_singleton _, ?_⟩
      rintro old member new last rfl
      exact absent (List.mem_singleton.mp last ▸ member)
  · intro kind
    change (book.index.insert rule.listensFor book.nextId).listeners kind =
      ((book.active ++ [_]).filter _).map _
    rw [TriggerIndex.listeners_insert, indexed.listed, List.filter_append, List.map_append]
    by_cases same : kind = rule.listensFor
    · simp [same]
    · simp [same, Ne.symm same]

theorem Indexed.unregister (indexed : book.Indexed) (kept : book.WellKept) (id : TriggerId) :
    (book.unregister id).Indexed := by
  unfold TriggerBook.unregister strike
  split
  · exact indexed
  next trigger found =>
    obtain ⟨live, own⟩ := kept.get?_eq_some_iff.mp found
    refine ⟨indexed.distinct.sublist (book.index.kinds_erase_sublist _ id), fun kind => ?_⟩
    dsimp only
    rw [TriggerIndex.listeners_erase indexed.distinct, indexed.listed, indexed.listed,
      List.filter_filter]
    split
    next same =>
      rw [List.filter_map, List.filter_filter, same]
      congr 1
      exact List.filter_congr fun _ _ => Bool.and_comm ..
    next apart =>
      -- No trigger of another kind has the handle.
      congr 1
      refine List.filter_congr fun other listed => ?_
      rw [Bool.eq_iff_iff, Bool.and_eq_true, decide_eq_true_eq, decide_eq_true_eq]
      refine ⟨fun listens => ⟨listens, fun same => apart ?_⟩, And.left⟩
      rw [← kept.ext listed live (same.trans own.symm)]
      exact listens.symm

theorem Indexed.strikeOut (indexed : book.Indexed) (kept : book.WellKept) (struck : List Trigger) :
    (struck.foldl (fun book trigger => book.unregister trigger.id) book).Indexed := by
  induction struck generalizing book with
  | nil => exact indexed
  | cons first struck ih => exact ih (indexed.unregister kept first.id) (kept.unregister first.id)

theorem Indexed.dropOwner (indexed : book.Indexed) (kept : book.WellKept) (owner : EntityId) :
    (book.dropOwner owner).Indexed :=
  indexed.strikeOut kept _

/-- The reactions are the live triggers that listen for the event and match it, put in order. -/
theorem Indexed.reactions_eq (indexed : book.Indexed) (kept : book.WellKept) (view : TriggerView)
    (event : Event) :
    book.reactions view event = Trigger.inOrder view (book.active.filter fun trigger =>
      trigger.rule.listensFor = event.kind && trigger.matchesEvent view event) := by
  have found (triggers : List Trigger) (live : triggers ⊆ book.active) :
      (triggers.map Trigger.id).filterMap book.get? = triggers := by
    induction triggers with
    | nil => rfl
    | cons first triggers ih =>
        obtain ⟨here, later⟩ := List.cons_subset.mp live
        rw [List.map_cons, List.filterMap_cons, kept.get?_eq_some_iff.mpr ⟨here, rfl⟩]
        exact congrArg (first :: ·) (ih later)
  unfold reactions
  rw [indexed.listed, found _ (List.filter_subset_self ..), List.filter_filter]
  congr 1
  exact List.filter_congr fun _ _ => Bool.and_comm ..

end TriggerBook

namespace Trigger

variable {view : TriggerView} {first second third : Trigger} {triggers : List Trigger}

/-- A trigger of the player whose turn it is comes before others. -/
def lateness (view : TriggerView) (trigger : Trigger) : Nat :=
  if trigger.controller = view.current then 0 else 1

theorem precedes_iff : first.precedes view second = true ↔
    first.lateness view < second.lateness view ∨ first.lateness view = second.lateness view ∧
      (view.rank first.owner < view.rank second.owner ∨
        view.rank first.owner = view.rank second.owner ∧ first.id.number < second.id.number) := by
  unfold precedes
  simp only [Bool.or_eq_true, Bool.and_eq_true, decide_eq_true_eq]
  rfl

theorem precedes_trans (before : first.precedes view second = true)
    (after : second.precedes view third = true) : first.precedes view third = true := by
  rw [precedes_iff] at before after ⊢
  omega

theorem precedes_of_not (apart : first.id ≠ second.id)
    (later : ¬ first.precedes view second = true) : second.precedes view first = true := by
  have numbers : first.id.number ≠ second.id.number := fun same =>
    apart (congrArg TriggerId.mk same)
  rw [precedes_iff] at later ⊢
  omega

theorem pairwise_insertInOrder (fresh : ∀ other ∈ triggers, first.id ≠ other.id)
    (sorted : triggers.Pairwise fun one two => one.precedes view two) :
    (insertInOrder view first triggers).Pairwise fun one two => one.precedes view two := by
  induction triggers with
  | nil => exact List.pairwise_singleton _ _
  | cons other others ih =>
      obtain ⟨leads, rest⟩ := List.pairwise_cons.mp sorted
      obtain ⟨apart, freshLater⟩ := List.forall_mem_cons.mp fresh
      unfold insertInOrder
      split
      next before =>
        refine List.pairwise_cons.mpr ⟨fun later member => ?_, sorted⟩
        rcases List.mem_cons.mp member with rfl | behind
        · exact before
        · exact precedes_trans before (leads later behind)
      next behind =>
        refine List.pairwise_cons.mpr ⟨fun later member => ?_, ih freshLater rest⟩
        rcases List.mem_cons.mp ((insertInOrder_perm view first others).mem_iff.mp member) with
          rfl | old
        · exact precedes_of_not apart behind
        · exact leads later old

/-- Triggers with handles of their own are sorted. -/
theorem pairwise_inOrder (view : TriggerView) (distinct : (triggers.map Trigger.id).Nodup) :
    (inOrder view triggers).Pairwise fun one two => one.precedes view two := by
  induction triggers with
  | nil => exact .nil
  | cons first triggers ih =>
      obtain ⟨fresh, distinct⟩ := List.nodup_cons.mp distinct
      refine pairwise_insertInOrder (fun other member same => fresh ?_) (ih distinct)
      have old := (inOrder_perm view triggers).mem_iff.mp member
      exact List.mem_map.mpr ⟨other, old, same.symm⟩

end Trigger

/-! ## Rows -/

namespace Entity

variable {entity : Entity}

/-- The row of an entity among the trigger sources of its side: the slots, the field, the secrets,
the hand, and behind them everything else. -/
def row (entity : Entity) : Nat :=
  match entity.zone with
  | .play => if entity.kind = .minion then 1 else 0
  | .secret => 2
  | .hand => 3
  | _ => 4

/-- The place in the row; nobody stands before another one in a slot. -/
def place (entity : Entity) : Nat :=
  if entity.row = 0 then 0 else entity.position

/-- Whether the place is below what the ranks leave for the row. -/
def InSpan (entity : Entity) : Prop :=
  (entity.row = 1 → entity.position < 99) ∧
    (entity.row = 2 ∨ entity.row = 3 → entity.position < 100)

theorem row_le (entity : Entity) : entity.row ≤ 4 := by
  unfold row
  split
  · split <;> omega
  all_goals omega

/-- Rows are in containers, but for the first and the last one. -/
theorem held_of_row (inside : entity.row = 1 ∨ entity.row = 2 ∨ entity.row = 3) :
    entity.zone ∈ [.deck, .hand, .graveyard, .secret, .setAside] ∨
      entity.zone = .play ∧ entity.kind = .minion := by
  unfold row at inside
  split at inside
  next inPlay =>
    by_cases minion : entity.kind = .minion
    · exact .inr ⟨inPlay, minion⟩
    · simp [minion] at inside
  next there => simp [there]
  next there => simp [there]
  · omega

end Entity

namespace Duel

variable {settings : Settings} {catalogue : Catalogue}
variable {start before after duel : Duel} {event : Event} {first second trigger : Trigger}
variable {id : EntityId} {entity : Entity}

theorem rank_of_entity? (known : duel.entity? id = some entity) :
    (entity.row = 0 → duel.rank id = 0) ∧ (entity.row = 1 → duel.rank id = entity.position + 1) ∧
      (2 ≤ entity.row → duel.rank id + 100 = 100 * entity.row + entity.position) := by
  unfold rank Entity.row
  rw [known]
  dsimp only
  cases entity.zone with
  | play => by_cases minion : entity.kind = .minion <;> simp [minion]
  | _ => dsimp only; omega

/-! ## Cues -/

/-- What decides when a trigger ought to react: the side, the row of its owner, the place in the row
and its age. -/
def cue (duel : Duel) (trigger : Trigger) : List Nat :=
  match duel.entity? trigger.owner with
  | none => []
  | some entity =>
    [trigger.lateness duel.triggerView, entity.row, entity.place, trigger.id.number]

/-- Whether a trigger ought to react before another one: lists are compared by the first number in
which they differ. -/
def Comes (duel : Duel) (first second : Trigger) : Prop :=
  duel.cue first < duel.cue second

/-- Whether the owner of a trigger is below what the ranks leave for its row. -/
def Spans (duel : Duel) (trigger : Trigger) : Prop :=
  ∀ entity, duel.entity? trigger.owner = some entity → entity.InSpan

theorem comes_iff {one two : Entity} (known : duel.entity? first.owner = some one)
    (knownToo : duel.entity? second.owner = some two) :
    duel.Comes first second ↔
      first.lateness duel.triggerView < second.lateness duel.triggerView ∨
        first.lateness duel.triggerView = second.lateness duel.triggerView ∧
          (one.row < two.row ∨ one.row = two.row ∧
            (one.place < two.place ∨ one.place = two.place ∧
              first.id.number < second.id.number)) := by
  unfold Comes cue
  rw [known, knownToo]
  simp [List.cons_lt_cons_iff]

/-- Only who stands beyond the span of its row lets others go first that ought to come later. -/
theorem comes_of_precedes {one two : Entity} (known : duel.entity? first.owner = some one)
    (knownToo : duel.entity? second.owner = some two) (span : two.InSpan)
    (precedes : first.precedes duel.triggerView second = true) : duel.Comes first second := by
  have ranks := rank_of_entity? known
  have ranksToo := rank_of_entity? knownToo
  have places (entity : Entity) : (entity.row = 0 → entity.place = 0) ∧
      (entity.row ≠ 0 → entity.place = entity.position) := by
    unfold Entity.place
    split <;> simp_all
  have placesOne := places one
  have placesTwo := places two
  have lowOne := one.row_le
  have lowTwo := two.row_le
  rw [Trigger.precedes_iff] at precedes
  change _ ∨ _ ∧ (duel.rank first.owner < duel.rank second.owner ∨
    duel.rank first.owner = duel.rank second.owner ∧ _) at precedes
  rw [comes_iff known knownToo]
  unfold Entity.InSpan at span
  omega

/-! ## Every announcement -/

theorem Change.indexed (change : Change before after) (attentive : before.Attentive)
    (indexed : before.triggers.Indexed) : after.triggers.Indexed := by
  have kept := attentive.listening.kept
  rcases change.triggers attentive with ⟨id, restarts⟩ | ⟨id, struck⟩ | same
  · have dropped := indexed.dropOwner kept id
    rcases restarts.triggers with ⟨same, -⟩ | ⟨calling, rule, -, -, -, same⟩
    · rw [same]
      exact dropped
    · rw [same]
      exact dropped.register id calling.owner rule
  · rw [struck]
    exact indexed.unregister kept id
  · rw [same]
    exact indexed

theorem indexed_of_reaches (reaches : ReflTransGen Change before after)
    (attentive : before.Attentive) (indexed : before.triggers.Indexed) :
    after.triggers.Indexed := by
  induction reaches with
  | refl => exact indexed
  | tail reached change ih =>
      exact change.indexed (Change.attentive_of_reaches reached attentive) ih

/-- At any time in a match, the book agrees with the table and the index with the book. -/
theorem indexed_of_created (created : Duel.create settings catalogue = .ok start)
    (reaches : ReflTransGen Change start duel) : duel.Attentive ∧ duel.triggers.Indexed := by
  obtain ⟨bare, begun, sets⟩ : ∃ bare, Duel.bare settings catalogue = .ok bare ∧
      ReflTransGen Change bare start := exists_bare created
  have attentive := bare_attentive begun
  refine ⟨Change.attentive_of_reaches (sets.trans reaches) attentive,
    indexed_of_reaches (sets.trans reaches) attentive ?_⟩
  obtain ⟨first, dice, zero, one, rfl⟩ := bare_eq begun
  exact TriggerBook.indexed_empty

/-- Whether a trigger listens for the kind of an event and matches it. -/
def Hears (duel : Duel) (event : Event) (trigger : Trigger) : Bool :=
  trigger.rule.listensFor = event.kind && trigger.matchesEvent duel.triggerView event

/-- What announcing an event comes to. -/
structure Dispatches (duel : Duel) (event : Event) : Prop where
  /-- The reactions are queued one after the other, and nothing else happens. -/
  queued : duel.announce event =
    { duel with
      agenda :=
        { duel.agenda with
          reactions := duel.agenda.reactions ++
            (duel.reactionsTo event).map fun trigger => .trigger trigger.id event } }
  /-- All live triggers that hear the event react, and no others. -/
  complete : (duel.reactionsTo event).Perm (duel.triggers.active.filter (duel.Hears event))
  once : ((duel.reactionsTo event).map Trigger.id).Nodup
  /-- Their owners are in the zones of the rules, at the places that they record. -/
  stands : ∀ trigger ∈ duel.reactionsTo event, ∃ entity,
    duel.entity? trigger.owner = some entity ∧ entity.owner = trigger.controller ∧
      entity.zone = trigger.rule.zone ∧
        (entity.row = 1 ∨ entity.row = 2 ∨ entity.row = 3 →
          (duel.members trigger.controller trigger.rule.zone)[entity.position]? =
            some trigger.owner)
  /-- By side, rank and age. -/
  ranked : (duel.reactionsTo event).Pairwise fun first second =>
    first.precedes duel.triggerView second
  /-- Each of them reacts after those that ought to react before it, unless its owner stands beyond
  the span of its row. -/
  ordered : (duel.reactionsTo event).Pairwise fun first second =>
    duel.Spans second → duel.Comes first second
  /-- Where no capacity is greater than the span, they all do. -/
  sorted : duel.settings.fieldSize ≤ 99 → duel.settings.secretSize ≤ 100 →
    duel.settings.handSize ≤ 100 → (duel.reactionsTo event).Pairwise duel.Comes

theorem reactionsTo_eq (attentive : duel.Attentive) (indexed : duel.triggers.Indexed)
    (event : Event) :
    duel.reactionsTo event =
      Trigger.inOrder duel.triggerView (duel.triggers.active.filter (duel.Hears event)) :=
  indexed.reactions_eq attentive.listening.kept duel.triggerView event

theorem reactionsTo_perm (attentive : duel.Attentive) (indexed : duel.triggers.Indexed)
    (event : Event) :
    (duel.reactionsTo event).Perm (duel.triggers.active.filter (duel.Hears event)) := by
  rw [reactionsTo_eq attentive indexed]
  exact Trigger.inOrder_perm ..

theorem nodup_heard (attentive : duel.Attentive) (event : Event) :
    ((duel.triggers.active.filter (duel.Hears event)).map Trigger.id).Nodup :=
  attentive.listening.kept.nodup.sublist (List.filter_sublist.map _)

theorem pairwise_precedes_reactionsTo (attentive : duel.Attentive)
    (indexed : duel.triggers.Indexed) (event : Event) :
    (duel.reactionsTo event).Pairwise fun first second =>
      first.precedes duel.triggerView second := by
  rw [reactionsTo_eq attentive indexed]
  exact Trigger.pairwise_inOrder duel.triggerView (nodup_heard attentive event)

/-- Where a container is no longer than its row may be, everybody in it is in span. -/
theorem inSpan_of_consistent (consistent : duel.Consistent)
    (known : duel.entity? id = some entity) (field : duel.settings.fieldSize ≤ 99)
    (secrets : duel.settings.secretSize ≤ 100) (hand : duel.settings.handSize ≤ 100) :
    entity.InSpan := by
  have inside (within : entity.row = 1 ∨ entity.row = 2 ∨ entity.row = 3) :
      entity.position < (duel.members entity.owner entity.zone).length :=
    (List.getElem?_eq_some_iff.mp
      (consistent.held id entity known (Entity.held_of_row within))).1
  constructor
  · intro fielded
    have zone : entity.zone = .play := by
      unfold Entity.row at fielded
      split at fielded <;> simp_all
    have small := inside (.inl fielded)
    rw [zone] at small
    exact Nat.lt_of_lt_of_le small (Nat.le_trans (consistent.field entity.owner) field)
  · intro there
    have small := inside (.inr there)
    have zone : entity.zone = .secret ∨ entity.zone = .hand := by
      unfold Entity.row at there
      split at there
      · split at there <;> omega
      · exact .inl ‹_›
      · exact .inr ‹_›
      · omega
    rcases zone with zone | zone <;> rw [zone] at small
    · exact Nat.lt_of_lt_of_le small (Nat.le_trans (consistent.secrets entity.owner) secrets)
    · exact Nat.lt_of_lt_of_le small (Nat.le_trans (consistent.hand entity.owner) hand)

/-- At any time in a match, announcing any event queues exactly the triggers that hear it; they are
in order as far as the rows are within their spans. -/
theorem dispatches (created : Duel.create settings catalogue = .ok start)
    (reaches : ReflTransGen Change start duel) (event : Event) : duel.Dispatches event := by
  obtain ⟨attentive, indexed⟩ := indexed_of_created created reaches
  have complete := reactionsTo_perm attentive indexed event
  have ranked := pairwise_precedes_reactionsTo attentive indexed event
  have stands (trigger : Trigger) (reacts : trigger ∈ duel.reactionsTo event) :=
    attentive.listening.agree.owned trigger (List.mem_of_mem_filter (complete.mem_iff.mp reacts))
  have consistent := attentive.placed.consistent
  have ordered : (duel.reactionsTo event).Pairwise fun first second =>
      duel.Spans second → duel.Comes first second := by
    refine ranked.imp_of_mem fun {first second} reacts reactsToo precedes span => ?_
    obtain ⟨one, known, -⟩ := stands first reacts
    obtain ⟨two, knownToo, -⟩ := stands second reactsToo
    exact comes_of_precedes known knownToo (span two knownToo) precedes
  refine ⟨rfl, complete, ?_, fun trigger reacts => ?_, ranked, ordered,
    fun field secrets hand => ?_⟩
  · exact (complete.map Trigger.id).nodup_iff.mpr (nodup_heard attentive event)
  · obtain ⟨entity, known, zone, owner, -⟩ := stands trigger reacts
    refine ⟨entity, known, owner, zone, fun inside => ?_⟩
    rw [← owner, ← zone]
    exact consistent.held trigger.owner entity known (Entity.held_of_row inside)
  · refine ordered.imp fun comes => comes fun entity known => ?_
    exact inSpan_of_consistent consistent known field secrets hand

end Duel

/-- Criers in the hand and a herald in the deck have their say when a turn ends. -/
def Catalogue.heralds : Catalogue :=
  .ofEntries
    [⟨Card.hero ⟨1⟩ "HERO" "" .mage 30 "POWER", Behaviour.none⟩,
      ⟨Card.power ⟨2⟩ "POWER" "" 2, Behaviour.none⟩,
      ⟨Card.spell ⟨3⟩ "HERALD" "" 0,
        { Behaviour.none with
          trigger := some ⟨.turnEnd, .everyone, [.setTag .hero .counter 1], none, false, .deck⟩ }⟩,
      ⟨Card.spell ⟨4⟩ "CRIER" "" 0,
        { Behaviour.none with
          trigger := some ⟨.turnEnd, .everyone, [.setTag .hero .counter 2], none, false, .hand⟩ }⟩,
      ⟨Card.spell ⟨5⟩ "COIN" "" 0, Behaviour.none⟩]
    [(.mage, ⟨1⟩)] (by decide) (by decide)

/-- Player zero draws four coins; the herald is left in the deck. -/
def Settings.heralds (handSize : Nat) : Settings :=
  { Settings.standard with
    decks := [["HERALD", "COIN", "COIN", "COIN", "COIN"], []]
    shuffleDecks := false
    handSize := handSize }

namespace Duel

/-- A crier has come to a hand of standard size: it reacts, and then the herald does. -/
theorem dispatches_heralds :
    ∃ start now, Duel.create (Settings.heralds 10) Catalogue.heralds = .ok start ∧
      start.Runs 100 [.start, .give .zero "CRIER"] now ∧ ReflTransGen Change start now ∧
        (now.reactionsTo (Event.plain .turnEnd .zero)).map Trigger.owner = [⟨11⟩, ⟨4⟩] ∧
          now.Dispatches (Event.plain .turnEnd .zero) := by
  obtain ⟨start, now, created, runs, comes⟩ :=
    exists_of_outcome (Settings.heralds 10) Catalogue.heralds 100 [.start, .give .zero "CRIER"]
      (fun now => (now.reactionsTo (Event.plain .turnEnd .zero)).map Trigger.owner = [⟨11⟩, ⟨4⟩])
      (by decide +kernel)
  have reaches := reaches_of_runs runs
  exact ⟨start, now, created, runs, reaches, of_decide_eq_true comes,
    dispatches created reaches (Event.plain .turnEnd .zero)⟩

/-! ## Hands that grow -/

variable {duel before after : Duel}
variable {player : Player} {card : Card} {kind : EntityKind} {rule : TriggerRule} {code : String}

/-- A player has been given a card with a trigger: it is the last one of the hand, and listens. -/
structure Receives (before after : Duel) (player : Player) (rule : TriggerRule) : Prop where
  hand : (after.hand player).length = (before.hand player).length + 1
  deck : after.deck player = before.deck player
  kept : before.triggers.active ⊆ after.triggers.active
  listens : ∃ trigger ∈ after.triggers.active, trigger.rule = rule ∧
    (after.hand player)[(before.hand player).length]? = some trigger.owner

/-- A code stands for a card that has a trigger as soon as a copy of it is in a hand. -/
structure TriggersInHand (duel : Duel) (code : String) (card : Card) (kind : EntityKind)
    (rule : TriggerRule) : Prop where
  coded : duel.catalogue.cardByCode? code = some card
  listed : duel.catalogue.card? card.id = some card
  instantiable : EntityKind.ofCardType? card.cardType = some kind
  spoken : (Entity.freshTags card).has .silenced = false
  ruled : duel.ruleOf card.id = some rule
  inHand : rule.zone = .hand

theorem TriggersInHand.congr (listens : before.TriggersInHand code card kind rule)
    (same : after.catalogue = before.catalogue) : after.TriggersInHand code card kind rule := by
  obtain ⟨coded, listed, instantiable, spoken, ruled, inHand⟩ := listens
  refine ⟨?_, ?_, instantiable, spoken, ?_, inHand⟩
  · rwa [same]
  · rwa [same]
  · rwa [ruleOf, same]

/-- The duel in which an entity of a card has been created. -/
def gaining (duel : Duel) (player : Player) (card : Card) (kind : EntityKind) : Duel :=
  { duel with arena := duel.arena.push (Entity.fresh player card kind) }

theorem entity?_gaining (duel : Duel) (player : Player) (card : Card) (kind : EntityKind) :
    (duel.gaining player card kind).entity? duel.arena.nextId =
      some (Entity.fresh player card kind) :=
  (Arena.get?_push ..).trans (if_pos rfl)

theorem attentive_gaining (attentive : duel.Attentive)
    (listens : duel.TriggersInHand code card kind rule) :
    (duel.gaining player card kind).Attentive :=
  Change.attentive (.shift (.create duel player listens.listed listens.instantiable)) attentive

/-- The next entity has no triggers yet. -/
theorem Attentive.ownedBy_nextId (attentive : duel.Attentive) :
    duel.triggers.ownedBy duel.arena.nextId = [] := by
  refine List.eq_nil_iff_forall_not_mem.mpr fun trigger owned => ?_
  obtain ⟨live, own⟩ := TriggerBook.mem_ownedBy.mp owned
  obtain ⟨held, known, -⟩ := attentive.listening.agree.owned trigger live
  rw [own] at known
  cases duel.post?_nextId.symm.trans (post?_of_entity? known)

/-- The duel in which a new entity of a card has come to the hand of its owner. -/
def given (duel : Duel) (player : Player) (card : Card) (kind : EntityKind) : Duel :=
  (duel.gaining player card kind).relocate duel.arena.nextId (Entity.fresh player card kind) .hand
    .top

section Given

variable (attentive : before.Attentive) (listens : before.TriggersInHand code card kind rule)
variable (room : (before.gaining player card kind).zones.isFull player .hand = false)

include attentive listens room

theorem hand_given : (before.given player card kind).hand player =
    before.hand player ++ [before.arena.nextId] :=
  members_relocate_top (attentive_gaining attentive listens).placed
    (before.entity?_gaining player card kind) (by decide) (by simp [usesSlot]) room nofun

theorem deck_given : (before.given player card kind).deck player = before.deck player :=
  members_relocate_of_away .top (attentive_gaining attentive listens).placed
    (before.entity?_gaining player card kind) (.inr (.inr room)) fun all => by
      rcases all.2 with unplaced | held
      · cases unplaced
      · cases held

/-- The card is in the hand as it was created. -/
theorem exists_given :
    ∃ entity, (before.given player card kind).entity? before.arena.nextId = some entity ∧
      entity.owner = player ∧ entity.zone = .hand ∧
        entity.body = (Entity.fresh player card kind).body := by
  have known := before.entity?_gaining player card kind
  obtain ⟨entity, there, owner, -, zone⟩ := exists_of_post?
    ((post?_relocate .top (attentive_gaining attentive listens).placed known
      (.inr (.inr room))).trans (if_pos rfl))
  have body := (body?_relocate known .hand .top before.arena.nextId).trans (if_pos rfl)
  rw [body?_of_entity? there] at body
  exact ⟨entity, there, owner, zone, Option.some.inj body⟩

theorem triggers_given : (before.given player card kind).triggers =
    before.triggers.register before.arena.nextId player rule := by
  obtain ⟨entity, known, owner, zone, same⟩ := exists_given attentive listens room
  have bearer : entity.card = card.id := congrArg Entity.card same
  have spoken : entity.tags.has .silenced = false :=
    (congrArg (fun body : Entity => body.tags.has .silenced) same).trans listens.spoken
  have catalogue : (before.given player card kind).catalogue = before.catalogue :=
    congrArg Control.catalogue (control_relocate (before.gaining player card kind) _ _ .hand .top)
  have ruled : (before.given player card kind).ruleOf entity.card = some rule := by
    rw [ruleOf, catalogue, bearer]
    exact listens.ruled
  have due : (before.given player card kind).Due before.arena.nextId rule := by
    refine ⟨entity, known, spoken, ruled, listens.inHand.trans zone.symm, ?_⟩
    rw [listens.inHand]
    decide
  obtain ⟨placed, listening⟩ : (before.gaining player card kind).Attentive :=
    attentive_gaining attentive listens
  have restarts : Restarts (before.gaining player card kind) (before.given player card kind)
      before.arena.nextId :=
    restarts_relocate .top placed listening (before.entity?_gaining player card kind)
      (.inr (.inr room))
  rcases restarts.triggers with ⟨-, idle⟩ | ⟨calling, other, called, listed, -, registered⟩
  · exact absurd due (idle rule)
  · obtain rfl := Option.some.inj (called.symm.trans (calling?_of_entity? known))
    obtain rfl := Option.some.inj (ruled.symm.trans listed)
    have idle : (before.gaining player card kind).triggers.dropOwner before.arena.nextId =
        before.triggers :=
      TriggerBook.dropOwner_of_none attentive.ownedBy_nextId
    rw [registered, idle]
    exact congrArg (before.triggers.register before.arena.nextId · rule) owner

/-- A new card that finds room in the hand of its owner. -/
theorem receives_given : before.Receives (before.given player card kind) player rule := by
  have hand := hand_given attentive listens room
  have active : (before.given player card kind).triggers.active =
      before.triggers.active ++ [⟨before.triggers.nextId, before.arena.nextId, player, rule⟩] := by
    rw [triggers_given attentive listens room]
    rfl
  constructor
  · rw [hand, List.length_append, List.length_singleton]
  · exact deck_given attentive listens room
  · rw [active]
    exact List.subset_append_left _ _
  · refine ⟨⟨before.triggers.nextId, before.arena.nextId, player, rule⟩, ?_, rfl, ?_⟩
    · rw [active]
      exact List.mem_append_right _ List.mem_cons_self
    · rw [hand]
      simp

end Given

/-- A player whose hand has room receives a card that is given to it. -/
theorem receives_give (attentive : before.Attentive)
    (listens : before.TriggersInHand code card kind rule) (allowance : Nat)
    (room : (before.hand player).length < before.settings.handSize) :
    ∃ after, (Call.give player code).play allowance before = .ok () after ∧
      before.Receives after player rule := by
  have open' : (before.gaining player card kind).zones.isFull player .hand = false := by
    refine ((attentive_gaining attentive listens).placed.isFull_iff player (by decide)).mpr
      fun capacity bounded => ?_
    cases bounded
    exact room
  have moved : Play.move before.arena.nextId .hand .top (before.gaining player card kind) =
      .ok true (before.given player card kind) :=
    Play.move_of_room (before.entity?_gaining player card kind) (by simp) (.inr (.inr open'))
  refine ⟨before.given player card kind, ?_, receives_given attentive listens open'⟩
  have found : Play.lookupCode code before = .ok card.id before :=
    Play.lookupCode_of_card listens.coded
  have creates : Play.create player card.id before =
      .ok before.arena.nextId (before.gaining player card kind) :=
    Play.create_of_listed listens.listed listens.instantiable
  have sends : Play.sendOrElse before.arena.nextId .hand .graveyard
      (before.gaining player card kind) = .ok () (before.given player card kind) := by
    unfold Play.sendOrElse
    rw [Play.bind_of_ok moved]
    rfl
  change discard (Play.give player code) before = _
  unfold Play.give
  rw [Play.discard_apply, Play.bind_of_ok found, Play.bind_of_ok creates, Play.bind_of_ok sends]
  rfl

/-- As many cards as the hand has room for can be given one after the other. -/
theorem exists_gives (attentive : before.Attentive)
    (listens : before.TriggersInHand code card kind rule) (allowance count : Nat)
    (room : (before.hand player).length + count ≤ before.settings.handSize) :
    ∃ after, before.Runs allowance (List.replicate count (.give player code)) after ∧
      (after.hand player).length = (before.hand player).length + count ∧
        after.deck player = before.deck player ∧
          before.triggers.active ⊆ after.triggers.active := by
  induction count generalizing before with
  | zero => exact ⟨before, runs_nil.mpr rfl, rfl, rfl, fun _ live => live⟩
  | succ count ih =>
      have first : (before.hand player).length < before.settings.handSize := by omega
      obtain ⟨middle, ran, receives⟩ := receives_give attentive listens allowance first
      have reaches : ReflTransGen Change before middle :=
        reaches_of_runs (runs_cons.mpr ⟨middle, ran, runs_nil.mpr rfl⟩)
      obtain ⟨settings, catalogue⟩ := Change.fixed_of_reaches reaches
      have grown := receives.hand
      have later : (middle.hand player).length + count ≤ middle.settings.handSize := by
        rw [settings]
        omega
      obtain ⟨after, runs, hand, deck, kept⟩ :=
        ih (Change.attentive_of_reaches reaches attentive) (listens.congr catalogue) later
      exact ⟨after, runs_cons.mpr ⟨middle, ran, runs⟩, by omega, deck.trans receives.deck,
        fun _ live => kept (receives.kept live)⟩

end Duel

/-- Whether a trigger reacts whenever a turn ends, as long as its owner is in a zone. -/
def Trigger.keepsTime (trigger : Trigger) (zone : ZoneKind) : Bool :=
  trigger.rule.listensFor = .turnEnd && trigger.rule.watches = .everyone &&
    trigger.rule.condition.isNone && trigger.rule.zone = zone

theorem Duel.hears_of_keepsTime {duel : Duel} {trigger : Trigger} {zone : ZoneKind}
    (keeps : trigger.keepsTime zone = true) (open' : zone ≠ .secret) (player : Player) :
    duel.Hears (Event.plain .turnEnd player) trigger = true := by
  simp only [Trigger.keepsTime, Bool.and_eq_true, decide_eq_true_eq, Option.isNone_iff_eq_none]
    at keeps
  obtain ⟨⟨⟨kind, watches⟩, condition⟩, there⟩ := keeps
  have away : trigger.rule.zone ≠ .secret := there ▸ open'
  simp [Hears, Trigger.matchesEvent, Trigger.sees, Event.plain, Event.subject, kind, watches,
    condition, away, Watch.seesTurnOf, EventKind.isTurnEvent]

namespace Duel

variable {duel : Duel} {event : Event} {first second : Trigger}

/-- Reactions are not in order if one of them goes before another one that ought to come first. -/
theorem not_pairwise_comes (attentive : duel.Attentive) (indexed : duel.triggers.Indexed)
    (reacts : first ∈ duel.reactionsTo event) (reactsToo : second ∈ duel.reactionsTo event)
    (precedes : first.precedes duel.triggerView second = true)
    (late : duel.Comes second first) : ¬ (duel.reactionsTo event).Pairwise duel.Comes := by
  intro ordered
  have ranked := pairwise_precedes_reactionsTo attentive indexed event
  have both := List.pairwise_iff_getElem.mp (ranked.and ordered)
  obtain ⟨place, inside, rfl⟩ := List.getElem_of_mem reacts
  obtain ⟨other, insideToo, rfl⟩ := List.getElem_of_mem reactsToo
  rcases Nat.lt_trichotomy place other with before | same | after
  · exact List.lt_asymm late (both place other inside insideToo before).2
  · subst same
    exact List.lt_irrefl _ late
  · have reverse := (both other place insideToo inside after).1
    rw [Trigger.precedes_iff] at precedes reverse
    omega

/-- A trigger of the deck goes before one of the hand that is too far down, though it ought to come
later. -/
theorem not_pairwise_comes_of_far {player : Player} {place far : Nat}
    (attentive : duel.Attentive) (indexed : duel.triggers.Indexed)
    (reacts : first ∈ duel.reactionsTo event) (reactsToo : second ∈ duel.reactionsTo event)
    (decked : (duel.deck player)[place]? = some first.owner)
    (held : (duel.hand player)[far]? = some second.owner) (beyond : place + 100 < far) :
    ¬ (duel.reactionsTo event).Pairwise duel.Comes := by
  have consistent := attentive.placed.consistent
  obtain ⟨one, known, zone, position, owner⟩ :=
    consistent.recorded player .deck (by decide) place first.owner decked
  obtain ⟨two, knownToo, zoneToo, positionToo, ownerToo⟩ :=
    consistent.recorded player .hand (by decide) far second.owner held
  have row : one.row = 4 := by rw [Entity.row, zone]
  have rowToo : two.row = 3 := by rw [Entity.row, zoneToo]
  have lateness {trigger : Trigger} {entity : Entity} (reacts : trigger ∈ duel.reactionsTo event)
      (known : duel.entity? trigger.owner = some entity) (owner : entity.owner = player) :
      trigger.lateness duel.triggerView = if player = duel.triggerView.current then 0 else 1 := by
    have live := List.mem_of_mem_filter
      ((reactionsTo_perm attentive indexed event).mem_iff.mp reacts)
    obtain ⟨there, knownThere, -, controller, -⟩ :=
      attentive.listening.agree.owned trigger live
    cases known.symm.trans knownThere
    rw [Trigger.lateness, ← controller, owner]
  have side : first.lateness duel.triggerView = second.lateness duel.triggerView :=
    (lateness reacts known owner).trans (lateness reactsToo knownToo ownerToo).symm
  have sooner : duel.rank first.owner < duel.rank second.owner := by
    have rank := (rank_of_entity? known).2.2
    have rankToo := (rank_of_entity? knownToo).2.2
    omega
  refine not_pairwise_comes attentive indexed reacts reactsToo
    (Trigger.precedes_iff.mpr (.inr ⟨side, .inl sooner⟩))
    ((comes_iff knownToo known).mpr (.inr ⟨side.symm, .inl ?_⟩))
  omega

/-- Player zero, who holds four cards, is given 98 criers; the herald stays in the deck. -/
theorem exists_crowded :
    ∃ start now, Duel.create (Settings.heralds 200) Catalogue.heralds = .ok start ∧
      start.Runs 100 (.start :: List.replicate 98 (.give .zero "CRIER")) now ∧
        (∃ herald ∈ now.triggers.active, herald.keepsTime .deck = true ∧
          (now.deck .zero)[0]? = some herald.owner) ∧
        ∃ crier ∈ now.triggers.active, crier.keepsTime .hand = true ∧
          (now.hand .zero)[101]? = some crier.owner := by
  obtain ⟨start, before, created, runs, comes⟩ :=
    exists_of_outcome (Settings.heralds 200) Catalogue.heralds 100 [.start]
      (fun before => (before.hand .zero).length = 4 && before.deck .zero = [⟨4⟩] &&
        before.triggers.active.any fun trigger => trigger.owner = ⟨4⟩ && trigger.keepsTime .deck)
      (by decide +kernel)
  simp only [Bool.and_eq_true, decide_eq_true_eq, List.any_eq_true] at comes
  obtain ⟨⟨few, bottom⟩, herald, live, own, keeps⟩ := comes
  have reaches := reaches_of_runs runs
  obtain ⟨settings, catalogue⟩ := Change.fixed_of_reaches reaches
  obtain ⟨settingsStart, catalogueStart⟩ := fixed_of_created created
  have roomy : before.settings.handSize = 200 := by
    rw [settings, settingsStart]
    rfl
  obtain ⟨attentive, -⟩ := indexed_of_created created reaches
  have listens : before.TriggersInHand "CRIER" (Card.spell ⟨4⟩ "CRIER" "" 0) .spell
      ⟨.turnEnd, .everyone, [.setTag .hero .counter 2], none, false, .hand⟩ := by
    rw [catalogueStart] at catalogue
    refine ⟨?_, ?_, rfl, rfl, ?_, rfl⟩
    · rw [catalogue]
      rfl
    · rw [catalogue]
      rfl
    · rw [ruleOf, catalogue]
      rfl
  -- All criers but one come to the hand, and then the last one.
  have room : (before.hand .zero).length + 97 ≤ before.settings.handSize := by omega
  obtain ⟨middle, gives, full, deck, kept⟩ := exists_gives attentive listens 100 97 room
  obtain ⟨attentiveMiddle, -⟩ :=
    indexed_of_created created (reaches.trans (reaches_of_runs gives))
  obtain ⟨settingsMiddle, catalogueMiddle⟩ := Change.fixed_of_reaches (reaches_of_runs gives)
  have roomMiddle : (middle.hand .zero).length < middle.settings.handSize := by
    rw [settingsMiddle]
    omega
  obtain ⟨now, ran, receives⟩ :=
    receives_give attentiveMiddle (listens.congr catalogueMiddle) 100 roomMiddle
  have all : start.Runs 100 (.start :: List.replicate 98 (.give .zero "CRIER")) now := by
    have later := runs_append.mpr ⟨middle, gives, runs_cons.mpr ⟨now, ran, runs_nil.mpr rfl⟩⟩
    rw [← List.replicate_succ'] at later
    exact runs_append.mpr ⟨before, runs, later⟩
  refine ⟨start, now, created, all, ⟨herald, receives.kept (kept live), keeps, ?_⟩, ?_⟩
  · rw [receives.deck, deck, bottom, own]
    rfl
  · obtain ⟨crier, liveToo, ruled, last⟩ := receives.listens
    refine ⟨crier, liveToo, ?_, ?_⟩
    · unfold Trigger.keepsTime
      rw [ruled]
      rfl
    · rwa [full, few] at last

/-- The herald, which is at place zero of the deck, reacts before a crier that is at place 101 of
the hand. -/
theorem not_ordered_heralds :
    ∃ start now, Duel.create (Settings.heralds 200) Catalogue.heralds = .ok start ∧
      start.Runs 100 (.start :: List.replicate 98 (.give .zero "CRIER")) now ∧
        ReflTransGen Change start now ∧
          ¬ (now.reactionsTo (Event.plain .turnEnd .zero)).Pairwise now.Comes := by
  obtain ⟨start, now, created, runs, ⟨herald, live, keeps, bottom⟩, crier, liveToo, keepsToo,
    last⟩ := exists_crowded
  have reaches := reaches_of_runs runs
  obtain ⟨attentive, indexed⟩ := indexed_of_created created reaches
  have reacts {trigger : Trigger} {zone : ZoneKind} (live : trigger ∈ now.triggers.active)
      (keeps : trigger.keepsTime zone = true) (open' : zone ≠ .secret) :
      trigger ∈ now.reactionsTo (Event.plain .turnEnd .zero) :=
    (reactionsTo_perm attentive indexed _).mem_iff.mpr
      (List.mem_filter.mpr ⟨live, hears_of_keepsTime keeps open' .zero⟩)
  exact ⟨start, now, created, runs, reaches, not_pairwise_comes_of_far attentive indexed
    (reacts live keeps (by decide)) (reacts liveToo keepsToo (by decide)) bottom last (by decide)⟩

end Duel

end CardDuel
