import CardDuel.Proofs.Dispatch
import CardDuel.Word
import Mathlib.Data.List.Induction
import Mathlib.Data.Prod.Lex

/-!
# Calls on the book of triggers

A book is asked to register a rule, to strike a trigger out, and to strike out all triggers of an
entity.  Whatever it is asked, starting from an empty book, the live triggers stay in the order of
their handles.  So the index lists them by kind in that order, and the handles that were given out
are the numbers below the next one.  What a single call does to the live triggers is said once; a
trigger is live after some calls exactly when one of them registered it and none of the later ones
struck it out.
-/

namespace CardDuel

/-- What may be asked of a book of triggers. -/
inductive BookCall
  | register (owner : EntityId) (controller : Player) (rule : TriggerRule)
  | unregister (id : TriggerId)
  | dropOwner (owner : EntityId)

/-- Whether a call strikes out the trigger with a handle and an owner. -/
def BookCall.Strikes (call : BookCall) (id : TriggerId) (owner : EntityId) : Prop :=
  match call with
  | register .. => False
  | unregister other => other = id
  | dropOwner other => other = owner

/-- Whether a call asks for a registration. -/
def BookCall.registers : BookCall → Bool
  | register .. => true
  | unregister _ | dropOwner _ => false

/-- What a book answers. -/
inductive BookAnswer
  | handle (id : TriggerId)
  | struck (trigger : Option Trigger)
  | count (dropped : Nat)

/-- What may become of a handle in one call. -/
inductive TriggerStage.Becomes : TriggerStage → TriggerStage → Prop
  | stays (stage : TriggerStage) : Becomes stage stage
  | starts : Becomes .unregistered .active
  | ends : Becomes .active .removed

namespace Trigger

/-- By what triggers are put in order: the current player's first, then by the rank of the owner,
then by age. -/
def turn (view : TriggerView) (trigger : Trigger) : Bool ×ₗ ℕ ×ₗ ℕ :=
  toLex (decide (trigger.controller ≠ view.current),
    toLex (view.rank trigger.owner, trigger.id.number))

theorem precedes_iff_turn_lt {view : TriggerView} {first second : Trigger} :
    first.precedes view second = true ↔ first.turn view < second.turn view := by
  rw [precedes_iff, turn, turn, Prod.Lex.toLex_lt_toLex, Prod.Lex.toLex_lt_toLex]
  unfold lateness
  by_cases early : first.controller = view.current <;>
    by_cases earlyToo : second.controller = view.current <;> simp [early, earlyToo, Bool.lt_iff]

/-- Putting triggers with handles of their own in order is sorting them. -/
theorem inOrder_eq_mergeSort (view : TriggerView) {triggers : List Trigger}
    (distinct : (triggers.map Trigger.id).Nodup) :
    inOrder view triggers =
      triggers.mergeSort fun first second => first.turn view ≤ second.turn view := by
  have ordered : (inOrder view triggers).Pairwise fun one two => one.turn view ≤ two.turn view :=
    (pairwise_inOrder view distinct).imp fun before => (precedes_iff_turn_lt.mp before).le
  have sorted : (triggers.mergeSort fun first second =>
      first.turn view ≤ second.turn view).Pairwise fun one two =>
        decide (one.turn view ≤ two.turn view) = true := by
    refine List.pairwise_mergeSort (fun one two three before after => ?_)
      (fun one two => ?_) triggers
    · rw [decide_eq_true_eq] at before after ⊢
      exact before.trans after
    · rw [Bool.or_eq_true, decide_eq_true_eq, decide_eq_true_eq]
      exact le_total _ _
  refine List.Perm.eq_of_pairwise (fun one two member memberToo before after => ?_) ordered
    (sorted.imp of_decide_eq_true)
    ((inOrder_perm view triggers).trans (List.mergeSort_perm triggers _).symm)
  -- The handle is the last number of the turn.
  have same : one.id.number = two.id.number :=
    congrArg (fun turn => (ofLex (ofLex turn).2).2) (before.antisymm after)
  exact List.inj_on_of_nodup_map distinct ((inOrder_perm view triggers).mem_iff.mp member)
    ((List.mergeSort_perm triggers _).mem_iff.mp memberToo) (congrArg TriggerId.mk same)

end Trigger

/-! ## Rows -/

namespace TriggerIndex

variable {index : TriggerIndex} {kind : EventKind} {id : TriggerId}

/-- Whether no row is empty. -/
def Filled (index : TriggerIndex) : Prop :=
  ∀ row ∈ index, row.2 ≠ []

theorem Filled.insert (filled : index.Filled) : (index.insert kind id).Filled := by
  induction index with
  | nil =>
      intro row member
      rw [List.mem_singleton.mp member]
      exact List.cons_ne_nil _ _
  | cons first rows ih =>
      obtain ⟨here, later⟩ := List.forall_mem_cons.mp filled
      unfold TriggerIndex.insert
      split
      · exact List.forall_mem_cons.mpr ⟨by simp, later⟩
      · exact List.forall_mem_cons.mpr ⟨here, ih later⟩

theorem Filled.erase (filled : index.Filled) : (index.erase kind id).Filled := by
  intro row member
  obtain ⟨before, listed, kept⟩ := List.mem_filterMap.mp member
  split at kept
  · dsimp only at kept
    split at kept
    · cases kept
    next some =>
      cases kept
      exact List.isEmpty_iff.not.mp some
  · cases kept
    exact filled _ listed

end TriggerIndex

namespace TriggerBook

variable {book : TriggerBook} {trigger : Trigger} {id : TriggerId} {owner : EntityId}
variable {call : BookCall} {calls : List BookCall}

/-! ## One call -/

/-- Ask a book something. -/
def ask (book : TriggerBook) : BookCall → BookAnswer × TriggerBook
  | .register owner controller rule =>
    let (handle, left) := book.enroll owner controller rule
    (.handle handle, left)
  | .unregister handle =>
    let (struck, left) := book.strike handle
    (.struck struck, left)
  | .dropOwner owner =>
    let (dropped, left) := book.dismiss owner
    (.count dropped, left)

/-- The book that a call leaves behind. -/
def obey (book : TriggerBook) (call : BookCall) : TriggerBook :=
  (book.ask call).2

def answer (book : TriggerBook) (call : BookCall) : BookAnswer :=
  (book.ask call).1

/-- The live triggers are in the order of their handles, and the index lists them by kind. -/
structure Tidy (book : TriggerBook) : Prop where
  kept : book.WellKept
  indexed : book.Indexed
  ascending : book.active.Pairwise fun first second => first.id.number < second.id.number
  filled : book.index.Filled

theorem tidy_empty : empty.Tidy :=
  ⟨wellKept_empty, indexed_empty, .nil, fun _ => nofun⟩

theorem Tidy.register (tidy : book.Tidy) (owner : EntityId) (controller : Player)
    (rule : TriggerRule) : (book.register owner controller rule).Tidy where
  kept := tidy.kept.register owner controller rule
  indexed := tidy.indexed.register owner controller rule
  ascending := by
    refine List.pairwise_append.mpr ⟨tidy.ascending, List.pairwise_singleton _ _, ?_⟩
    intro old live new last
    rw [List.mem_singleton.mp last]
    exact tidy.kept.issued old live
  filled := tidy.filled.insert

theorem Tidy.unregister (tidy : book.Tidy) (id : TriggerId) : (book.unregister id).Tidy where
  kept := tidy.kept.unregister id
  indexed := tidy.indexed.unregister tidy.kept id
  ascending := by
    rw [active_unregister]
    exact tidy.ascending.filter _
  filled := by
    unfold TriggerBook.unregister strike
    split
    · exact tidy.filled
    · exact tidy.filled.erase

theorem Tidy.strikeOut (tidy : book.Tidy) (struck : List Trigger) :
    (struck.foldl (fun book trigger => book.unregister trigger.id) book).Tidy := by
  induction struck generalizing book with
  | nil => exact tidy
  | cons first struck ih => exact ih (tidy.unregister first.id)

theorem Tidy.obey (tidy : book.Tidy) (call : BookCall) : (book.obey call).Tidy := by
  cases call with
  | register owner controller rule => exact tidy.register owner controller rule
  | unregister id => exact tidy.unregister id
  | dropOwner owner => exact tidy.strikeOut _

/-- Who is live after a call was so before and is not struck out, or is registered by it. -/
theorem WellKept.mem_active_obey (kept : book.WellKept) :
    trigger ∈ (book.obey call).active ↔
      trigger ∈ book.active ∧ ¬ call.Strikes trigger.id trigger.owner ∨
        call = .register trigger.owner trigger.controller trigger.rule ∧
          book.nextId = trigger.id := by
  cases call with
  | register owner controller rule =>
      change trigger ∈ book.active ++ [_] ↔ _
      rw [List.mem_append, List.mem_singleton]
      refine or_congr (iff_self_and.mpr fun _ => not_false) ?_
      rw [BookCall.register.injEq]
      constructor
      · rintro rfl
        exact ⟨⟨rfl, rfl, rfl⟩, rfl⟩
      · rintro ⟨⟨rfl, rfl, rfl⟩, same⟩
        rw [same]
  | unregister id =>
      change trigger ∈ (book.unregister id).active ↔ _
      rw [active_unregister, List.mem_filter, decide_eq_true_eq,
        or_iff_left fun registered => nomatch registered.1]
      exact and_congr_right fun _ => not_congr eq_comm
  | dropOwner owner =>
      change trigger ∈ (book.dropOwner owner).active ↔ _
      rw [kept.active_dropOwner, List.mem_filter, decide_eq_true_eq,
        or_iff_left fun registered => nomatch registered.1]
      exact and_congr_right fun _ => not_congr eq_comm

theorem next_dropOwner (book : TriggerBook) (owner : EntityId) :
    (book.dropOwner owner).next = book.next := by
  have struck (triggers : List Trigger) (book : TriggerBook) :
      (triggers.foldl (fun book trigger => book.unregister trigger.id) book).next = book.next := by
    induction triggers generalizing book with
    | nil => rfl
    | cons first triggers ih => exact (ih _).trans (book.next_unregister first.id)
  exact struck _ book

theorem succeeds_obey (book : TriggerBook) (call : BookCall) : (book.obey call).Succeeds book := by
  cases call with
  | register owner controller rule => exact book.succeeds_register owner controller rule
  | unregister id => exact book.succeeds_unregister id
  | dropOwner owner => exact book.succeeds_dropOwner owner

/-! ## Stages -/

theorem stage_eq_active_iff : book.stage id = .active ↔ ∃ trigger, book.get? id = some trigger := by
  unfold stage
  rw [← Option.isSome_iff_exists]
  split
  next live => exact iff_of_true rfl live
  next idle =>
    refine iff_of_false (fun same => ?_) idle
    split at same <;> cases same

theorem WellKept.lt_next (kept : book.WellKept) (live : book.get? id = some trigger) :
    id.number < book.next := by
  obtain ⟨member, rfl⟩ := kept.get?_eq_some_iff.mp live
  exact kept.issued trigger member

/-- A handle that was not given out yet is unregistered. -/
theorem WellKept.stage_eq_unregistered_iff (kept : book.WellKept) :
    book.stage id = .unregistered ↔ book.next ≤ id.number := by
  unfold stage
  split
  next live =>
    obtain ⟨trigger, found⟩ := Option.isSome_iff_exists.mp live
    exact iff_of_false nofun (Nat.not_le.mpr (kept.lt_next found))
  · split
    next old => exact iff_of_false nofun (Nat.not_le.mpr old)
    next new => exact iff_of_true rfl (Nat.not_lt.mp new)

/-- A handle is unregistered, then active, then removed, and no call goes back or skips a stage. -/
theorem WellKept.becomes_obey (kept : book.WellKept) (keeps : (book.obey call).WellKept) :
    (book.stage id).Becomes ((book.obey call).stage id) := by
  have succeeds := book.succeeds_obey call
  rcases Nat.lt_or_ge id.number book.next with old | new
  · have oldToo := Nat.lt_of_lt_of_le old succeeds.next
    cases live : book.get? id with
    | none =>
        have struck := succeeds.struck kept old live
        simp only [stage, live, struck, Option.isSome_none, Bool.false_eq_true, if_false, old,
          oldToo, if_true]
        exact .stays _
    | some trigger =>
        rw [stage_eq_active_iff.mpr ⟨trigger, live⟩]
        unfold stage
        rw [if_pos oldToo]
        split
        · exact .stays _
        · exact .ends
  · rw [kept.stage_eq_unregistered_iff.mpr new]
    cases later : (book.obey call).stage id with
    | unregistered => exact .stays _
    | active => exact .starts
    | removed =>
        -- Only a registration gives a handle out, and then the trigger is live.
        exfalso
        have given : ¬ (book.obey call).next ≤ id.number := fun still => by
          cases later.symm.trans (keeps.stage_eq_unregistered_iff.mpr still)
        cases call with
        | register owner controller rule =>
            have last : book.nextId = id := by
              change ¬ book.next + 1 ≤ id.number at given
              exact congrArg TriggerId.mk (by omega : book.next = id.number)
            have live : (book.obey (.register owner controller rule)).get? id =
                some ⟨id, owner, controller, rule⟩ :=
              keeps.get?_eq_some_iff.mpr ⟨kept.mem_active_obey.mpr (.inr ⟨rfl, last⟩), rfl⟩
            cases later.symm.trans (stage_eq_active_iff.mpr ⟨_, live⟩)
        | unregister other => exact given ((book.next_unregister other).symm ▸ new)
        | dropOwner owner => exact given ((book.next_dropOwner owner).symm ▸ new)

/-! ## Calls one after the other -/

/-- The book after some calls. -/
def afterCalls (book : TriggerBook) (calls : List BookCall) : TriggerBook :=
  calls.foldl obey book

/-- What a book answers to some calls, one after the other. -/
def answers (book : TriggerBook) : List BookCall → List BookAnswer
  | [] => []
  | call :: calls => book.answer call :: (book.obey call).answers calls

/-- The handles that are given out in some calls, in this order. -/
def issued (book : TriggerBook) (calls : List BookCall) : List TriggerId :=
  (book.answers calls).filterMap fun
    | .handle id => some id
    | .struck _ | .count _ => none

theorem afterCalls_concat (book : TriggerBook) (calls : List BookCall) (call : BookCall) :
    book.afterCalls (calls ++ [call]) = (book.afterCalls calls).obey call :=
  List.foldl_concat obey book call calls

theorem Tidy.afterCalls (tidy : book.Tidy) (calls : List BookCall) :
    (book.afterCalls calls).Tidy := by
  induction calls generalizing book with
  | nil => exact tidy
  | cons call calls ih => exact ih (tidy.obey call)

theorem answers_concat (book : TriggerBook) (calls : List BookCall) (call : BookCall) :
    book.answers (calls ++ [call]) =
      book.answers calls ++ [(book.afterCalls calls).answer call] := by
  induction calls generalizing book with
  | nil => rfl
  | cons first calls ih => exact congrArg (book.answer first :: ·) (ih (book.obey first))

/-- Handles are given out in the order of their numbers, and none is left out. -/
theorem numbers_issued (calls : List BookCall) :
    (empty.issued calls).map TriggerId.number = List.range (empty.afterCalls calls).next := by
  induction calls using List.reverseRecOn with
  | nil => rfl
  | append_singleton calls call ih =>
      rw [issued, answers_concat, List.filterMap_append, List.map_append, afterCalls_concat]
      change (empty.issued calls).map TriggerId.number ++ _ = _
      rw [ih]
      cases call with
      | register owner controller rule => exact List.range_succ.symm
      | unregister id =>
          change _ ++ [] = List.range ((empty.afterCalls calls).unregister id).next
          rw [next_unregister, List.append_nil]
      | dropOwner owner =>
          change _ ++ [] = List.range ((empty.afterCalls calls).dropOwner owner).next
          rw [next_dropOwner, List.append_nil]

/-- The number of the next handle is that of the registrations. -/
theorem next_afterCalls (calls : List BookCall) :
    (empty.afterCalls calls).next = calls.countP BookCall.registers := by
  induction calls using List.reverseRecOn with
  | nil => rfl
  | append_singleton calls call ih =>
      rw [afterCalls_concat, List.countP_append, ← ih]
      cases call with
      | register owner controller rule => rfl
      | unregister id => exact next_unregister _ id
      | dropOwner owner => exact next_dropOwner _ owner

theorem mem_issued_iff (calls : List BookCall) :
    id ∈ empty.issued calls ↔ id.number < (empty.afterCalls calls).next := by
  rw [← List.mem_range, ← numbers_issued]
  exact (List.mem_map_of_injective fun one two same => congrArg TriggerId.mk same).symm

/-- A trigger is live exactly if one of the calls registered it and none of the later ones struck it
out. -/
theorem mem_active_afterCalls_iff (calls : List BookCall) :
    trigger ∈ (empty.afterCalls calls).active ↔
      ∃ earlier later,
        calls = earlier ++
          .register trigger.owner trigger.controller trigger.rule :: later ∧
          (empty.afterCalls earlier).nextId = trigger.id ∧
            ∀ call ∈ later, ¬ call.Strikes trigger.id trigger.owner := by
  induction calls using List.reverseRecOn with
  | nil =>
      refine iff_of_false nofun ?_
      rintro ⟨earlier, later, whole, -⟩
      exact List.append_ne_nil_of_right_ne_nil earlier (List.cons_ne_nil _ later) whole.symm
  | append_singleton calls call ih =>
      rw [afterCalls_concat, (tidy_empty.afterCalls calls).kept.mem_active_obey, ih]
      constructor
      · rintro (⟨⟨earlier, later, rfl, fresh, spared⟩, spares⟩ | ⟨rfl, fresh⟩)
        · refine ⟨earlier, later ++ [call], by simp, fresh, fun other member => ?_⟩
          rcases List.mem_append.mp member with before | last
          · exact spared other before
          · rw [List.mem_singleton.mp last]
            exact spares
        · exact ⟨calls, [], rfl, fresh, fun _ => nofun⟩
      · rintro ⟨earlier, later, whole, fresh, spared⟩
        induction later using List.reverseRecOn with
        | nil =>
            obtain ⟨rfl, same⟩ := List.append_inj' whole rfl
            exact .inr ⟨List.head_eq_of_cons_eq same, fresh⟩
        | append_singleton later last _ =>
            rw [← List.cons_append, ← List.append_assoc] at whole
            obtain ⟨rfl, same⟩ := List.append_inj' whole rfl
            obtain rfl := List.head_eq_of_cons_eq same
            exact .inl ⟨⟨earlier, later, rfl, fresh, fun other member =>
              spared other (List.mem_append_left _ member)⟩, spared call (by simp)⟩

/-! ## What a book records -/

/-- What a book is after some calls on an empty one. -/
structure Records (book : TriggerBook) (calls : List BookCall) : Prop where
  /-- The list of a kind of event holds the live triggers that listen for it. -/
  listed : ∀ kind id, id ∈ book.index.listeners kind ↔
    ∃ trigger, book.get? id = some trigger ∧ trigger.rule.listensFor = kind
  /-- It holds each of them once, in the order of their handles. -/
  ascending : ∀ kind, (book.index.listeners kind).Pairwise fun first second =>
    first.number < second.number
  /-- No kind has two lists, and no list is empty. -/
  rows : book.index.kinds.Nodup ∧ ∀ row ∈ book.index, row.2 ≠ []
  /-- Each handle that was given out is larger than all before it. -/
  issued : (empty.issued calls).Pairwise fun first second => first.number < second.number
  /-- A word holds the next handle and all that were given out, as long as it holds the number of
  registrations. -/
  words : calls.countP BookCall.registers < 0x100000000 →
    Word.unsigned book.next = book.next ∧
      ∀ id ∈ empty.issued calls, Word.unsigned id.number = id.number
  unregistered : ∀ id, book.stage id = .unregistered ↔ id ∉ empty.issued calls
  /-- A handle is active from the call that gave it out until one strikes it out. -/
  active : ∀ id, book.stage id = .active ↔
    ∃ earlier owner controller rule later,
      calls = earlier ++ .register owner controller rule :: later ∧
        (empty.afterCalls earlier).answer (.register owner controller rule) = .handle id ∧
          ∀ call ∈ later, ¬ call.Strikes id owner
  /-- No call takes a handle back to an earlier stage or past one. -/
  becomes : ∀ call id, (book.stage id).Becomes ((book.obey call).stage id)
  /-- Dropping an owner strikes out its triggers, and the answer is how many there were. -/
  dropped : ∀ owner,
    (book.obey (.dropOwner owner)).active =
        book.active.filter (fun trigger => trigger.owner ≠ owner) ∧
      book.answer (.dropOwner owner) =
        .count (book.active.countP fun trigger => trigger.owner = owner)
  /-- The reactions to an event are sorted out of all live triggers. -/
  reactions : ∀ view event, book.reactions view event =
    (book.active.filter fun trigger =>
      trigger.rule.listensFor = event.kind && trigger.matchesEvent view event).mergeSort
        fun first second => first.turn view ≤ second.turn view

/-- Whatever an empty book is asked, it records what is live. -/
theorem records_afterCalls (calls : List BookCall) :
    (empty.afterCalls calls).Records calls := by
  obtain ⟨kept, indexed, ascending, filled⟩ := tidy_empty.afterCalls calls
  constructor
  case listed =>
    intro kind id
    rw [indexed.listed, List.mem_map]
    refine exists_congr fun trigger => ?_
    rw [kept.get?_eq_some_iff, List.mem_filter, decide_eq_true_eq, and_right_comm]
  case ascending =>
    intro kind
    rw [indexed.listed, List.pairwise_map]
    exact ascending.filter _
  case rows => exact ⟨indexed.distinct, filled⟩
  case issued =>
    refine List.pairwise_map.mp ?_
    rw [numbers_issued]
    exact List.pairwise_lt_range
  case words =>
    intro few
    rw [← next_afterCalls] at few
    refine ⟨Word.unsigned_of_lt few, fun id given => Word.unsigned_of_lt ?_⟩
    exact ((mem_issued_iff calls).mp given).trans few
  case unregistered =>
    intro id
    rw [kept.stage_eq_unregistered_iff, mem_issued_iff, Nat.not_lt]
  case active =>
    intro id
    rw [stage_eq_active_iff]
    constructor
    · rintro ⟨trigger, live⟩
      obtain ⟨member, rfl⟩ := kept.get?_eq_some_iff.mp live
      obtain ⟨earlier, later, whole, fresh, spared⟩ := (mem_active_afterCalls_iff calls).mp member
      exact ⟨earlier, _, _, _, later, whole, congrArg BookAnswer.handle fresh, spared⟩
    · rintro ⟨earlier, owner, controller, rule, later, whole, given, spared⟩
      have fresh : (empty.afterCalls earlier).nextId = id := BookAnswer.handle.inj given
      exact ⟨⟨id, owner, controller, rule⟩, kept.get?_eq_some_iff.mpr
        ⟨(mem_active_afterCalls_iff calls).mpr ⟨earlier, later, whole, fresh, spared⟩, rfl⟩⟩
  case becomes =>
    intro call id
    refine kept.becomes_obey ?_
    rw [← afterCalls_concat]
    exact (tidy_empty.afterCalls _).kept
  case dropped =>
    intro owner
    refine ⟨kept.active_dropOwner owner, ?_⟩
    rw [List.countP_eq_length_filter]
    rfl
  case reactions =>
    intro view event
    rw [indexed.reactions_eq kept view event]
    exact Trigger.inOrder_eq_mergeSort view (kept.nodup.sublist (List.filter_sublist.map _))

end TriggerBook

end CardDuel
