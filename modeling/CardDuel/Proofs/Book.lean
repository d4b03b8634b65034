import CardDuel.Trigger.Book
import Mathlib.Data.List.Nodup

/-!
# Handles of the book of triggers

Every live trigger has a handle of its own, and handles are never used again.  So a
trigger that is struck out takes no other with it.
-/

namespace CardDuel

namespace Trigger

theorem insertInOrder_perm (view : TriggerView) (trigger : Trigger) (triggers : List Trigger) :
    (insertInOrder view trigger triggers).Perm (trigger :: triggers) := by
  induction triggers with
  | nil => exact .refl _
  | cons first triggers ih =>
      unfold insertInOrder
      split
      · exact .refl _
      · exact (ih.cons first).trans (.swap trigger first triggers)

theorem inOrder_perm (view : TriggerView) (triggers : List Trigger) :
    (inOrder view triggers).Perm triggers := by
  induction triggers with
  | nil => exact .refl _
  | cons first triggers ih => exact (insertInOrder_perm view first _).trans (ih.cons first)

end Trigger

namespace TriggerBook

variable {book : TriggerBook} {owner other : EntityId}

/-- No two live triggers share a handle, and the next handle is a new one. -/
structure WellKept (book : TriggerBook) : Prop where
  nodup : (book.active.map Trigger.id).Nodup
  issued : ∀ trigger ∈ book.active, trigger.id.number < book.next

theorem wellKept_empty : empty.WellKept :=
  ⟨List.nodup_nil, fun _ => nofun⟩

theorem mem_ownedBy {trigger : Trigger} :
    trigger ∈ book.ownedBy owner ↔ trigger ∈ book.active ∧ trigger.owner = owner := by
  rw [ownedBy, List.mem_filter, decide_eq_true_eq]

theorem active_unregister (book : TriggerBook) (id : TriggerId) :
    (book.unregister id).active = book.active.filter fun trigger => trigger.id ≠ id := by
  unfold unregister strike
  split
  next unknown =>
    refine (List.filter_eq_self.mpr fun trigger live => ?_).symm
    simpa using List.find?_eq_none.mp unknown trigger live
  next => rfl

theorem next_unregister (book : TriggerBook) (id : TriggerId) :
    (book.unregister id).next = book.next := by
  unfold unregister strike
  split <;> rfl

theorem WellKept.unregister (kept : book.WellKept) (id : TriggerId) :
    (book.unregister id).WellKept := by
  constructor
  · rw [active_unregister]
    exact kept.nodup.sublist ((List.filter_sublist).map _)
  · intro trigger live
    rw [active_unregister] at live
    rw [next_unregister]
    exact kept.issued trigger (List.mem_of_mem_filter live)

theorem WellKept.register (kept : book.WellKept) (owner : EntityId) (controller : Player)
    (rule : TriggerRule) : (book.register owner controller rule).WellKept := by
  constructor
  · change ((book.active ++ [_]).map Trigger.id).Nodup
    rw [List.map_append, List.nodup_append]
    refine ⟨kept.nodup, List.nodup_singleton _, ?_⟩
    rintro id old _ new rfl
    obtain ⟨trigger, live, rfl⟩ := List.mem_map.mp old
    have issued := kept.issued trigger live
    rw [List.map_singleton, List.mem_singleton] at new
    rw [new] at issued
    exact Nat.lt_irrefl _ issued
  · intro trigger live
    change trigger.id.number < book.next + 1
    rcases List.mem_append.mp live with old | new
    · exact Nat.lt_succ_of_lt (kept.issued trigger old)
    · rw [List.mem_singleton.mp new]
      exact Nat.lt_succ_self _

theorem active_strikeOut (struck : List Trigger) (book : TriggerBook) :
    (struck.foldl (fun book trigger => book.unregister trigger.id) book).active =
      book.active.filter fun trigger => struck.all fun other => trigger.id ≠ other.id := by
  induction struck generalizing book with
  | nil => simp
  | cons first struck ih =>
      rw [List.foldl_cons, ih, active_unregister, List.filter_filter]
      apply List.filter_congr
      intro trigger _
      rw [List.all_cons, Bool.and_comm]

theorem WellKept.strikeOut (kept : book.WellKept) (struck : List Trigger) :
    (struck.foldl (fun book trigger => book.unregister trigger.id) book).WellKept := by
  induction struck generalizing book with
  | nil => exact kept
  | cons first struck ih => exact ih (kept.unregister first.id)

theorem WellKept.dropOwner (kept : book.WellKept) (owner : EntityId) :
    (book.dropOwner owner).WellKept :=
  kept.strikeOut _

/-- Live triggers with the same handle are the same. -/
theorem WellKept.ext {first second : Trigger} (kept : book.WellKept)
    (live : first ∈ book.active) (liveToo : second ∈ book.active) (same : first.id = second.id) :
    first = second :=
  List.inj_on_of_nodup_map kept.nodup live liveToo same

/-- Dropping an owner strikes out its triggers and no other. -/
theorem WellKept.active_dropOwner (kept : book.WellKept) (owner : EntityId) :
    (book.dropOwner owner).active = book.active.filter fun trigger => trigger.owner ≠ owner := by
  refine (active_strikeOut (book.ownedBy owner) book).trans ?_
  apply List.filter_congr
  intro trigger live
  rw [Bool.eq_iff_iff, List.all_eq_true, decide_eq_true_eq]
  constructor
  · intro spared own
    have struck := spared trigger (mem_ownedBy.mpr ⟨live, own⟩)
    simp at struck
  · intro away struck owned
    rw [decide_eq_true_eq]
    intro same
    obtain ⟨liveToo, own⟩ := mem_ownedBy.mp owned
    exact away (kept.ext live liveToo same ▸ own)

theorem WellKept.ownedBy_dropOwner (kept : book.WellKept) (owner other : EntityId) :
    (book.dropOwner owner).ownedBy other =
      if other = owner then [] else book.ownedBy other := by
  rw [ownedBy, kept.active_dropOwner, List.filter_filter]
  split
  next same =>
    rw [List.filter_eq_nil_iff]
    intro trigger _ both
    rw [Bool.and_eq_true, decide_eq_true_eq, decide_eq_true_eq] at both
    exact both.2 (both.1.trans same)
  next away =>
    apply List.filter_congr
    intro trigger _
    rw [Bool.eq_iff_iff, Bool.and_eq_true, decide_eq_true_eq, decide_eq_true_eq]
    exact ⟨And.left, fun own => ⟨own, fun struck => away (own.symm.trans struck)⟩⟩

theorem ownedBy_register (book : TriggerBook) (owner : EntityId) (controller : Player)
    (rule : TriggerRule) (other : EntityId) :
    (book.register owner controller rule).ownedBy other =
      if other = owner then book.ownedBy other ++ [⟨book.nextId, owner, controller, rule⟩]
      else book.ownedBy other := by
  change (book.active ++ [_]).filter _ = _
  rw [List.filter_append]
  split
  next same => simp [ownedBy, same]
  next away => simp [ownedBy, Ne.symm away]

/-- Striking out a trigger takes nothing from other owners. -/
theorem WellKept.ownedBy_unregister (kept : book.WellKept) {trigger : Trigger}
    (live : trigger ∈ book.active) (away : other ≠ trigger.owner) :
    (book.unregister trigger.id).ownedBy other = book.ownedBy other := by
  rw [ownedBy, active_unregister, List.filter_filter]
  apply List.filter_congr
  intro listed member
  rw [Bool.eq_iff_iff, Bool.and_eq_true, decide_eq_true_eq, decide_eq_true_eq]
  refine ⟨And.left, fun own => ⟨own, fun same => away ?_⟩⟩
  rw [← own, kept.ext member live same]

/-- A handle stands for a live trigger that has it, and there is no other one. -/
theorem WellKept.get?_eq_some_iff {trigger : Trigger} {id : TriggerId} (kept : book.WellKept) :
    book.get? id = some trigger ↔ trigger ∈ book.active ∧ trigger.id = id := by
  constructor
  · intro live
    exact ⟨List.mem_of_find?_eq_some live, by simpa using List.find?_some live⟩
  · rintro ⟨live, rfl⟩
    cases found : book.get? trigger.id with
    | none => simpa using List.find?_eq_none.mp found trigger live
    | some other =>
        have same : other.id = trigger.id := by simpa using List.find?_some found
        rw [kept.ext (List.mem_of_find?_eq_some found) live same]

theorem get?_eq_none_iff {id : TriggerId} :
    book.get? id = none ↔ ∀ trigger ∈ book.active, trigger.id ≠ id := by
  simp [get?]

theorem get?_unregister_self (book : TriggerBook) (id : TriggerId) :
    (book.unregister id).get? id = none := by
  rw [get?_eq_none_iff, active_unregister]
  intro trigger live
  simpa using (List.mem_filter.mp live).2

/-- Dropping its owner strikes a trigger out. -/
theorem WellKept.get?_dropOwner {trigger : Trigger} (kept : book.WellKept)
    (live : trigger ∈ book.active) : (book.dropOwner trigger.owner).get? trigger.id = none := by
  rw [get?_eq_none_iff, kept.active_dropOwner]
  intro other listed same
  obtain ⟨liveToo, away⟩ := List.mem_filter.mp listed
  rw [kept.ext liveToo live same] at away
  simp at away

theorem dropOwner_of_none (nothing : book.ownedBy owner = []) : book.dropOwner owner = book := by
  rw [dropOwner, dismiss, nothing, List.foldl_nil]

/-! ## Later books -/

/-- A book that another one has become: no handle was given out twice, and whoever is live was so
before or has a new handle. -/
structure Succeeds (after before : TriggerBook) : Prop where
  next : before.next ≤ after.next
  old : ∀ trigger ∈ after.active, trigger ∈ before.active ∨ before.next ≤ trigger.id.number

variable {before after last : TriggerBook}

theorem Succeeds.refl (book : TriggerBook) : book.Succeeds book :=
  ⟨Nat.le_refl _, fun _ => .inl⟩

theorem Succeeds.trans (second : last.Succeeds after) (first : after.Succeeds before) :
    last.Succeeds before where
  next := Nat.le_trans first.next second.next
  old trigger live := by
    rcases second.old trigger live with older | new
    · exact first.old trigger older
    · exact .inr (Nat.le_trans first.next new)

theorem succeeds_unregister (book : TriggerBook) (id : TriggerId) :
    (book.unregister id).Succeeds book where
  next := Nat.le_of_eq (book.next_unregister id).symm
  old trigger live := by
    rw [active_unregister] at live
    exact .inl (List.mem_of_mem_filter live)

theorem succeeds_register (book : TriggerBook) (owner : EntityId) (controller : Player)
    (rule : TriggerRule) : (book.register owner controller rule).Succeeds book where
  next := Nat.le_succ _
  old trigger live := by
    rcases List.mem_append.mp live with older | new
    · exact .inl older
    · rw [List.mem_singleton.mp new]
      exact .inr (Nat.le_refl _)

theorem succeeds_strikeOut (struck : List Trigger) (book : TriggerBook) :
    (struck.foldl (fun book trigger => book.unregister trigger.id) book).Succeeds book := by
  induction struck generalizing book with
  | nil => exact .refl book
  | cons first struck ih => exact (ih _).trans (book.succeeds_unregister first.id)

theorem succeeds_dropOwner (book : TriggerBook) (owner : EntityId) :
    (book.dropOwner owner).Succeeds book :=
  book.succeeds_strikeOut _

/-- A trigger with a handle that was given out already has been live all along. -/
theorem Succeeds.live {trigger : Trigger} {id : TriggerId} (succeeds : after.Succeeds before)
    (kept : before.WellKept) (issued : id.number < before.next)
    (live : after.get? id = some trigger) : before.get? id = some trigger := by
  have same : trigger.id = id := by simpa using List.find?_some live
  rcases succeeds.old trigger (List.mem_of_find?_eq_some live) with older | new
  · exact kept.get?_eq_some_iff.mpr ⟨older, same⟩
  · rw [same] at new
    omega

/-- A handle that was struck out stays so. -/
theorem Succeeds.struck {id : TriggerId} (succeeds : after.Succeeds before)
    (kept : before.WellKept) (issued : id.number < before.next) (struck : before.get? id = none) :
    after.get? id = none := by
  cases live : after.get? id with
  | none => rfl
  | some trigger => cases struck.symm.trans (succeeds.live kept issued live)

/-- Only live triggers react. -/
theorem live_of_mem_reactions {view : TriggerView} {event : Event} {trigger : Trigger}
    (reacts : trigger ∈ book.reactions view event) : book.get? trigger.id = some trigger := by
  have listed := List.mem_of_mem_filter ((Trigger.inOrder_perm view _).mem_iff.mp reacts)
  obtain ⟨id, -, live⟩ := List.mem_filterMap.mp listed
  have same : trigger.id = id := by simpa using List.find?_some live
  exact same ▸ live

end TriggerBook

end CardDuel
