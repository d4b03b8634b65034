import CardDuel.Proofs.Calls
import CardDuel.Proofs.Interruptions

/-!
# The history of a match

A request is refused and leaves no trace, or it is put on record before anything else happens.
Nothing but a request writes into the history, so the records of a match are numbered in the
order in which they were made, and their turns never decrease.
-/

namespace CardDuel

open Relation

namespace Duel

/-- Whether nothing has been put on record in between. -/
def Unrecorded (before after : Duel) : Prop :=
  after.history = before.history

theorem Unrecorded.of_shift {before after : Duel} (shift : Shift before after) :
    before.Unrecorded after :=
  congrArg Control.history shift.control

instance : Placing Unrecorded where
  roll duel dice := .of_shift (Rolling.roll duel dice)
  relocate duel _ _ _ placement known allowed room :=
    .of_shift (Placing.relocate duel placement known allowed room)
  create duel owner _ _ _ listed instantiable :=
    .of_shift (Placing.create duel owner listed instantiable)

/-- Whatever an accepted request sets off, it writes nothing into the history. -/
instance : Directing Unrecorded fun _ => True where
  revise duel id _ peaceful := .of_shift (Revising.revise duel id peaceful)
  strike duel _ _ known := .of_shift (Revising.strike duel known)
  heal duel _ _ amount known := .of_shift (Revising.heal duel amount known)
  silence duel id := .of_shift (Revising.silence duel id)
  transform duel _ _ _ _ known listed kind :=
    .of_shift (Revising.transform duel known listed kind)
  auras duel := .of_shift (Revising.auras duel)
  expire duel := .of_shift (Revising.expire duel)
  fall duel fallen := .of_shift (Revising.fall duel fallen)
  adjust duel player _ routine := .of_shift (Revising.adjust duel player routine)
  announce _ _ _ := rfl
  remind _ _ _ := rfl
  arrive duel _ _ placement known allowed room :=
    ReflTransGen.mono (fun _ _ => .of_shift) _ _ (Shifting.arrive duel placement known allowed room)
  handOver duel _ _ _ known other := .of_shift (Shifting.handOver duel known other)
  shuffle duel player _ _ container reordered :=
    .of_shift (Shifting.shuffle duel player container reordered)
  outlive _ _ _ player known := reaches_outlived player (fun _ _ => rfl) known
  inherits := Effect.hereditary_true
  assume duel := .inl duel.fits_true
  write _ _ _ _ _ _ := rfl
  award _ _ _ _ _ := rfl
  lend _ _ _ _ := rfl
  bury _ _ _ known _ := reaches_buried (fun _ _ => rfl) (fun _ => rfl) known
  refresh _ _ _ := rfl
  fire _ _ _ _ _ := rfl
  choose _ _ _ := rfl
  suspend _ _ _ := rfl
  schedule _ _ _ := rfl
  begin _ _ _ _ := rfl
  herald _ _ _ _ := .single rfl
  clear _ := rfl
  finish _ _ := rfl
  concede _ _ := rfl
  enter duel target := reaches_entering_of duel target rfl rfl fun _ => rfl

theorem Unrecorded.of_reaches {before after : Duel}
    (reaches : ReflTransGen Unrecorded before after) : before.Unrecorded after := by
  induction reaches with
  | refl => rfl
  | tail _ last ih => exact Eq.trans last ih

/-- The records are numbered from zero, and the turns in them never decrease. -/
structure Chronicled (duel : Duel) : Prop where
  numbered : ∀ (index : Nat) record, duel.history[index]? = some record → record.sequence = index
  ordered : duel.history.Pairwise fun earlier later => earlier.turn ≤ later.turn
  /-- No record is of a turn to come. -/
  past : ∀ record ∈ duel.history, record.turn ≤ duel.turn

theorem chronicled_of_nil {duel : Duel} (nothing : duel.history = []) : duel.Chronicled where
  numbered index record found := by
    rw [nothing] at found
    cases found
  ordered := by
    rw [nothing]
    exact .nil
  past record member := by
    rw [nothing] at member
    cases member

theorem Chronicled.later {before after : Duel} (chronicled : before.Chronicled)
    (same : before.Unrecorded after) (later : before.turn ≤ after.turn) : after.Chronicled where
  numbered := by
    rw [same]
    exact chronicled.numbered
  ordered := by
    rw [same]
    exact chronicled.ordered
  past record member := by
    rw [same] at member
    exact Nat.le_trans (chronicled.past record member) later

theorem Chronicled.record {duel : Duel} (chronicled : duel.Chronicled) (player : Player)
    (action : Action) : (Play.record player action duel).Chronicled where
  numbered index record found := by
    have found : (duel.history ++ [⟨player, action, duel.turn, duel.history.length⟩])[index]? =
      some record := found
    rw [List.getElem?_append] at found
    split at found
    · exact chronicled.numbered index record found
    next beyond =>
      obtain ⟨first, same⟩ := List.getElem?_eq_some_iff.mp found
      rw [List.length_singleton] at first
      rw [List.getElem_singleton] at same
      rw [← same]
      dsimp only
      omega
  ordered := by
    refine List.pairwise_append.mpr ⟨chronicled.ordered, List.pairwise_singleton _ _, ?_⟩
    intro earlier member later last
    rw [List.mem_singleton.mp last]
    exact chronicled.past earlier member
  past record member := by
    rcases List.mem_append.mp member with member | last
    · exact chronicled.past record member
    · rw [List.mem_singleton.mp last]
      exact Nat.le_refl duel.turn

theorem Change.chronicled {before after : Duel} (change : Change before after)
    (chronicled : before.Chronicled) : after.Chronicled := by
  cases change with
  | shift shift =>
      have turn := congrArg Control.turn shift.control
      exact chronicled.later (.of_shift shift) (Nat.le_of_eq turn.symm)
  | record player action => exact chronicled.record player action
  | count => exact chronicled.later rfl (Nat.le_succ before.turn)
  | _ => exact chronicled.later rfl (Nat.le_refl before.turn)

theorem chronicled_of_reaches {before after : Duel} (reaches : ReflTransGen Change before after)
    (chronicled : before.Chronicled) : after.Chronicled := by
  induction reaches with
  | refl => exact chronicled
  | tail _ last ih => exact last.chronicled ih

theorem chronicled_of_created {settings : Settings} {catalogue : Catalogue} {duel : Duel}
    (created : create settings catalogue = .ok duel) : duel.Chronicled := by
  obtain ⟨bare, begun, quiets⟩ := create_quiet created
  obtain ⟨first, dice, zero, one, rfl⟩ := bare_eq begun
  exact chronicled_of_reaches (Shift.changes (Quiet.shifts quiets)) (chronicled_of_nil rfl)

/-- What a request comes to.  It is refused, because the match is over or the table does not allow
it, and changes nothing; or it is on record with its turn and number, whether it succeeds, is
broken off by a violation or does not settle. -/
def Accounts (duel : Duel) (player : Player) (action : Action) :
    EStateM.Result Fault Duel Unit → Prop
  | .error .gameOver left => duel.isOver = true ∧ left = duel
  | .error (.rejected reason) left =>
    duel.isOver = false ∧ duel.check player action = .error reason ∧ left = duel
  | .error (.setup _) _ => False
  | .ok _ left | .error (.violation _) left | .error .unsettled left =>
    duel.isOver = false ∧ duel.check player action = .ok () ∧
      left.history = duel.history ++ [⟨player, action, duel.turn, duel.history.length⟩]

/-- From any duel, a request is refused without a trace or put on record exactly once. -/
theorem accounts_take (duel : Duel) (allowance : Nat) (player : Player) (action : Action) :
    duel.Accounts player action (Play.take allowance player action duel) := by
  rw [Play.take_eq]
  split
  next ended => exact ⟨ended, rfl⟩
  next running =>
  have running : duel.isOver = false := Bool.eq_false_iff.mpr running
  split
  next reason refused => exact ⟨running, refused, rfl⟩
  next accepted =>
    let acting := Play.onFault (Play.carryOut allowance player action) clearAgenda
    have follows : Play.Follows Unrecorded acting :=
      Play.follows_carryOut.onFault fun _ => rfl
    have willing : Play.Willing acting := Play.willing_carryOut.onFault
    have written := Unrecorded.of_reaches (follows (Play.record player action duel)).reaches
    change duel.Accounts player action (acting (Play.record player action duel))
    unfold Play.left at written
    cases result : acting (Play.record player action duel) with
    | ok value left =>
        rw [result] at written
        exact ⟨running, accepted, written⟩
    | error fault left =>
        rw [result] at written
        have interrupts : fault.Interrupts := willing _ fault left result
        cases fault with
        | violation cause => exact ⟨running, accepted, written⟩
        | unsettled => exact ⟨running, accepted, written⟩
        | rejected reason => exact interrupts.elim
        | gameOver => exact interrupts.elim
        | setup cause => exact interrupts.elim

/-- Whatever was asked of a match before, its records are numbered in order and of turns that never
decrease, and the next request is refused without a trace or put on record exactly once. -/
theorem accounts_take_afterCalls {settings : Settings} {catalogue : Catalogue} {duel : Duel}
    (created : Duel.create settings catalogue = .ok duel) (allowance limit : Nat)
    (calls : List Call) (player : Player) (action : Action) :
    (duel.afterCalls allowance calls).Chronicled ∧
      (duel.afterCalls allowance calls).Accounts player action
        (Play.take limit player action (duel.afterCalls allowance calls)) :=
  ⟨chronicled_of_reaches (duel.reaches_afterCalls allowance calls) (chronicled_of_created created),
    accounts_take _ limit player action⟩

/-- Two mages in their second turn, of whom the wrong one wants to end it. -/
theorem accounts_take_afterCalls_mages :
    ∃ duel, Duel.create Settings.mages Catalogue.mages = .ok duel ∧
      (duel.afterCalls 100 [.start, .take .zero .endTurn]).Chronicled ∧
        (duel.afterCalls 100 [.start, .take .zero .endTurn]).Accounts .zero .endTurn
          (Play.take 100 .zero .endTurn
            (duel.afterCalls 100 [.start, .take .zero .endTurn])) := by
  obtain ⟨duel, created⟩ := create_mages
  exact ⟨duel, created, accounts_take_afterCalls created 100 100 _ .zero .endTurn⟩

end Duel

end CardDuel
