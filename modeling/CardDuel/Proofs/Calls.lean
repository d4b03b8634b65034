import CardDuel.Proofs.Course

/-!
# Calls

What a host may ask of a duel that is set up, in any order, and the duel that a
sequence of calls leaves behind.
-/

namespace CardDuel

open Relation

/-- What may be asked of a duel. -/
inductive Call
  | start
  | take (player : Player) (action : Action)
  | advance
  | advanceTo (step : Step)
  | give (player : Player) (code : String)
  | setMana (player : Player) (total : Int)
deriving Inhabited

namespace Call

/-- What a call comes to. -/
def play (allowance : Nat) : Call → Play Unit
  | start => Play.start allowance
  | take player action => Play.take allowance player action
  | advance => discard (Play.advance allowance)
  | advanceTo step => Play.advanceTo allowance step
  | give player code => discard (Play.give player code)
  | setMana player total => modify fun duel =>
    duel.updatePlayer player fun state => state.refillMana total

variable {step : Duel → Duel → Prop} {fits : Effect → Prop}

/-- Whether a call does allowed effects only; setting the crystals of a player is one. -/
def Fits (fits : Effect → Prop) : Call → Prop
  | setMana _ total => fits (.setPlayerTag .crystals total)
  | start | take .. | advance | advanceTo _ | give .. => True

theorem follows_play_of_fits [Duel.Requesting step fits] (allowance : Nat) {call : Call}
    (allowed : call.Fits fits) : Play.Follows step (call.play allowance) := by
  cases call with
  | start => exact Play.follows_start
  | take player action => exact Play.follows_take
  | advance => exact Play.follows_advance.discard
  | advanceTo target => exact Play.follows_advanceTo
  | give player code => exact Play.follows_give.discard
  | setMana player total =>
      exact Play.follows_modify fun duel => Duel.Requesting.refill duel player allowed

theorem fits_of_changing (step : Duel → Duel → Prop) [changing : Duel.Changing step fits]
    (call : Call) : call.Fits fits := by
  cases call with
  | setMana player total => exact changing.sets total
  | _ => trivial

theorem follows_play [Duel.Changing step fits] (allowance : Nat) (call : Call) :
    Play.Follows step (call.play allowance) :=
  follows_play_of_fits allowance (call.fits_of_changing step)

end Call

/-- What a host may do to a duel: a call, or, past the rules, running effects of its own and
bringing the auras up to date. -/
inductive Deed
  | call (asked : Call)
  | run (resolution : Resolution)
  | auras
deriving Inhabited

namespace Deed

def play (allowance : Nat) : Deed → Play Unit
  | call asked => asked.play allowance
  | run resolution => discard (Play.resolve resolution)
  | auras => modify Duel.updateAuras

theorem follows_play {step : Duel → Duel → Prop} [Duel.Changing step fun _ => True]
    (allowance : Nat) (deed : Deed) : Play.Follows step (deed.play allowance) := by
  cases deed with
  | call asked => exact asked.follows_play allowance
  | run resolution => exact (Play.follows_resolve resolution.fits_true).discard
  | auras => exact Play.follows_modify fun duel => Duel.Revising.auras duel

end Deed

namespace Duel

/-- The duel after some calls, whether or not they failed. -/
def afterCalls (duel : Duel) (allowance : Nat) (calls : List Call) : Duel :=
  calls.foldl (fun duel call => (call.play allowance).left duel) duel

theorem steps_afterCalls_of_fits {step : Duel → Duel → Prop} {fits : Effect → Prop}
    [Requesting step fits] (duel : Duel) (allowance : Nat) {calls : List Call}
    (allowed : ∀ call ∈ calls, call.Fits fits) :
    ReflTransGen step duel (duel.afterCalls allowance calls) := by
  induction calls generalizing duel with
  | nil => exact .refl
  | cons call calls ih =>
      obtain ⟨first, others⟩ := List.forall_mem_cons.mp allowed
      exact (Call.follows_play_of_fits allowance first duel).reaches.trans (ih _ others)

theorem steps_afterCalls {step : Duel → Duel → Prop} {fits : Effect → Prop}
    [Changing step fits] (duel : Duel) (allowance : Nat) (calls : List Call) :
    ReflTransGen step duel (duel.afterCalls allowance calls) :=
  duel.steps_afterCalls_of_fits allowance fun call _ => call.fits_of_changing step

theorem reaches_afterCalls (duel : Duel) (allowance : Nat) (calls : List Call) :
    ReflTransGen Change duel (duel.afterCalls allowance calls) :=
  duel.steps_afterCalls allowance calls

/-- The duel after some deeds, whether or not they failed. -/
def afterDeeds (duel : Duel) (allowance : Nat) (deeds : List Deed) : Duel :=
  deeds.foldl (fun duel deed => (deed.play allowance).left duel) duel

theorem steps_afterDeeds {step : Duel → Duel → Prop} [Changing step fun _ => True] (duel : Duel)
    (allowance : Nat) (deeds : List Deed) :
    ReflTransGen step duel (duel.afterDeeds allowance deeds) := by
  induction deeds generalizing duel with
  | nil => exact .refl
  | cons deed deeds ih =>
      exact ((deed.follows_play allowance duel).reaches).trans (ih _)

theorem afterDeeds_calls (duel : Duel) (allowance : Nat) (calls : List Call) :
    duel.afterDeeds allowance (calls.map .call) = duel.afterCalls allowance calls :=
  List.foldl_map

/-- The calls succeed, one after the other. -/
def Runs (duel : Duel) (allowance : Nat) (calls : List Call) (after : Duel) : Prop :=
  calls.forM (Call.play allowance) duel = .ok () after

variable {duel after : Duel} {allowance : Nat} {call : Call} {calls later : List Call}

theorem runs_nil : duel.Runs allowance [] after ↔ after = duel := by
  constructor
  · intro runs
    cases runs
    rfl
  · rintro rfl
    rfl

theorem runs_cons :
    duel.Runs allowance (call :: calls) after ↔
      ∃ left, call.play allowance duel = .ok () left ∧ left.Runs allowance calls after := by
  change (call.play allowance >>= fun _ => calls.forM (Call.play allowance)) duel = _ ↔ _
  simp only [bind, EStateM.bind]
  cases ran : call.play allowance duel with
  | ok value left =>
      constructor
      · exact fun runs => ⟨left, rfl, runs⟩
      · rintro ⟨other, same, runs⟩
        cases same
        exact runs
  | error fault left =>
      constructor
      · exact nofun
      · rintro ⟨other, same, -⟩
        cases same

theorem runs_append :
    duel.Runs allowance (calls ++ later) after ↔
      ∃ left, duel.Runs allowance calls left ∧ left.Runs allowance later after := by
  induction calls generalizing duel with
  | nil => simp [runs_nil]
  | cons call calls ih =>
      simp only [List.cons_append, runs_cons, ih]
      exact ⟨fun ⟨first, ran, left, runs, rest⟩ => ⟨left, ⟨first, ran, runs⟩, rest⟩,
        fun ⟨left, ⟨first, ran, runs⟩, rest⟩ => ⟨first, ran, left, runs, rest⟩⟩

theorem runs_functional {other : Duel} (runs : duel.Runs allowance calls after)
    (again : duel.Runs allowance calls other) : other = after := by
  cases Eq.trans (Eq.symm again) runs
  rfl

theorem afterCalls_of_runs (runs : duel.Runs allowance calls after) :
    duel.afterCalls allowance calls = after := by
  induction calls generalizing duel with
  | nil => exact (runs_nil.mp runs).symm
  | cons call calls ih =>
      obtain ⟨left, ran, rest⟩ := runs_cons.mp runs
      change ((call.play allowance).left duel).afterCalls allowance calls = after
      unfold Play.left
      rw [ran]
      exact ih rest

theorem afterDeeds_of_runs (runs : duel.Runs allowance calls after) :
    duel.afterDeeds allowance (calls.map .call) = after :=
  (duel.afterDeeds_calls allowance calls).trans (afterCalls_of_runs runs)

theorem reaches_of_runs (runs : duel.Runs allowance calls after) :
    ReflTransGen Change duel after := by
  induction calls generalizing duel with
  | nil =>
      obtain rfl := runs_nil.mp runs
      exact .refl
  | cons call calls ih =>
      obtain ⟨left, ran, rest⟩ := runs_cons.mp runs
      exact (Play.Yields.of_ok (call.follows_play allowance duel) ran).trans (ih rest)

/-- The duel that is set up and goes through calls that all succeed. -/
def outcome? (settings : Settings) (catalogue : Catalogue) (allowance : Nat) (calls : List Call) :
    Option Duel :=
  match Duel.create settings catalogue with
  | .error _ => none
  | .ok duel =>
    match calls.forM (Call.play allowance) duel with
    | .error _ _ => none
    | .ok _ after => some after

theorem exists_of_outcome (settings : Settings) (catalogue : Catalogue) (allowance : Nat)
    (calls : List Call) (holds : Duel → Bool)
    (comes : (outcome? settings catalogue allowance calls).any holds = true) :
    ∃ duel after, Duel.create settings catalogue = .ok duel ∧
      duel.Runs allowance calls after ∧ holds after = true := by
  unfold outcome? at comes
  cases created : Duel.create settings catalogue with
  | error fault =>
      rw [created] at comes
      cases comes
  | ok duel =>
      rw [created] at comes
      dsimp only at comes
      cases ran : calls.forM (Call.play allowance) duel with
      | error fault left =>
          rw [ran] at comes
          cases comes
      | ok value after =>
          rw [ran] at comes
          exact ⟨duel, after, rfl, ran, comes⟩

/-- What is seen of the outcome holds wherever these calls lead. -/
theorem holds_of_outcome {settings : Settings} {catalogue : Catalogue} {holds : Duel → Bool}
    (created : Duel.create settings catalogue = .ok duel) (runs : duel.Runs allowance calls after)
    (comes : (outcome? settings catalogue allowance calls).any holds = true) :
    holds after = true := by
  obtain ⟨same, reached, createdToo, runsToo, held⟩ := exists_of_outcome _ _ _ _ _ comes
  cases created.symm.trans createdToo
  rwa [← runs_functional runs runsToo]

end Duel

/-- Whether a play succeeds with an ending of which something is seen. -/
def Play.ends {α : Type} (action : Play α) (duel : Duel) (seen : α → Duel → Bool) : Bool :=
  match action duel with
  | .ok value left => seen value left
  | .error _ _ => false

theorem Play.exists_of_ends {α : Type} {action : Play α} {duel : Duel} {seen : α → Duel → Bool}
    (ends : action.ends duel seen = true) :
    ∃ value left, action duel = .ok value left ∧ seen value left = true := by
  unfold Play.ends at ends
  cases ran : action duel with
  | ok value left =>
      rw [ran] at ends
      exact ⟨value, left, rfl, ends⟩
  | error fault left =>
      rw [ran] at ends
      cases ends

/-! ## A small match -/

/-- A mage, its hero power and a minion. -/
def Catalogue.mages : Catalogue :=
  .ofEntries
    [⟨Card.hero ⟨1⟩ "MAGE" "Mage" .mage 30 "FIREBLAST", Behaviour.none⟩,
      ⟨Card.power ⟨2⟩ "FIREBLAST" "Fireblast" 2, Behaviour.none⟩,
      ⟨Card.minion ⟨3⟩ "WISP" "Wisp" 0 1 1, Behaviour.none⟩]
    [(.mage, ⟨1⟩)] (by decide) (by decide)

/-- Two mages with one minion in the deck. -/
def Settings.mages : Settings :=
  { Settings.standard with decks := [["WISP"], ["WISP"]] }

theorem Duel.create_mages :
    ∃ duel, Duel.create Settings.mages Catalogue.mages = .ok duel := by
  have succeeds : (Duel.create Settings.mages Catalogue.mages).isOk = true := by decide +kernel
  revert succeeds
  cases Duel.create Settings.mages Catalogue.mages with
  | error fault => exact nofun
  | ok duel => exact fun _ => ⟨duel, rfl⟩

end CardDuel
