import CardDuel.Proofs.Calls
import CardDuel.Proofs.Requests

/-!
# What calls keep

Calls settle, enter steps and answer requests, each in its own order.  A relation that keeps what is
so of a duel takes the order out of the question: whatever is kept by the few things that calls are
made of is kept by all calls.  Running a list of effects is one of them, but only while no list
waits.
-/

namespace CardDuel

open Relation

namespace Duel

/-- What is so stays so. -/
def Keeping (holds : Duel → Prop) (before after : Duel) : Prop :=
  holds before → holds after

variable {holds : Duel → Prop} {before after : Duel}

theorem keeping_of_reaches (reaches : ReflTransGen (Keeping holds) before after)
    (now : holds before) : holds after := by
  induction reaches with
  | refl => exact now
  | tail _ kept ih => exact kept ih

end Duel

namespace Play

open Duel

variable {α : Type} {action : Play α} {holds : Duel → Prop} {duel : Duel} {player : Player}
variable {ids : List EntityId} {allowance : Nat}

/-- What a play keeps may be assumed of the duel that it starts from. -/
theorem leads_given (leads : holds duel → Leads (Keeping holds) duel action) :
    Leads (Keeping holds) duel action := by
  by_cases now : holds duel
  · exact leads now
  · unfold Leads Yields
    split
    · exact .single fun nowToo => absurd nowToo now
    · exact .single fun nowToo => absurd nowToo now

theorem leads_of_yields (yields : action.Yields duel (fun _ => holds) holds) :
    Leads (Keeping holds) duel action :=
  Yields.mono yields (fun _ _ kept => .single fun _ => kept) fun _ kept => .single fun _ => kept

theorem Leads.keeps (leads : Leads (Keeping holds) duel action) (now : holds duel) :
    action.Yields duel (fun _ => holds) holds :=
  Yields.mono leads (fun _ _ reaches => keeping_of_reaches reaches now)
    fun _ reaches => keeping_of_reaches reaches now

theorem Follows.left (follows : Follows (Keeping holds) action) (now : holds duel) :
    holds (action.left duel) :=
  keeping_of_reaches (follows duel).reaches now

/-- What a play also sees to may be assumed of the duel that it leaves to the rest. -/
theorem leads_bind_keeping {β : Type} {next : α → Play β} {good : α → Duel → Prop}
    (first : holds duel → action.Yields duel (fun value left => good value left ∧ holds left) holds)
    (second : ∀ value left, good value left → Leads (Keeping holds) left (next value)) :
    Leads (Keeping holds) duel (action >>= next) := leads_given fun now => by
  unfold Leads
  rw [yields_bind]
  refine (first now).mono (fun value left both => ?_) fun _ kept => .single fun _ => kept
  exact Yields.mono (second value left both.1) (fun _ _ => .head fun _ => both.2)
    fun _ => .head fun _ => both.2

theorem follows_forM_of_mem {step : Duel → Duel → Prop} {action : EntityId → Play PUnit}
    (follows : ∀ id ∈ ids, Follows step (action id)) : Follows step (ids.forM action) := by
  induction ids with
  | nil => exact follows_pure
  | cons id ids ih =>
      exact (follows id List.mem_cons_self).bind fun _ =>
        ih fun other member => follows other (.tail id member)

/-! ## What calls are made of -/

/-- What a choice does before the duel settles: its options are put where they belong, and the list
that waits goes on. -/
def takeUp (player : Player) (pick : EntityId) (options : List EntityId) : Play Unit := do
  modify fun duel => duel.setChoice player none
  settleOptions pick options
  resume

/-- All that calls are made of keeps what is so. -/
structure Steers (holds : Duel → Prop) : Prop where
  lights : ∀ duel : Duel, holds duel → holds duel.updateAuras
  clears : ∀ duel : Duel, holds duel → holds duel.clearAgenda
  enters : ∀ (duel : Duel) step, holds duel → holds { duel with step := step }
  records : ∀ (duel : Duel) player action, holds duel → duel.check player action = .ok () →
    holds (record player action duel)
  concedes : ∀ (duel : Duel) player, holds duel → holds (duel.concede player)
  answers : ∀ (duel : Duel) player, holds duel → holds (duel.setChoice player none)
  refills : ∀ (duel : Duel) player total, holds duel →
    holds (duel.updatePlayer player fun state => state.refillMana total)
  buries : Follows (Keeping holds) processDeaths
  steps : ∀ player step, Follows (Keeping holds) (stepWork player step)
  works : ∀ {duel : Duel} {work rest}, holds duel → duel.suspended = none →
    duel.agenda.next? = some (work, rest) →
      (doWork work).Yields { duel with agenda := rest } (fun _ => holds) holds
  prepares : ∀ {duel : Duel} {player action}, holds duel → duel.check player action = .ok () →
    Leads (Keeping holds) duel (prepare player action)
  exchanges : ∀ {duel : Duel} {player options} {replace : List EntityId}, holds duel →
    duel.choice? player = some ⟨.mulligan, options⟩ → replace ⊆ options →
      Leads (Keeping holds) duel (exchange player replace)
  takesUp : ∀ {duel : Duel} {player pick options}, holds duel →
    duel.choice? player = some ⟨.discover, options⟩ →
      Leads (Keeping holds) duel (takeUp player pick options)
  gives : ∀ player code, Follows (Keeping holds) (give player code)

namespace Steers

variable (steers : Steers holds)

include steers

theorem follows_settle : Follows (Keeping holds) (settle allowance) := by
  induction allowance with
  | zero => exact follows_throw
  | succ allowance ih =>
      refine steers.buries.bind fun _ =>
        Follows.bind (follows_modify steers.lights) fun _ duel => leads_given fun now => ?_
      apply leads_get_bind
      split
      · exact leads_pure
      next free =>
        split
        · exact leads_pure
        next work rest next =>
          have idle : duel.suspended = none := by
            rw [Bool.or_eq_true, not_or, Option.not_isSome_iff_eq_none] at free
            exact free.2
          have worked := steers.works now idle next
          rw [Leads, yields_bind, yields_set, yields_bind, yields_onFault]
          refine worked.mono (fun _ left kept => ?_) fun left kept =>
            .single fun _ => steers.clears left kept
          exact (ih left).mono (fun _ _ => .head fun _ => kept) fun _ => .head fun _ => kept

theorem follows_enter {target : Step} : Follows (Keeping holds) (enter allowance target) :=
  Follows.bind (follows_modify fun duel => steers.enters duel target) fun _ =>
    follows_get.bind fun duel => (steers.steps duel.current target).bind fun _ =>
      steers.follows_settle

theorem leads_mulligan {replace options : List EntityId} (now : holds duel)
    (pending : duel.choice? player = some ⟨.mulligan, options⟩) (among : replace ⊆ options) :
    Leads (Keeping holds) duel (mulligan allowance player replace) := by
  unfold mulligan
  refine (steers.exchanges now pending (distinct_subset among)).bind fun _ drawn _ =>
    (Follows.bind (follows_modify fun duel => steers.answers duel player) fun _ =>
      steers.follows_settle.bind fun _ => follows_get.bind fun duel => ?_) drawn
  split
  · exact follows_beginTurns_of fun _ => steers.follows_enter
  · exact follows_pure

theorem leads_choose {pick : EntityId} {options : List EntityId} (now : holds duel)
    (pending : duel.choice? player = some ⟨.discover, options⟩) :
    Leads (Keeping holds) duel (choose allowance player pick) := by
  have goesOn : Follows (Keeping holds) (do
      settle allowance
      let left ← get
      if left.settings.autoRun && left.step ≠ .unstarted && !left.step.isOpening then
        runToDecision allowance : Play Unit) := by
    refine steers.follows_settle.bind fun _ => follows_get.bind fun left => ?_
    split
    · exact follows_runToDecision_of fun _ => steers.follows_enter
    · exact follows_pure
  have taken : Leads (Keeping holds) duel (do
      takeUp player pick options
      settle allowance
      let left ← get
      if left.settings.autoRun && left.step ≠ .unstarted && !left.step.isOpening then
        runToDecision allowance : Play Unit) :=
    (steers.takesUp now pending).bind fun _ left _ => goesOn left
  unfold choose
  apply leads_get_bind
  rw [pending]
  simpa only [takeUp, bind_assoc] using taken

theorem leads_carryOut {action : Action} (now : holds duel)
    (accepted : duel.check player action = .ok ()) :
    Leads (Keeping holds) duel (carryOut allowance player action) := by
  have settles {action : Action} (accepted : duel.check player action = .ok ()) :
      Leads (Keeping holds) duel (do Play.prepare player action; settle allowance) :=
    (steers.prepares now accepted).bind fun _ left _ => steers.follows_settle left
  rcases check_spec accepted with rfl | ⟨replace, options, rfl, pending⟩ |
      ⟨pick, options, rfl, pending⟩ | ⟨notMulligan, notChoose, -⟩
  · exact follows_modify (fun duel => steers.concedes duel player) duel
  · exact steers.leads_mulligan now pending (subset_of_accepted pending accepted)
  · exact steers.leads_choose now pending
  cases action with
  | playCard card target position =>
      change Leads _ duel (playCard allowance player card target position)
      rw [playCard_eq]
      exact settles accepted
  | attack attacker defender => exact settles accepted
  | heroPower target =>
      change Leads _ duel (useHeroPower allowance player target)
      rw [useHeroPower_eq]
      exact settles accepted
  | endTurn => exact follows_endTurn_of (fun _ => steers.follows_enter) duel
  | mulligan replace => exact absurd rfl (notMulligan replace)
  | choose pick => exact absurd rfl (notChoose pick)
  | concede => exact follows_modify (fun duel => steers.concedes duel player) duel

theorem follows_take {action : Action} :
    Follows (Keeping holds) (take allowance player action) := fun duel =>
  leads_given fun now => by
    unfold take
    apply leads_get_bind
    split
    · exact follows_throw duel
    split
    · exact follows_throw duel
    next accepted =>
      have recorded := steers.records duel player action now accepted
      refine leads_modify_bind (.single fun _ => recorded) ?_
      unfold Leads
      rw [yields_onFault]
      exact (steers.leads_carryOut recorded accepted).mono (fun _ _ reaches => reaches)
        fun left reaches => reaches.tail fun kept => steers.clears left kept

theorem follows_play (call : Call) : Follows (Keeping holds) (call.play allowance) := by
  cases call with
  | start => exact follows_start_of fun _ => steers.follows_enter
  | take player action => exact steers.follows_take
  | advance => exact (follows_advance_of fun _ => steers.follows_enter).discard
  | advanceTo target => exact follows_advanceTo_of fun _ => steers.follows_enter
  | give player code => exact (steers.gives player code).discard
  | setMana player total => exact follows_modify fun duel => steers.refills duel player total

/-- What is so is so after any calls, whether or not they failed. -/
theorem afterCalls (now : holds duel) (calls : List Call) :
    holds (duel.afterCalls allowance calls) := by
  induction calls generalizing duel with
  | nil => exact now
  | cons call calls ih => exact ih ((steers.follows_play call).left now)

end Steers

/-! ## Moments -/

/-- The duels that calls go through from a start: one after each of the things that calls are made
of, whether or not it fails. -/
inductive Moment (start : Duel) : Duel → Prop
  | start : Moment start start
  | lights {duel : Duel} (moment : Moment start duel) : Moment start duel.updateAuras
  | clears {duel : Duel} (moment : Moment start duel) : Moment start duel.clearAgenda
  | enters {duel : Duel} (moment : Moment start duel) (step : Step) :
      Moment start { duel with step := step }
  | records {duel : Duel} {player : Player} {action : Action} (moment : Moment start duel)
      (accepted : duel.check player action = .ok ()) : Moment start (record player action duel)
  | concedes {duel : Duel} (moment : Moment start duel) (player : Player) :
      Moment start (duel.concede player)
  | answers {duel : Duel} (moment : Moment start duel) (player : Player) :
      Moment start (duel.setChoice player none)
  | refills {duel : Duel} (moment : Moment start duel) (player : Player) (total : Int) :
      Moment start (duel.updatePlayer player fun state => state.refillMana total)
  | buries {duel : Duel} (moment : Moment start duel) : Moment start (processDeaths.left duel)
  | steps {duel : Duel} (moment : Moment start duel) (player : Player) (step : Step) :
      Moment start ((stepWork player step).left duel)
  | works {duel : Duel} {work : Work} {rest : Agenda} (moment : Moment start duel)
      (free : duel.suspended = none) (next : duel.agenda.next? = some (work, rest)) :
      Moment start ((doWork work).left { duel with agenda := rest })
  | prepares {duel : Duel} {player : Player} {action : Action} (moment : Moment start duel)
      (accepted : duel.check player action = .ok ()) :
      Moment start ((prepare player action).left duel)
  | exchanges {duel : Duel} {player : Player} {options replace : List EntityId}
      (moment : Moment start duel) (pending : duel.choice? player = some ⟨.mulligan, options⟩)
      (among : replace ⊆ options) : Moment start ((exchange player replace).left duel)
  | takesUp {duel : Duel} {player : Player} {pick : EntityId} {options : List EntityId}
      (moment : Moment start duel) (pending : duel.choice? player = some ⟨.discover, options⟩) :
      Moment start ((takeUp player pick options).left duel)
  | gives {duel : Duel} (moment : Moment start duel) (player : Player) (code : String) :
      Moment start ((give player code).left duel)

/-- Whatever calls keep is so at all moments. -/
theorem Steers.moment (steers : Steers holds) {start : Duel} (now : holds start)
    (moment : Moment start duel) : holds duel := by
  induction moment with
  | start => exact now
  | lights _ ih => exact steers.lights _ ih
  | clears _ ih => exact steers.clears _ ih
  | enters _ step ih => exact steers.enters _ step ih
  | records _ accepted ih => exact steers.records _ _ _ ih accepted
  | concedes _ player ih => exact steers.concedes _ player ih
  | answers _ player ih => exact steers.answers _ player ih
  | refills _ player total ih => exact steers.refills _ player total ih
  | buries _ ih => exact steers.buries.left ih
  | steps _ player step ih => exact (steers.steps player step).left ih
  | works _ free next ih => exact (steers.works ih free next).left
  | prepares _ accepted ih => exact keeping_of_reaches (steers.prepares ih accepted).reaches ih
  | exchanges _ pending among ih =>
      exact keeping_of_reaches (steers.exchanges ih pending among).reaches ih
  | takesUp _ pending ih => exact keeping_of_reaches (steers.takesUp ih pending).reaches ih
  | gives _ player code ih => exact (steers.gives player code).left ih

/-- Calls go through nothing but moments. -/
theorem steers_moment (start : Duel) : Steers (Moment start) where
  lights _ := .lights
  clears _ := .clears
  enters _ step moment := .enters moment step
  records _ _ _ := .records
  concedes _ player moment := .concedes moment player
  answers _ player moment := .answers moment player
  refills _ player total moment := .refills moment player total
  buries _ := leads_given fun moment => leads_of_yields (yields_of_left moment.buries)
  steps player step _ := leads_given fun moment =>
    leads_of_yields (yields_of_left (moment.steps player step))
  works moment free next := yields_of_left (moment.works free next)
  prepares moment accepted := leads_of_yields (yields_of_left (moment.prepares accepted))
  exchanges moment pending among :=
    leads_of_yields (yields_of_left (moment.exchanges pending among))
  takesUp moment pending := leads_of_yields (yields_of_left (moment.takesUp pending))
  gives player code _ := leads_given fun moment =>
    leads_of_yields (yields_of_left (moment.gives player code))

end Play

end CardDuel
