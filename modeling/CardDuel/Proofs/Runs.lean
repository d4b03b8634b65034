import CardDuel.Proofs.Underway

/-!
# Moments of a run

Whatever calls are made of changes a duel, beat by beat.  So a run comes to every moment of the calls
that start from a duel, and to every duel in which a list of effects is on its way between them.
-/

namespace CardDuel

open Relation

namespace Play

open Duel

variable {α : Type} {action : Play α} {start duel : Duel} {player : Player}

theorem leads_reaching (leads : Leads Beat duel action) :
    Leads (Keeping (ReflTransGen Beat start)) duel action :=
  leads_given fun reached => leads_of_yields <|
    Yields.mono leads (fun _ _ => reached.trans) fun _ => reached.trans

theorem follows_reaching (follows : Follows Beat action) :
    Follows (Keeping (ReflTransGen Beat start)) action :=
  fun duel => leads_reaching (follows duel)

theorem steers_reaching (start : Duel) : Steers (ReflTransGen Beat start) where
  lights duel reached := reached.tail (Revising.auras duel)
  clears duel reached := reached.tail (Working.clear duel)
  enters duel step reached := reached.tail (.same (.enter duel step) rfl)
  records duel _ _ reached accepted := reached.tail (Requesting.record duel accepted)
  concedes duel player reached := reached.tail (Working.concede duel player)
  answers duel player reached := reached.tail (Working.choose duel player none)
  refills duel player _ reached := reached.tail (Requesting.refill duel player trivial)
  buries := follows_reaching follows_processDeaths
  steps _ _ := follows_reaching <| follows_stepWork_of
    (fun duel player => .same (.pass duel player) rfl) (fun duel => .same (.count duel) rfl)
    (fun duel id => .same (.shift (.stir (.revise duel id .refresh))) rfl)
    (fun _ living => follows_announce living) (fun _ => follows_shuffleDeck) follows_drawCard
    follows_dealHands follows_offerMulligan
  works reached _ next := (yields_doWork (Work.fits_true _) next).mono
    (fun _ _ => reached.trans) fun _ => reached.trans
  prepares _ _ := leads_reaching (follows_prepare _)
  exchanges _ _ _ := leads_reaching (follows_exchange _)
  takesUp {duel player pick options} _ _ := by
    have takes : Follows Beat (takeUp player pick options) :=
      Follows.bind (follows_modify fun duel => Working.choose duel player none) fun _ =>
        follows_settleOptions.bind fun _ => follows_resume
    exact leads_reaching (takes duel)
  gives player code := follows_reaching follows_give

theorem Moment.reaches (moment : Moment start duel) : ReflTransGen Beat start duel :=
  (steers_reaching start).moment .refl moment

end Play

namespace Duel

variable {start duel : Duel} {resolution : Resolution}

/-- A run comes to every duel in which a list is on its way. -/
theorem Underway.exists_trace (attentive : start.Attentive)
    (underway : start.Underway resolution duel) : ∃ past, Trace start past duel := by
  refine Duel.exists_trace ?_
  have there {duel : Duel} (reached : ReflTransGen Beat start duel) : duel.Attentive := by
    obtain ⟨past, trace⟩ := Duel.exists_trace reached
    exact trace.attentive attentive
  induction underway with
  | runs moment _ next => exact moment.reaches.tail (.begin next)
  | fires moment _ next _ =>
      have begun := moment.reaches.tail (.begin next)
      exact begun.trans (reaches_sprung (there begun) _)
  | @resumes duel left _ player pick options moment _ sorted _ =>
      have sorts : Play.Follows Beat (Play.settleOptions pick options) := Play.follows_settleOptions
      have answered := moment.reaches.tail (Working.choose duel player none)
      exact (answered.trans (sorts.ensures.of_ok sorted)).tail (.same (.suspend left none) rfl)
  | @performs duel left resolution next effect rest outer outcome _ _ ran reached =>
      let taken : Resolution := { resolution with frames := rest :: outer }
      have answers : Play.Answers Beat (Play.perform taken effect) fun answer =>
          answer.2.Fits fun _ => True := Play.answers_fits taken.fits_true trivial
      have performed := (Play.Yields.of_ok (answers duel) ran).2
      exact (reached.trans performed).tail (Revising.auras left)
  | leaves _ reached => exact reached

end Duel

end CardDuel
