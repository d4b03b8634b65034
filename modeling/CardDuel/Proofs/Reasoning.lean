import CardDuel.Duel
import Mathlib.Logic.Relation

/-!
# Reasoning about plays

A play answers with a value or a fault, and either way it leaves a duel behind.
`Play.Yields` says what holds of both endings, and has one law for each way of
composing plays.  `Play.Follows` is its use for changes: whatever the ending, the
duel left behind is reached from the duel before by steps of a relation.
-/

namespace CardDuel

open Relation

namespace Play

variable {α β : Type}

/-- The duel that a play leaves behind, whether or not it fails. -/
def left (action : Play α) (duel : Duel) : Duel :=
  match action duel with
  | .ok _ left => left
  | .error _ left => left

/-- A play that succeeds satisfies `done`, and one that fails satisfies `failed`. -/
def Yields (action : Play α) (duel : Duel) (done : α → Duel → Prop) (failed : Duel → Prop) :
    Prop :=
  match action duel with
  | .ok value left => done value left
  | .error _ left => failed left

section Laws

variable {action : Play α} {next : α → Play β} {duel : Duel}
variable {done : β → Duel → Prop} {failed : Duel → Prop}

/-- A play goes on where its first part led. -/
theorem bind_of_ok {value : α} {left : Duel} (ran : action duel = .ok value left) :
    (action >>= next) duel = next value left := by
  change EStateM.bind action next duel = _
  unfold EStateM.bind
  rw [ran]

/-- A play fails with its first part. -/
theorem bind_of_error {fault : Fault} {left : Duel} (broken : action duel = .error fault left) :
    (action >>= next) duel = .error fault left := by
  change EStateM.bind action next duel = _
  unfold EStateM.bind
  rw [broken]

theorem get_bind (next : Duel → Play β) (duel : Duel) :
    (get >>= next : Play β) duel = next duel duel :=
  rfl

theorem lookup_of_entity? {id : EntityId} {entity : Entity}
    (known : duel.entity? id = some entity) : lookup id duel = .ok entity duel := by
  unfold lookup
  rw [get_bind, known]
  rfl

theorem lookupCode_of_card {code : String} {card : Card}
    (coded : duel.catalogue.cardByCode? code = some card) :
    lookupCode code duel = .ok card.id duel := by
  unfold lookupCode
  rw [get_bind, coded]
  rfl

theorem yields_pure {value : β} :
    (pure value : Play β).Yields duel done failed ↔ done value duel :=
  Iff.rfl

theorem yields_violate {cause : Violation} :
    (violate cause : Play β).Yields duel done failed ↔ failed duel :=
  Iff.rfl

theorem yields_get {done : Duel → Duel → Prop} :
    (get : Play Duel).Yields duel done failed ↔ done duel duel :=
  Iff.rfl

theorem yields_set {replacement : Duel} {done : PUnit → Duel → Prop} :
    (set replacement : Play PUnit).Yields duel done failed ↔ done () replacement :=
  Iff.rfl

theorem yields_modify {change : Duel → Duel} {done : PUnit → Duel → Prop} :
    (modify change : Play PUnit).Yields duel done failed ↔ done () (change duel) :=
  Iff.rfl

theorem yields_roll {draw : Dice → β × Dice} :
    (roll draw).Yields duel done failed ↔
      done (draw duel.dice).1 { duel with dice := (draw duel.dice).2 } :=
  Iff.rfl

theorem yields_bind :
    (action >>= next).Yields duel done failed ↔
      action.Yields duel (fun value left => (next value).Yields left done failed) failed := by
  simp only [Yields, bind, EStateM.bind]
  cases action duel <;> rfl

theorem yields_bind_of_ok {value : α} {left : Duel} (ran : action duel = .ok value left) :
    (action >>= next).Yields duel done failed ↔ (next value).Yields left done failed := by
  unfold Yields
  rw [bind_of_ok ran]

theorem yields_map {change : α → β} :
    (change <$> action).Yields duel done failed ↔
      action.Yields duel (fun value left => done (change value) left) failed := by
  simp only [Yields, Functor.map, EStateM.map]
  cases action duel <;> rfl

theorem yields_discard {done : PUnit → Duel → Prop} :
    (discard action).Yields duel done failed ↔
      action.Yields duel (fun _ left => done () left) failed := by
  simp only [Yields, discard, Functor.mapConst, Function.comp_apply, EStateM.map,
    Function.const_apply]
  cases action duel <;> rfl

theorem discard_apply (action : Play α) (duel : Duel) :
    discard action duel =
      match action duel with
      | .ok _ left => .ok () left
      | .error fault left => .error fault left := by
  change EStateM.map _ action duel = _
  unfold EStateM.map
  cases action duel <;> rfl

theorem yields_lookup {id : EntityId} {done : Entity → Duel → Prop} :
    (lookup id).Yields duel done failed ↔
      (∀ entity, duel.entity? id = some entity → done entity duel) ∧
        (duel.entity? id = none → failed duel) := by
  unfold lookup
  simp only [yields_bind, yields_get]
  cases found : duel.entity? id with
  | none => simp [yields_violate]
  | some entity => simp [yields_pure]

theorem yields_onFault {action : Play β} {repair : Duel → Duel} :
    (onFault action repair).Yields duel done failed ↔
      action.Yields duel done (fun left => failed (repair left)) := by
  simp only [Yields, onFault]
  cases action duel <;> rfl

theorem Yields.mono {action : Play β} {done' : β → Duel → Prop} {failed' : Duel → Prop}
    (yields : action.Yields duel done failed)
    (success : ∀ value left, done value left → done' value left)
    (failure : ∀ left, failed left → failed' left) :
    action.Yields duel done' failed' := by
  unfold Yields at *
  cases ran : action duel with
  | ok value left => exact success value left (by simpa [ran] using yields)
  | error fault left => exact failure left (by simpa [ran] using yields)

theorem Yields.of_ok {action : Play β} {value : β} {left : Duel}
    (yields : action.Yields duel done failed) (ran : action duel = .ok value left) :
    done value left := by
  simpa [Yields, ran] using yields

/-- A play that cannot fail answers. -/
theorem Yields.exists_ok {action : Play β} (yields : action.Yields duel done fun _ => False) :
    ∃ value left, action duel = .ok value left ∧ done value left := by
  unfold Yields at yields
  cases ran : action duel with
  | ok value left => exact ⟨value, left, rfl, by simpa [ran] using yields⟩
  | error fault left => simp [ran] at yields

theorem Yields.left {action : Play β} {holds : Duel → Prop}
    (yields : action.Yields duel (fun _ => holds) holds) : holds (action.left duel) := by
  unfold Yields at yields
  unfold Play.left
  cases ran : action duel <;> simpa [ran] using yields

theorem yields_of_left {action : Play β} {holds : Duel → Prop} (kept : holds (action.left duel)) :
    action.Yields duel (fun _ => holds) holds := by
  unfold Yields
  unfold Play.left at kept
  cases ran : action duel <;> simpa [ran] using kept

end Laws

/-! ## Success -/

/-- If the play succeeds, the ending satisfies `done`. -/
def Ensures (action : Play α) (duel : Duel) (done : α → Duel → Prop) : Prop :=
  action.Yields duel done fun _ => True

section Success

variable {action : Play α} {next : α → Play β} {duel : Duel} {done done' : β → Duel → Prop}

theorem ensures_bind :
    (action >>= next).Ensures duel done ↔
      action.Ensures duel fun value left => (next value).Ensures left done :=
  yields_bind

theorem ensures_get_bind {next : Duel → Play β} :
    (get >>= next).Ensures duel done ↔ (next duel).Ensures duel done :=
  Iff.rfl

theorem ensures_modify_bind {change : Duel → Duel} {next : PUnit → Play β} :
    (modify change >>= next).Ensures duel done ↔ (next ()).Ensures (change duel) done :=
  Iff.rfl

theorem Ensures.mono {action : Play β} (ensures : action.Ensures duel done)
    (widen : ∀ value left, done value left → done' value left) : action.Ensures duel done' :=
  Yields.mono ensures widen fun _ _ => trivial

/-- What a successful play ensures comes with the equation of the run. -/
theorem Ensures.ran {action : Play β} (ensures : action.Ensures duel done) :
    action.Ensures duel fun value left => done value left ∧ action duel = .ok value left := by
  unfold Ensures Yields at *
  cases ran : action duel with
  | ok value left =>
      rw [ran] at ensures
      exact ⟨ensures, rfl⟩
  | error fault left => trivial

theorem ensures_of_ok {action : Play β}
    (holds : ∀ value left, action duel = .ok value left → done value left) :
    action.Ensures duel done := by
  unfold Ensures Yields
  cases ran : action duel with
  | ok value left => exact holds value left ran
  | error fault left => trivial

theorem Ensures.and {action : Play β} (first : action.Ensures duel done)
    (second : action.Ensures duel done') :
    action.Ensures duel fun value left => done value left ∧ done' value left := by
  unfold Ensures Yields at *
  cases ran : action duel with
  | ok value left =>
      rw [ran] at first second
      exact ⟨first, second⟩
  | error fault left => trivial

/-- What a successful play ensures may be added to what is known of both endings. -/
theorem Yields.and {action : Play β} {failed : Duel → Prop}
    (first : action.Yields duel done failed) (second : action.Ensures duel done') :
    action.Yields duel (fun value left => done value left ∧ done' value left) failed := by
  unfold Ensures Yields at *
  cases ran : action duel with
  | ok value left =>
      rw [ran] at first second
      exact ⟨first, second⟩
  | error fault left => rwa [ran] at first

theorem Ensures.bind {done : α → Duel → Prop} {done' : β → Duel → Prop}
    (first : action.Ensures duel done)
    (second : ∀ value left, done value left → (next value).Ensures left done') :
    (action >>= next).Ensures duel done' :=
  ensures_bind.mpr (first.mono second)

/-- What comes after a play only has to agree where the play leads. -/
theorem Ensures.bind_eq {done : α → Duel → Prop} {other : α → Play β}
    (ensures : action.Ensures duel done)
    (same : ∀ value left, done value left → next value left = other value left) :
    (action >>= next) duel = (action >>= other) duel := by
  change EStateM.bind action next duel = EStateM.bind action other duel
  unfold Ensures Yields at ensures
  unfold EStateM.bind
  cases ran : action duel with
  | ok value left =>
      rw [ran] at ensures
      exact same value left ensures
  | error fault left => rfl

theorem Ensures.discard {action : Play β} {done : PUnit → Duel → Prop}
    (ensures : action.Ensures duel fun _ left => done () left) :
    (discard action).Ensures duel done :=
  yields_discard.mpr ensures

theorem Ensures.onFault {action : Play β} {repair : Duel → Duel}
    (ensures : action.Ensures duel done) : (onFault action repair).Ensures duel done :=
  yields_onFault.mpr ensures

theorem ensures_throw {fault : Fault} : (throw fault : Play β).Ensures duel done :=
  trivial

theorem ensures_violate {cause : Violation} : (violate cause : Play β).Ensures duel done :=
  trivial

theorem Ensures.of_ok {action : Play β} {value : β} {left : Duel}
    (ensures : action.Ensures duel done) (ran : action duel = .ok value left) : done value left :=
  Yields.of_ok ensures ran

end Success

/-! ## Following a relation -/

/-- From this duel the play leaves a duel behind that is reached by steps of the relation, whether
or not it fails. -/
def Leads (step : Duel → Duel → Prop) (duel : Duel) (action : Play α) : Prop :=
  action.Yields duel (fun _ => ReflTransGen step duel) (ReflTransGen step duel)

/-- From every duel the play goes by steps of the relation. -/
def Follows (step : Duel → Duel → Prop) (action : Play α) : Prop :=
  ∀ duel, Leads step duel action

section Following

variable {step : Duel → Duel → Prop} {action : Play α} {next : α → Play β} {duel : Duel}

theorem Leads.reaches (leads : Leads step duel action) :
    ReflTransGen step duel (action.left duel) :=
  Yields.left leads

theorem Leads.bind (first : Leads step duel action)
    (second : ∀ value left, action duel = .ok value left → Leads step left (next value)) :
    Leads step duel (action >>= next) := by
  unfold Leads at *
  rw [yields_bind]
  unfold Yields at first ⊢
  cases ran : action duel with
  | error fault left => simpa [ran] using first
  | ok value left =>
      have before : ReflTransGen step duel left := by simpa [ran] using first
      exact Yields.mono (second value left ran)
        (fun _ _ after => before.trans after) (fun _ after => before.trans after)

theorem leads_pure {value : β} : Leads step duel (pure value : Play β) :=
  ReflTransGen.refl

theorem leads_modify {change : Duel → Duel} (reaches : ReflTransGen step duel (change duel)) :
    Leads step duel (modify change : Play PUnit) :=
  reaches

/-- Reading the duel first makes it known to the rest. -/
theorem leads_get_bind {next : Duel → Play β} (rest : Leads step duel (next duel)) :
    Leads step duel (get >>= next) :=
  rest

theorem leads_modify_bind {change : Duel → Duel} {next : PUnit → Play β}
    (changed : ReflTransGen step duel (change duel))
    (rest : Leads step (change duel) (next ())) :
    Leads step duel (modify change >>= next) :=
  Leads.bind changed fun _ _ ran => by
    cases ran
    exact rest

theorem leads_roll_bind {draw : Dice → α × Dice}
    (rolled : step duel { duel with dice := (draw duel.dice).2 })
    (rest : Leads step { duel with dice := (draw duel.dice).2 } (next (draw duel.dice).1)) :
    Leads step duel (roll draw >>= next) :=
  Leads.bind (ReflTransGen.single rolled) fun _ _ ran => by
    cases ran
    exact rest

/-- Looking an entity up either fails or makes the entity known to the rest. -/
theorem leads_lookup_bind {id : EntityId} {next : Entity → Play β}
    (rest : ∀ entity, duel.entity? id = some entity → Leads step duel (next entity)) :
    Leads step duel (lookup id >>= next) := by
  unfold Leads
  rw [yields_bind, yields_lookup]
  exact ⟨rest, fun _ => ReflTransGen.refl⟩

theorem leads_lookupCode_bind {code : String} {next : CardId → Play β}
    (rest : ∀ card, Leads step duel (next card)) :
    Leads step duel (lookupCode code >>= next) := by
  unfold lookupCode
  rw [bind_assoc]
  apply leads_get_bind
  split
  · exact rest _
  · exact ReflTransGen.refl

theorem follows_pure {value : β} : Follows step (pure value : Play β) :=
  fun _ => ReflTransGen.refl

theorem follows_throw {fault : Fault} : Follows step (throw fault : Play β) :=
  fun _ => ReflTransGen.refl

theorem follows_violate {cause : Violation} : Follows step (violate cause : Play β) :=
  fun _ => ReflTransGen.refl

theorem follows_get : Follows step (get : Play Duel) :=
  fun _ => ReflTransGen.refl

theorem follows_lookup {id : EntityId} : Follows step (lookup id) := fun duel => by
  unfold Leads
  rw [yields_lookup]
  exact ⟨fun _ _ => ReflTransGen.refl, fun _ => ReflTransGen.refl⟩

theorem follows_lookupCode {code : String} : Follows step (lookupCode code) := fun duel => by
  have leads : Leads step duel (lookupCode code >>= pure) :=
    leads_lookupCode_bind fun _ => leads_pure
  simpa only [bind_pure] using leads

theorem follows_modify {change : Duel → Duel} (changed : ∀ duel, step duel (change duel)) :
    Follows step (modify change : Play PUnit) :=
  fun duel => ReflTransGen.single (changed duel)

/-- A play that follows a relation and succeeds ends in reach. -/
theorem Follows.ensures (follows : Follows step action) :
    action.Ensures duel fun _ left => ReflTransGen step duel left :=
  Yields.mono (follows duel) (fun _ _ reaches => reaches) fun _ _ => trivial

theorem Follows.bind (first : Follows step action) (second : ∀ value, Follows step (next value)) :
    Follows step (action >>= next) :=
  fun duel => (first duel).bind fun value left _ => second value left

theorem Follows.map {change : α → β} (follows : Follows step action) :
    Follows step (change <$> action) := fun duel => by
  unfold Leads
  rw [yields_map]
  exact follows duel

theorem Follows.discard (follows : Follows step action) : Follows step (discard action) :=
  fun duel => by
    unfold Leads
    rw [yields_discard]
    exact follows duel

theorem Follows.times {action : Play Unit} (follows : Follows step action) (count : Nat) :
    Follows step (times count action) := by
  induction count with
  | zero => exact follows_pure
  | succ count ih => exact follows.bind fun _ => ih

theorem follows_forM {γ : Type} {action : γ → Play PUnit}
    (follows : ∀ value, Follows step (action value)) (values : List γ) :
    Follows step (values.forM action) := by
  induction values with
  | nil => exact follows_pure
  | cons value values ih => exact (follows value).bind fun _ => ih

/-- A repair that is a step itself may follow a failing play. -/
theorem Follows.onFault {repair : Duel → Duel} (follows : Follows step action)
    (repaired : ∀ duel, step duel (repair duel)) : Follows step (onFault action repair) :=
  fun duel => by
    unfold Leads
    rw [yields_onFault]
    exact Yields.mono (follows duel) (fun _ _ reaches => reaches)
      (fun left reaches => reaches.tail (repaired left))

/-! ## Answers -/

/-- The play follows the relation, and what it answers with, if anything, is good. -/
def Answers (step : Duel → Duel → Prop) (action : Play α) (good : α → Prop) : Prop :=
  ∀ duel, action.Yields duel (fun value left => good value ∧ ReflTransGen step duel left)
    (ReflTransGen step duel)

variable {good : β → Prop}

theorem answers_pure {value : β} (holds : good value) :
    Answers step (pure value : Play β) good :=
  fun _ => ⟨holds, ReflTransGen.refl⟩

theorem answers_violate {cause : Violation} :
    Answers step (violate cause : Play β) good :=
  fun _ => ReflTransGen.refl

theorem Answers.follows {good : α → Prop} (answers : Answers step action good) :
    Follows step action :=
  fun duel => Yields.mono (answers duel) (fun _ _ both => both.2) (fun _ reaches => reaches)

theorem Answers.bind {expected : α → Prop} (first : Answers step action expected)
    (second : ∀ value, expected value → Answers step (next value) good) :
    Answers step (action >>= next) good := fun duel => by
  rw [yields_bind]
  refine Yields.mono (first duel) (fun value middle reached => ?_) (fun _ reaches => reaches)
  refine Yields.mono (second value reached.1 middle)
    (fun _ _ both => ⟨both.1, reached.2.trans both.2⟩) (fun _ after => reached.2.trans after)

theorem Follows.answers (first : Follows step action)
    (second : ∀ value, Answers step (next value) good) :
    Answers step (action >>= next) good :=
  have anything : Answers step action fun _ => True := fun duel =>
    Yields.mono (first duel) (fun _ _ reaches => ⟨trivial, reaches⟩) (fun _ reaches => reaches)
  anything.bind fun value _ => second value

/-- What a play answers with is known to the rest. -/
theorem Answers.followed {expected : α → Prop} (first : Answers step action expected)
    (second : ∀ value, expected value → Follows step (next value)) :
    Follows step (action >>= next) := fun duel => by
  unfold Leads
  rw [yields_bind]
  refine Yields.mono (first duel) (fun value middle reached => ?_) (fun _ reaches => reaches)
  exact Yields.mono (second value reached.1 middle)
    (fun _ _ after => reached.2.trans after) (fun _ after => reached.2.trans after)

end Following

end Play

end CardDuel
