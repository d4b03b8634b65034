import CardDuel.Effect
import CardDuel.Event

/-!
# Resolutions

A resolution is an effect list in progress: the nested lists that are still to be
run, who runs them against whom, and the scratch values passed from effect to
effect.  It is a plain value, so a list that waits for a choice can be put aside
and taken up again where it stopped.
-/

namespace CardDuel

/-- Who runs an effect list and what it is aimed at. -/
structure EffectContext where
  controller : Player
  /-- The card, minion or trigger owner the effects belong to. -/
  source : EntityId
  target : Option EntityId
  /-- The event that set off a trigger. -/
  event : Option Event
deriving DecidableEq, Inhabited

/-- Values passed between the effects of one list. -/
structure Scratch where
  collected : List EntityId
  /-- Cards that were made and not yet placed. -/
  made : List EntityId
  number : Int
  flag : Bool
deriving DecidableEq, Inhabited

namespace Scratch

def initial : Scratch := ⟨[], [], 0, false⟩

end Scratch

/-- What running an effect means for its list. -/
inductive Outcome
  /-- Go on with the next effect. -/
  | complete
  /-- Skip the rest of the innermost list. -/
  | stop
  | suspended
deriving DecidableEq, Inhabited

namespace Outcome

def name : Outcome → String
  | complete => "Complete"
  | stop => "Stop"
  | suspended => "Suspended"

end Outcome

structure Resolution where
  /-- What is left of each nested list, the innermost first. -/
  frames : List (List Effect)
  context : EffectContext
  scratch : Scratch
deriving Inhabited

namespace Resolution

def ofEffects (effects : List Effect) (context : EffectContext) : Resolution :=
  ⟨[effects], context, Scratch.initial⟩

/-- Enter a nested list; an empty one leaves nothing to do. -/
def enter (resolution : Resolution) (effects : List Effect) : Resolution :=
  if effects.isEmpty then resolution
  else { resolution with frames := effects :: resolution.frames }

def leave (resolution : Resolution) : Resolution :=
  { resolution with frames := resolution.frames.tail }

def isFinished (resolution : Resolution) : Bool :=
  resolution.frames.all List.isEmpty

def framesWeight (frames : List (List Effect)) : Nat :=
  (frames.map fun effects => Effect.listWeight effects + 1).foldr (· + ·) 0

/-- An upper bound for the steps left: each step runs one effect or leaves one list. -/
def weight (resolution : Resolution) : Nat :=
  framesWeight resolution.frames

end Resolution

end CardDuel
