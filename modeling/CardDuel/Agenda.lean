import CardDuel.Resolution
import CardDuel.Trigger

/-!
# The agenda

An action is split into phases that wait on the agenda.  What a phase provokes,
triggers and deathrattles, is queued as reactions.  Reactions go before the next
phase, so everything a phase provokes is over when the next one starts; within
each queue the order is that of arrival.
-/

namespace CardDuel

inductive Work
  | run (resolution : Resolution)
  /-- Fire a trigger that reacted to an event, if it is still live. -/
  | trigger (id : TriggerId) (event : Event)
  | announce (event : Event)
  /-- Move a resolved spell from the set-aside zone to the graveyard. -/
  | bury (spell : EntityId)
deriving Inhabited

structure Agenda where
  phases : List Work
  reactions : List Work
deriving Inhabited

namespace Agenda

def empty : Agenda := ⟨[], []⟩

def addPhase (agenda : Agenda) (work : Work) : Agenda :=
  { agenda with phases := agenda.phases ++ [work] }

def addPhases (agenda : Agenda) (works : List Work) : Agenda :=
  { agenda with phases := agenda.phases ++ works }

def addReaction (agenda : Agenda) (work : Work) : Agenda :=
  { agenda with reactions := agenda.reactions ++ [work] }

def addReactions (agenda : Agenda) (works : List Work) : Agenda :=
  { agenda with reactions := agenda.reactions ++ works }

/-- Take the next piece of work: reactions first, then phases. -/
def next? (agenda : Agenda) : Option (Work × Agenda) :=
  match agenda.reactions with
  | work :: rest => some (work, { agenda with reactions := rest })
  | [] =>
    match agenda.phases with
    | work :: rest => some (work, { agenda with phases := rest })
    | [] => none

def size (agenda : Agenda) : Nat :=
  agenda.phases.length + agenda.reactions.length

/-- All scheduled work in the order in which it is taken. -/
def toList (agenda : Agenda) : List Work :=
  agenda.reactions ++ agenda.phases

theorem next?_toList (agenda : Agenda) :
    agenda.next?.map (fun taken => taken.1 :: taken.2.toList) =
      if agenda.toList = [] then none else some agenda.toList := by
  rcases agenda with ⟨phases, reactions⟩
  cases reactions <;> cases phases <;> rfl

variable {agenda : Agenda} {work : Work} {works : List Work}

/-- New reactions come after the old ones and before the phases. -/
theorem mem_toList_addReactions :
    work ∈ (agenda.addReactions works).toList ↔ work ∈ agenda.toList ∨ work ∈ works := by
  simp only [addReactions, toList, List.mem_append]
  rw [or_right_comm]

theorem mem_toList_addPhases :
    work ∈ (agenda.addPhases works).toList ↔ work ∈ agenda.toList ∨ work ∈ works := by
  simp only [addPhases, toList, List.mem_append, or_assoc]

end Agenda

end CardDuel
