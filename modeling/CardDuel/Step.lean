import CardDuel.Enumerated

/-!
# Steps

A duel moves through opening steps once and then around the cycle of a turn.
Two steps end it.
-/

namespace CardDuel

/-- Where in its course a duel stands. -/
inductive Step
  | unstarted
  | beginFirst
  | beginShuffle
  | beginDraw
  | beginMulligan
  | mainReady
  | mainStartTriggers
  | mainResource
  | mainDraw
  | mainStart
  | mainAction
  | mainEndTriggers
  | mainCleanup
  | mainNext
  | finalWrapup
  | finalGameOver
deriving DecidableEq, Inhabited

namespace Step

def name : Step → String
  | unstarted => "Invalid"
  | beginFirst => "BeginFirst"
  | beginShuffle => "BeginShuffle"
  | beginDraw => "BeginDraw"
  | beginMulligan => "BeginMulligan"
  | mainReady => "MainReady"
  | mainStartTriggers => "MainStartTriggers"
  | mainResource => "MainResource"
  | mainDraw => "MainDraw"
  | mainStart => "MainStart"
  | mainAction => "MainAction"
  | mainEndTriggers => "MainEndTriggers"
  | mainCleanup => "MainCleanup"
  | mainNext => "MainNext"
  | finalWrapup => "FinalWrapup"
  | finalGameOver => "FinalGameOver"

instance : Enumerated Step where
  values :=
    [unstarted, beginFirst, beginShuffle, beginDraw, beginMulligan, mainReady, mainStartTriggers,
      mainResource, mainDraw, mainStart, mainAction, mainEndTriggers, mainCleanup, mainNext,
      finalWrapup, finalGameOver]
  name := name
  mem_values step := by cases step <;> decide

def next : Step → Step
  | unstarted => beginFirst
  | beginFirst => beginShuffle
  | beginShuffle => beginDraw
  | beginDraw => beginMulligan
  | beginMulligan => mainReady
  | mainReady => mainStartTriggers
  | mainStartTriggers => mainResource
  | mainResource => mainDraw
  | mainDraw => mainStart
  | mainStart => mainAction
  | mainAction => mainEndTriggers
  | mainEndTriggers => mainCleanup
  | mainCleanup => mainNext
  | mainNext => mainReady
  | finalWrapup | finalGameOver => finalGameOver

def isOpening : Step → Bool
  | beginFirst | beginShuffle | beginDraw | beginMulligan => true
  | _ => false

def opening : List Step := [beginFirst, beginShuffle, beginDraw, beginMulligan]

/-- How many steps lead from here to the next decision or to the end. -/
def distance : Step → Nat
  | mainReady => 5
  | mainStartTriggers => 4
  | mainResource => 3
  | mainDraw => 2
  | mainStart => 1
  | mainEndTriggers => 8
  | mainCleanup => 7
  | mainNext => 6
  | finalWrapup => 1
  | _ => 0

/-- A step that is no decision, no opening step and not the end is one step further away than the
step that follows it. -/
theorem distance_next {step : Step} (away : step.distance ≠ 0) :
    step.next.distance + 1 = step.distance := by
  cases step <;> simp_all [distance, next]

end Step

end CardDuel
