/-!
# Enumerated types

A card game is full of small closed vocabularies: tags, classes, races, steps.
Each of them lists its values once, in a fixed order, and gives every value the
word that stands for it in documents and messages.  The place of a value in the
order is its number in binary records.
-/

namespace CardDuel

/-- A finite type whose values stand in a fixed order, each with a printed name. -/
class Enumerated (α : Type) where
  /-- Every value, in order. -/
  values : List α
  /-- The word for a value. -/
  name : α → String
  /-- The list leaves no value out. -/
  mem_values : ∀ value : α, value ∈ values

namespace Enumerated

variable {α : Type} [Enumerated α]

def ofName? (word : String) : Option α :=
  (values : List α).find? fun value => name value == word

def index [DecidableEq α] (value : α) : Nat :=
  (values : List α).idxOf value

def ofIndex? (place : Nat) : Option α :=
  (values : List α)[place]?

theorem index_lt [DecidableEq α] (value : α) :
    index value < (values : List α).length :=
  List.idxOf_lt_length_of_mem (mem_values value)

@[simp]
theorem ofIndex?_index [DecidableEq α] (value : α) :
    ofIndex? (index value) = some value := by
  have inRange := index_lt value
  simp only [index] at inRange
  simp [ofIndex?, index, List.getElem?_eq_getElem inRange]

end Enumerated

end CardDuel
