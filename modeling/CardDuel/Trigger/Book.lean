import CardDuel.Entity

/-!
# The book of live triggers

A trigger is written into the book when its entity enters the rule's zone and
struck out when the entity leaves it.  Handles count upwards and are never used
twice, so work that is queued for a struck-out trigger can be recognised.  An
index by kind of event finds the listeners of an event.
-/

namespace CardDuel

/-- The live triggers that listen for each kind of event.  A kind without listeners has no row. -/
abbrev TriggerIndex := List (EventKind × List TriggerId)

namespace TriggerIndex

def listeners (index : TriggerIndex) (kind : EventKind) : List TriggerId :=
  match List.find? (fun row => row.1 == kind) index with
  | none => []
  | some row => row.2

/-- Add a listener at the end of its row. -/
def insert (index : TriggerIndex) (kind : EventKind) (id : TriggerId) : TriggerIndex :=
  match index with
  | [] => [(kind, [id])]
  | (rowKind, ids) :: rows =>
    if rowKind = kind then (rowKind, ids ++ [id]) :: rows
    else (rowKind, ids) :: insert rows kind id

/-- Take a listener out of its row, and the row with it when nobody is left. -/
def erase (index : TriggerIndex) (kind : EventKind) (id : TriggerId) : TriggerIndex :=
  List.filterMap
    (fun row : EventKind × List TriggerId =>
      if row.1 = kind then
        let rest := row.2.filter fun other => other ≠ id
        if rest.isEmpty then none else some (row.1, rest)
      else some row)
    index

end TriggerIndex

/-- What matching and ordering triggers needs to know of the table. -/
structure TriggerView where
  current : Player
  ownerOf : EntityId → Option Player
  kindOf : EntityId → Option EntityKind
  heroOf : Player → EntityId
  /-- The place of an entity among the sources of its side. -/
  rank : EntityId → Nat
  /-- Whether a trigger's condition holds for a subject. -/
  holds : Trigger → Condition → EntityId → Bool

namespace Trigger

/-- Whether a trigger watches the subject of an event; a turn event has none and is watched by its
player. -/
def sees (trigger : Trigger) (view : TriggerView) (event : Event) : Bool :=
  match event.subject with
  | none => trigger.rule.watches.seesTurnOf trigger.controller event.player
  | some subject =>
    let owner := view.ownerOf subject
    let friendly : Bool := owner = some trigger.controller
    let hostile : Bool := owner.isSome && !friendly
    let minion : Bool := view.kindOf subject = some .minion
    match trigger.rule.watches with
    | .self => subject = trigger.owner
    | .friendly => friendly
    | .enemy => hostile
    | .everyone => true
    | .hero => subject = view.heroOf trigger.controller
    | .enemyHero => subject = view.heroOf trigger.controller.opponent
    | .friendlyMinions => friendly && minion
    | .otherFriendlyMinions => friendly && minion && subject ≠ trigger.owner
    | .enemyMinions => hostile && minion
    | .allMinions => minion

/-- Whether a trigger that listens for the kind of an event reacts to it.  A secret waits for the
turn of the other player. -/
def matchesEvent (trigger : Trigger) (view : TriggerView) (event : Event) : Bool :=
  !(trigger.rule.zone = .secret && view.current = trigger.controller) &&
    trigger.sees view event &&
    match trigger.rule.condition with
    | none => true
    | some condition => view.holds trigger condition (event.subject.getD trigger.owner)

/-- Whether the first trigger reacts before the second: the current player's triggers come first,
then those further left, then the older ones. -/
def precedes (view : TriggerView) (first second : Trigger) : Bool :=
  let late (trigger : Trigger) : Nat := if trigger.controller = view.current then 0 else 1
  late first < late second ||
    late first = late second &&
      (view.rank first.owner < view.rank second.owner ||
        view.rank first.owner = view.rank second.owner && first.id.number < second.id.number)

def insertInOrder (view : TriggerView) (trigger : Trigger) : List Trigger → List Trigger
  | [] => [trigger]
  | other :: others =>
    if trigger.precedes view other then trigger :: other :: others
    else other :: insertInOrder view trigger others

def inOrder (view : TriggerView) (triggers : List Trigger) : List Trigger :=
  triggers.foldr (insertInOrder view) []

end Trigger

structure TriggerBook where
  /-- Oldest first. -/
  active : List Trigger
  index : TriggerIndex
  /-- The number of the next handle. -/
  next : Nat
deriving Inhabited

namespace TriggerBook

def empty : TriggerBook := ⟨[], [], 0⟩

def nextId (book : TriggerBook) : TriggerId := ⟨book.next⟩

/-- Write a trigger into the book.  It gets the next handle. -/
def enroll (book : TriggerBook) (owner : EntityId) (controller : Player) (rule : TriggerRule) :
    TriggerId × TriggerBook :=
  (book.nextId,
    { active := book.active ++ [⟨book.nextId, owner, controller, rule⟩]
      index := book.index.insert rule.listensFor book.nextId
      next := book.next + 1 })

def register (book : TriggerBook) (owner : EntityId) (controller : Player) (rule : TriggerRule) :
    TriggerBook :=
  (book.enroll owner controller rule).2

def get? (book : TriggerBook) (id : TriggerId) : Option Trigger :=
  book.active.find? fun trigger => trigger.id == id

/-- Strike a trigger out and hand it over. -/
def strike (book : TriggerBook) (id : TriggerId) : Option Trigger × TriggerBook :=
  match book.get? id with
  | none => (none, book)
  | some trigger =>
    (some trigger,
      { book with
        active := book.active.filter fun other => other.id ≠ id
        index := book.index.erase trigger.rule.listensFor id })

def unregister (book : TriggerBook) (id : TriggerId) : TriggerBook :=
  (book.strike id).2

def stage (book : TriggerBook) (id : TriggerId) : TriggerStage :=
  if (book.get? id).isSome then .active
  else if id.number < book.next then .removed
  else .unregistered

/-- The live triggers of an entity, oldest first. -/
def ownedBy (book : TriggerBook) (owner : EntityId) : List Trigger :=
  book.active.filter fun trigger => trigger.owner = owner

/-- Strike out the triggers of an entity and count them. -/
def dismiss (book : TriggerBook) (owner : EntityId) : Nat × TriggerBook :=
  let struck := book.ownedBy owner
  (struck.length, struck.foldl (fun book trigger => book.unregister trigger.id) book)

def dropOwner (book : TriggerBook) (owner : EntityId) : TriggerBook :=
  (book.dismiss owner).2

def size (book : TriggerBook) : Nat :=
  book.active.length

/-- The triggers that react to an event, in the order in which they react. -/
def reactions (book : TriggerBook) (view : TriggerView) (event : Event) : List Trigger :=
  Trigger.inOrder view
    (((book.index.listeners event.kind).filterMap book.get?).filter fun trigger =>
      trigger.matchesEvent view event)

end TriggerBook

end CardDuel
