import CardDuel.Registry

/-!
# The catalogue of cards

A catalogue is a registry whose collections agree.  A duel reads the catalogue and
never changes it.
-/

namespace CardDuel

structure Catalogue extends Registry where
  agrees : toRegistry.Agrees

namespace Catalogue

variable {catalogue : Catalogue} {card : Card} {id : CardId}

def empty : Catalogue := ⟨.empty, [], Registry.files_empty⟩

instance : Inhabited Catalogue := ⟨empty⟩

/-- The catalogue of cards that stand in a row, with starting heroes. -/
def ofEntries (entries : List CatalogueEntry) (heroes : Dictionary CardClass CardId)
    (ids : (entries.map fun entry => entry.card.id).Nodup)
    (codes : (entries.map fun entry => entry.card.code).Nodup) : Catalogue :=
  ⟨.ofEntries entries heroes, entries, Registry.files_ofEntries heroes ids codes⟩

theorem id_of_card? (listed : catalogue.card? id = some card) : card.id = id :=
  catalogue.agrees.id_of_card? listed

def register (catalogue : Catalogue) (card : Card) (behaviour : Behaviour) :
    Except SetupError Catalogue :=
  match ran : Registry.register card behaviour catalogue.toRegistry with
  | .ok () after => .ok ⟨after, catalogue.agrees.register ran⟩
  | .error cause _ => .error cause

def setDefaultHero (catalogue : Catalogue) (code : String) : Except SetupError Catalogue :=
  match ran : Registry.setDefaultHero code catalogue.toRegistry with
  | .ok () after => .ok ⟨after, catalogue.agrees.setDefaultHero ran⟩
  | .error cause _ => .error cause

end Catalogue

end CardDuel
