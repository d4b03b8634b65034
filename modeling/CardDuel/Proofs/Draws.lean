import CardDuel.Dice.Sample
import Mathlib.Data.List.Nodup

/-!
# What the dice draw

Numbers drawn below a bound are below it, shuffling keeps the elements of a list, and
a sample has distinct places, as many as it is asked for while there are so many.
-/

namespace CardDuel.Dice

theorem search_lt {width bound : Nat} {draw : Dice → Nat × Dice} (positive : 0 < bound)
    (words : ∀ dice, (draw dice).1 < Nat.pow 2 width) (tries : Nat) (dice : Dice) :
    (search width bound draw tries dice).1 < bound := by
  induction tries generalizing dice with
  | zero => exact positive
  | succ tries ih =>
      simp only [search]
      split
      · exact Nat.div_lt_of_lt_mul (Nat.mul_lt_mul_of_pos_right (words dice) positive)
      · exact ih _

theorem below_lt (dice : Dice) {bound : Nat} (positive : 0 < bound) :
    (dice.below bound).1 < bound :=
  search_lt positive (fun dice => (StreamKey.word _ dice.position).toNat_lt) period dice

theorem swapIfInBounds_perm {α : Type} (elements : Array α) (place other : Nat) :
    (elements.swapIfInBounds place other).toList.Perm elements.toList := by
  unfold Array.swapIfInBounds
  split
  · split
    · exact (Array.swap_perm _ _).toList
    · exact .refl _
  · exact .refl _

theorem shuffleFrom_perm {α : Type} (count : Nat) (elements : Array α) (dice : Dice) :
    (shuffleFrom count elements dice).1.toList.Perm elements.toList := by
  induction count generalizing elements dice with
  | zero => exact .refl _
  | succ count ih =>
      simp only [shuffleFrom]
      exact (ih _ _).trans (swapIfInBounds_perm elements _ _)

theorem shuffle_perm {α : Type} (dice : Dice) (elements : List α) :
    (dice.shuffle elements).1.Perm elements :=
  shuffleFrom_perm (elements.length - 1) elements.toArray dice

/-- So many distinct places below a bound. -/
structure Places (bound amount : Nat) (places : List Nat) : Prop where
  distinct : places.Nodup
  below : ∀ place ∈ places, place < bound
  length : places.length = amount

theorem Places.perm {bound amount : Nat} {places others : List Nat}
    (sample : Places bound amount places) (reordered : others.Perm places) :
    Places bound amount others where
  distinct := reordered.nodup_iff.mpr sample.distinct
  below place member := sample.below place (reordered.mem_iff.mp member)
  length := reordered.length_eq.trans sample.length

/-- A place that is not picked yet joins the others. -/
theorem Places.cons {bound amount place : Nat} {places : List Nat}
    (sample : Places bound amount places) (fresh : place ∉ places) (small : place < bound + 1) :
    Places (bound + 1) (amount + 1) (place :: places) where
  distinct := List.nodup_cons.mpr ⟨fresh, sample.distinct⟩
  below other member := by
    rcases List.mem_cons.mp member with rfl | old
    · exact small
    · exact Nat.lt_succ_of_lt (sample.below other old)
  length := congrArg Nat.succ sample.length

theorem pickUpTo_places (ordered : Bool) {limit amount : Nat} {picked : List Nat} (dice : Dice)
    (sample : Places limit amount picked) :
    Places (limit + 1) (amount + 1) (pickUpTo ordered limit picked dice).1 := by
  have drawn := below_lt dice (Nat.succ_pos limit)
  have unpicked : limit ∉ picked := fun member => Nat.lt_irrefl limit (sample.below limit member)
  have widened := sample.cons unpicked (Nat.lt_succ_self limit)
  simp only [pickUpTo]
  split
  next missed =>
    have fresh : (dice.below (limit + 1)).1 ∉ picked := fun member => by
      have differs := List.findIdx?_eq_none_iff.mp missed _ member
      simp at differs
    exact (sample.cons fresh drawn).perm (List.perm_append_singleton _ _)
  next turn found =>
    have turnBound : turn ≤ picked.length :=
      Nat.le_of_lt (List.findIdx?_eq_some_iff_getElem.mp found).1
    cases ordered with
    | true => exact widened.perm (List.perm_insertIdx limit picked turnBound)
    | false => exact widened.perm (List.perm_append_singleton _ _)

theorem pickEach_places (ordered : Bool) (count : Nat) {limit amount : Nat} {picked : List Nat}
    (dice : Dice) (sample : Places limit amount picked) :
    Places (limit + count) (amount + count) (pickEach ordered count limit picked dice).1 := by
  induction count generalizing limit amount picked dice with
  | zero => exact sample
  | succ count ih =>
      have all := ih (pickUpTo ordered limit picked dice).2 (pickUpTo_places ordered dice sample)
      rwa [Nat.add_right_comm limit, Nat.add_right_comm amount] at all

theorem samplePlaceByPlace_places (dice : Dice) {length amount : Nat} (enough : amount ≤ length) :
    Places length amount (dice.samplePlaceByPlace length amount).1 := by
  have nothing : Places (length - amount) 0 [] := ⟨List.nodup_nil, nofun, rfl⟩
  have all (ordered : Bool) := pickEach_places ordered amount dice nothing
  simp only [Nat.sub_add_cancel enough, Nat.zero_add] at all
  simp only [samplePlaceByPlace]
  split
  · exact all _
  · exact (all _).perm (shuffle_perm _ _)

theorem shuffleHead_perm (length count place : Nat) (places : Array Nat) (dice : Dice) :
    (shuffleHead length count place places dice).1.toList.Perm places.toList := by
  induction count generalizing place places dice with
  | zero => exact .refl _
  | succ count ih =>
      simp only [shuffleHead]
      exact (ih _ _ _).trans (swapIfInBounds_perm places _ _)

theorem sampleInPlace_places (dice : Dice) {length amount : Nat} (enough : amount ≤ length) :
    Places length amount (dice.sampleInPlace length amount).1 := by
  have reordered := shuffleHead_perm length amount 0 (Array.range length) dice
  rw [Array.toList_range] at reordered
  constructor
  case distinct =>
    exact (reordered.nodup_iff.mpr List.nodup_range).sublist (List.take_sublist ..)
  case below =>
    intro place member
    exact List.mem_range.mp (reordered.mem_iff.mp (List.mem_of_mem_take member))
  case length =>
    have all : (shuffleHead length amount 0 (Array.range length) dice).1.toList.length = length :=
      reordered.length_eq.trans List.length_range
    refine (List.length_take ..).trans ?_
    rw [all, Nat.min_eq_left enough]

/-- However it is drawn, a sample has distinct places below the length, as many as are asked for
while there are so many. -/
theorem sample_places (dice : Dice) (length amount : Nat) :
    Places length (min amount length) (dice.sample length amount).1 := by
  simp only [sample]
  split
  · exact sampleInPlace_places dice (Nat.min_le_right ..)
  · exact samplePlaceByPlace_places dice (Nat.min_le_right ..)

section Elements

variable {α : Type} (dice : Dice) (elements : List α) (amount : Nat)

theorem sampleOf_eq :
    (dice.sampleOf elements amount).1 =
      (dice.sample elements.length amount).1.filterMap fun place => elements[place]? :=
  rfl

theorem mem_of_mem_sampleOf {element : α} (member : element ∈ (dice.sampleOf elements amount).1) :
    element ∈ elements := by
  obtain ⟨place, -, found⟩ := List.mem_filterMap.mp member
  exact List.mem_of_getElem? found

theorem length_sampleOf :
    (dice.sampleOf elements amount).1.length = min amount elements.length := by
  have places := dice.sample_places elements.length amount
  rw [sampleOf_eq, List.filterMap_length_eq_length.mpr, places.length]
  intro place member
  rw [List.getElem?_eq_getElem (places.below place member)]
  rfl

variable {elements} in
/-- A sample of a list without repetitions has none. -/
theorem nodup_sampleOf (distinct : elements.Nodup) :
    (dice.sampleOf elements amount).1.Nodup := by
  have places := dice.sample_places elements.length amount
  rw [sampleOf_eq]
  refine List.Nodup.filterMap (fun first second element here there => ?_) places.distinct
  obtain ⟨bound, found⟩ := List.getElem?_eq_some_iff.mp here
  obtain ⟨bound', found'⟩ := List.getElem?_eq_some_iff.mp there
  exact (distinct.getElem_inj_iff).mp (found.trans found'.symm)

variable {elements amount} in
theorem sampleOf_ne_nil (inhabited : elements ≠ []) (positive : 0 < amount) :
    (dice.sampleOf elements amount).1 ≠ [] := by
  have lengthPos : 0 < elements.length := List.length_pos_iff.mpr inhabited
  rw [← List.length_pos_iff, length_sampleOf]
  omega

end Elements

end CardDuel.Dice
