/-!
# Words

Counters are kept in words of 32 bits, with a sign or without one.  A sum that a word
cannot hold wraps round, unless the build checks its sums and stops there.
-/

namespace CardDuel.Word

/-- Whether a word with a sign holds a number. -/
def Fits (number : Int) : Prop :=
  -0x80000000 ≤ number ∧ number ≤ 0x7fffffff

instance (number : Int) : Decidable (Fits number) :=
  inferInstanceAs (Decidable (_ ∧ _))

/-- What is left of a number in a word with a sign. -/
def signed (number : Int) : Int :=
  (number + 0x80000000) % 0x100000000 - 0x80000000

/-- What is left of a number in a word without a sign. -/
def unsigned (number : Nat) : Nat :=
  number % 0x100000000

variable {number : Int}

theorem signed_of_fits (fits : Fits number) : signed number = number := by
  unfold Fits at fits
  unfold signed
  omega

theorem unsigned_of_lt {number : Nat} (small : number < 0x100000000) : unsigned number = number :=
  Nat.mod_eq_of_lt small

end CardDuel.Word
