import Mathlib.Algebra.Group.Nat.Defs
import GraphSession.Proofs.Json.Reading

/-!
# Well-formed values

Not every term of the type of values is one that a program can hold: names of an object do not
repeat, and numbers are integers of 64 bits or finite floats (`Json.WellFormed`). Unlike a durable
value (`Json.Durable`), a well-formed one need not survive its text, where a float can be read as a
neighbour of what was written.

**Converted integers are finite.** Where a float is asked for, an integer is converted, and within
reach that never overflows (`Double.isFinite_ofInt`).
-/

namespace GraphSession

namespace Json

/-- What a value can be: integers of 64 bits, finite floats, and objects in which no name
repeats. -/
inductive WellFormed : Json → Prop
  | null : WellFormed .null
  | bool (b : Bool) : WellFormed (.bool b)
  | int {n : Int} (h : InReach n) : WellFormed (.int n)
  | float {d : Double} (h : d.isFinite = true) : WellFormed (.float d)
  | str (s : String) : WellFormed (.str s)
  | arr {items : List Json} (h : ∀ j ∈ items, WellFormed j) : WellFormed (.arr items)
  | obj {fields : List (String × Json)} (distinct : (Entries.keys fields).Nodup)
      (h : ∀ f ∈ fields, WellFormed f.2) : WellFormed (.obj fields)

/-- A float that survives is finite, since an infinite one has no digits. -/
theorem isFinite_of_survives {d : Double} (h : Survives ofDouble Tree.double d) :
    d.isFinite = true :=
  (readNumeral_text h).1

/-- A durable value is well-formed. -/
theorem Durable.wellFormed {j : Json} (h : j.Durable) : j.WellFormed := by
  induction h with
  | null => exact .null
  | bool b => exact .bool b
  | int h => exact .int h
  | float h => exact .float (isFinite_of_survives h)
  | str s => exact .str s
  | arr h ih => exact .arr ih
  | obj distinct h ih => exact .obj distinct ih

end Json

namespace Double

/-- A magnitude below infinity is kept. -/
theorem magnitude_ofMagnitude (negative : Bool) {m : Nat} (h : m < infinityMagnitude) :
    (ofMagnitude negative m).magnitude = m := by
  have hlt : m < 9218868437227405312 := h
  have hmin : min m infinityMagnitude = m := Nat.min_eq_left (Nat.le_of_lt h)
  rw [magnitude, ofMagnitude]
  simp only [hmin, signWeight, Nat.pow_eq, UInt64.toNat_ofNat']
  split <;> omega

/-- A number of such a magnitude is finite. -/
theorem isFinite_ofMagnitude (negative : Bool) {m : Nat} (h : m < infinityMagnitude) :
    (ofMagnitude negative m).isFinite = true := by
  rw [isFinite, magnitude_ofMagnitude negative h]
  exact decide_eq_true h

/-- Rounding to 53 bits gives one more than 53 bits at most. -/
theorem roundDiv_log2_le (n : Nat) : roundDiv n (2 ^ (n.log2 - 52)) ≤ 2 ^ 53 := by
  have hlt : n < 2 ^ 53 * 2 ^ (n.log2 - 52) := by
    rw [← Nat.pow_add]
    exact Nat.lt_of_lt_of_le Nat.lt_log2_self (Nat.pow_le_pow_right (by decide) (by omega))
  have hquotient : n / 2 ^ (n.log2 - 52) < 2 ^ 53 := Nat.div_lt_of_lt_mul (Nat.mul_comm _ _ ▸ hlt)
  rw [roundDiv]
  split <;> omega

/-- How long a number below `2 ^ 64` is after a shift. -/
theorem log2_mul_pow_lt {n : Nat} (hn : n ≠ 0) (h : n < 2 ^ 64) (e : Nat) :
    (n * Nat.pow 2 e).log2 < 64 + e := by
  have hpow : 0 < 2 ^ e := Nat.pow_pos (by decide)
  rw [Nat.pow_eq, Nat.log2_lt (Nat.mul_ne_zero hn hpow.ne'), Nat.pow_add]
  exact Nat.mul_lt_mul_of_pos_right h hpow

/-- A number of so many digits stays below infinity when it is rounded. -/
theorem lt_infinityMagnitude {n e : Nat} (h : n.log2 < 64 + e) (he : e = 1074) :
    (n.log2 - 52) * Nat.pow 2 52 + roundDiv n (Nat.pow 2 (n.log2 - 52)) < infinityMagnitude := by
  have hround := roundDiv_log2_le n
  have hinfinity : infinityMagnitude = 2047 * 2 ^ 52 := by decide
  rw [Nat.pow_eq, Nat.pow_eq, hinfinity]
  omega

/-- Every integer below `2 ^ 64` has a finite nearest number. -/
theorem isFinite_ofRatio_one (negative : Bool) {n : Nat} (h : n < 2 ^ 64) :
    (ofRatio negative n 1).isFinite = true := by
  rw [ofRatio]
  split
  · exact isFinite_ofMagnitude negative (by decide)
  · rename_i hn
    -- the weight is kept abstract, so that nothing computes its power
    obtain ⟨e, he⟩ : ∃ e, e = 1074 := ⟨_, rfl⟩
    rw [← he]
    simp only [Nat.div_one, Nat.one_mul]
    exact isFinite_ofMagnitude negative (lt_infinityMagnitude (log2_mul_pow_lt hn h e) he)

/-- **An integer of 64 bits is converted to a finite float.** -/
theorem isFinite_ofInt {n : Int} (h : Json.InReach n) : (ofInt n).isFinite = true := by
  obtain ⟨hlow, hhigh⟩ := Json.inReach_iff.1 h
  exact isFinite_ofRatio_one _ (by omega)

end Double

end GraphSession
