import Mathlib.Data.List.TakeWhile
import GraphSession.Json.Reader
import GraphSession.Json.Writer

/-!
# Numbers are read from the front

A number ends where its text ends, whatever follows it in a longer text, as long as that could not
be more of a number (`forward_readNumeral`). So it is enough to know how the number reads on its
own. The digits of an integer of 64 bits are read as that integer (`readNumeral_writeInt`,
`ofNumeral_of_inReach`).
-/

namespace GraphSession

namespace Json

/-- What may follow a value in a text. -/
def Stops (rest : List Char) : Prop := ∀ c ∈ rest.head?, c = ',' ∨ c = ']' ∨ c = '\x7d'

theorem stops_nil : Stops [] := nofun

/-- What separates values stops a numeral. -/
theorem stops_cons {c : Char} (h : c = ',' ∨ c = ']' ∨ c = '\x7d') (rest : List Char) :
    Stops (c :: rest) := by
  rintro d ⟨⟩
  exact h

/-! ### What follows a number -/

/-- A reader takes what it reads from the front, and would not read on in what may follow a
value. -/
def Forward {α : Type} (read : List Char → Option (α × List Char)) : Prop :=
  ∀ ⦃cs r cs'⦄, read cs = some (r, cs') →
    cs' <:+ cs ∧ ∀ rest, Stops rest → read (cs ++ rest) = some (r, cs' ++ rest)

variable {cs cs' rest : List Char}

/-- Digits are read one by one. -/
theorem readDigits_cons (c : Char) (cs : List Char) : readDigits (c :: cs) =
    if c.isDigit then ((c.toNat - 48) :: (readDigits cs).1, (readDigits cs).2)
    else ([], c :: cs) := by
  cases hc : c.isDigit <;> simp [readDigits, hc]

/-- No digit is read where a numeral stops. -/
theorem readDigits_of_stops (hrest : Stops rest) : readDigits rest = ([], rest) := by
  cases rest with
  | nil => rfl
  | cons c rest => rcases hrest c rfl with rfl | rfl | rfl <;> rfl

/-- What stops a numeral adds no digit to it. -/
theorem readDigits_append (hrest : Stops rest) (cs : List Char) :
    readDigits (cs ++ rest) = ((readDigits cs).1, (readDigits cs).2 ++ rest) := by
  induction cs with
  | nil => exact readDigits_of_stops hrest
  | cons c cs ih =>
    rw [List.cons_append, readDigits_cons, readDigits_cons, ih]
    split <;> rfl

/-- What is left after digits is the end of the text. -/
theorem suffix_readDigits (cs : List Char) : (readDigits cs).2 <:+ cs := List.dropWhile_suffix _

/-- Reading a whole part does not look past what stops a numeral, -/
theorem forward_readWhole : Forward readWhole := by
  intro cs r cs' h
  have hsuffix := suffix_readDigits cs
  have happend := fun rest (hrest : Stops rest) ↦ readDigits_append hrest cs
  rw [readWhole] at h
  rcases hdigits : readDigits cs with ⟨_ | ⟨d, ds⟩, tail⟩ <;> rw [hdigits] at h hsuffix happend
  · cases h
  rcases d with _ | d
  · rcases ds with _ | ⟨e, ds⟩
    · cases h
      exact ⟨hsuffix, fun rest hrest ↦ by rw [readWhole, happend rest hrest]; rfl⟩
    · cases h
  · cases h
    exact ⟨hsuffix, fun rest hrest ↦ by rw [readWhole, happend rest hrest]; rfl⟩

/-- Without a point there is no fraction. -/
theorem readFraction_of_ne (h : ∀ c ∈ cs.head?, c ≠ '.') : readFraction cs = some (none, cs) := by
  cases cs with
  | nil => rfl
  | cons c cs =>
    rw [readFraction]
    rintro rest ⟨⟩
    exact h '.' rfl rfl

/-- What stops a numeral is no point. -/
theorem Stops.ne_point (hrest : Stops rest) : ∀ c ∈ rest.head?, c ≠ '.' := by
  intro c hc
  rcases hrest c hc with rfl | rfl | rfl <;> decide

/-- nor does reading a fraction, -/
theorem forward_readFraction : Forward readFraction := by
  intro cs r cs' h
  by_cases hpoint : ∃ tail, cs = '.' :: tail
  · obtain ⟨tail, rfl⟩ := hpoint
    have hsuffix := suffix_readDigits tail
    have happend := fun rest (hrest : Stops rest) ↦ readDigits_append hrest tail
    rw [readFraction] at h
    rcases hdigits : readDigits tail with ⟨_ | ⟨d, ds⟩, tail'⟩ <;> rw [hdigits] at h hsuffix happend
    · cases h
    · cases h
      refine ⟨hsuffix.trans (List.suffix_cons _ _), fun rest hrest ↦ ?_⟩
      rw [List.cons_append, readFraction, happend rest hrest]
  · have hne : ∀ rest, Stops rest → ∀ c ∈ (cs ++ rest).head?, c ≠ '.' := by
      intro rest hrest c hc
      cases cs with
      | nil => exact hrest.ne_point c hc
      | cons d cs =>
        cases hc
        rintro rfl
        exact hpoint ⟨cs, rfl⟩
    rw [readFraction_of_ne (by simpa using hne [] stops_nil)] at h
    cases h
    exact ⟨List.suffix_rfl, fun rest hrest ↦ readFraction_of_ne (hne rest hrest)⟩

/-- nor reading the digits of an exponent, -/
theorem forward_readExponentDigits (negative : Bool) : Forward (readExponentDigits negative) := by
  intro cs r cs' h
  have hsuffix := suffix_readDigits cs
  have happend := fun rest (hrest : Stops rest) ↦ readDigits_append hrest cs
  rw [readExponentDigits] at h
  rcases hdigits : readDigits cs with ⟨_ | ⟨d, ds⟩, tail⟩ <;> rw [hdigits] at h hsuffix happend
  · cases h
  · cases h
    exact ⟨hsuffix, fun rest hrest ↦ by rw [readExponentDigits, happend rest hrest]⟩

/-- Without its mark there is no exponent. -/
theorem readExponent_of_ne (h : ∀ c ∈ cs.head?, ¬ (c = 'e' ∨ c = 'E')) :
    readExponent cs = some (none, cs) := by
  cases cs with
  | nil => rfl
  | cons c cs => exact if_neg (h c rfl)

/-- What stops a numeral announces no exponent. -/
theorem Stops.ne_exponent (hrest : Stops rest) : ∀ c ∈ rest.head?, ¬ (c = 'e' ∨ c = 'E') := by
  intro c hc
  rcases hrest c hc with rfl | rfl | rfl <;> decide

/-- An exponent with a plus sign. -/
theorem readExponent_plus {c : Char} (hmark : c = 'e' ∨ c = 'E') (cs : List Char) :
    readExponent (c :: '+' :: cs) = readExponentDigits false cs :=
  if_pos hmark

/-- An exponent with a minus sign. -/
theorem readExponent_minus {c : Char} (hmark : c = 'e' ∨ c = 'E') (cs : List Char) :
    readExponent (c :: '-' :: cs) = readExponentDigits true cs :=
  if_pos hmark

/-- An exponent without a sign is not negative. -/
theorem readExponent_of_ne_sign {c d : Char} (hmark : c = 'e' ∨ c = 'E') (hplus : d ≠ '+')
    (hminus : d ≠ '-') (cs : List Char) :
    readExponent (c :: d :: cs) = readExponentDigits false (d :: cs) := by
  rw [readExponent, if_pos hmark]
  · rintro rest ⟨⟩
    exact hplus rfl
  · rintro rest ⟨⟩
    exact hminus rfl

/-- nor reading an exponent, -/
theorem forward_readExponent : Forward readExponent := by
  intro cs r cs' h
  rcases cs with _ | ⟨c, cs⟩
  · cases h
    exact ⟨List.suffix_rfl, fun rest hrest ↦ readExponent_of_ne hrest.ne_exponent⟩
  by_cases hmark : c = 'e' ∨ c = 'E'
  · rcases cs with _ | ⟨d, cs⟩
    · -- a mark with nothing behind it
      have hbare : readExponent [c] = none := if_pos hmark
      rw [hbare] at h
      cases h
    have hsigned : cs <:+ c :: d :: cs := (List.suffix_cons _ _).trans (List.suffix_cons _ _)
    -- what follows the mark is a sign with digits, or digits
    by_cases hplus : d = '+'
    · subst hplus
      rw [readExponent_plus hmark] at h
      obtain ⟨hsuffix, happend⟩ := forward_readExponentDigits false h
      exact ⟨hsuffix.trans hsigned, fun rest hrest ↦
        (readExponent_plus hmark _).trans (happend rest hrest)⟩
    by_cases hminus : d = '-'
    · subst hminus
      rw [readExponent_minus hmark] at h
      obtain ⟨hsuffix, happend⟩ := forward_readExponentDigits true h
      exact ⟨hsuffix.trans hsigned, fun rest hrest ↦
        (readExponent_minus hmark _).trans (happend rest hrest)⟩
    rw [readExponent_of_ne_sign hmark hplus hminus] at h
    obtain ⟨hsuffix, happend⟩ := forward_readExponentDigits false h
    exact ⟨hsuffix.trans (List.suffix_cons _ _), fun rest hrest ↦
      (readExponent_of_ne_sign hmark hplus hminus _).trans (happend rest hrest)⟩
  · have hnone : ∀ cs, readExponent (c :: cs) = some (none, c :: cs) := fun cs ↦ if_neg hmark
    rw [hnone] at h
    cases h
    exact ⟨List.suffix_rfl, fun rest hrest ↦ hnone (cs ++ rest)⟩

/-- What is read after something else is read. -/
theorem readUnsigned_eq_some {negative : Bool} {n : Numeral} :
    readUnsigned negative cs = some (n, cs') ↔ ∃ whole cs₁ fraction cs₂ exponent,
      readWhole cs = some (whole, cs₁) ∧ readFraction cs₁ = some (fraction, cs₂) ∧
        readExponent cs₂ = some (exponent, cs') ∧ n = ⟨negative, whole, fraction, exponent⟩ := by
  simp only [readUnsigned, Option.bind_eq_bind, Option.bind_eq_some_iff, Prod.exists,
    Option.pure_def, Option.some.injEq, Prod.mk.injEq]
  constructor
  · rintro ⟨whole, cs₁, hwhole, fraction, cs₂, hfraction, exponent, cs₃, hexponent, rfl, rfl⟩
    exact ⟨whole, cs₁, fraction, cs₂, exponent, hwhole, hfraction, hexponent, rfl⟩
  · rintro ⟨whole, cs₁, fraction, cs₂, exponent, hwhole, hfraction, hexponent, rfl⟩
    exact ⟨whole, cs₁, hwhole, fraction, cs₂, hfraction, exponent, cs', hexponent, rfl, rfl⟩

/-- nor reading a numeral without its sign. -/
theorem forward_readUnsigned (negative : Bool) : Forward (readUnsigned negative) := by
  intro cs n cs' h
  obtain ⟨whole, cs₁, fraction, cs₂, exponent, hwhole, hfraction, hexponent, rfl⟩ :=
    readUnsigned_eq_some.1 h
  have hfirst := forward_readWhole hwhole
  have hsecond := forward_readFraction hfraction
  have hthird := forward_readExponent hexponent
  refine ⟨hthird.1.trans (hsecond.1.trans hfirst.1), fun rest hrest ↦ readUnsigned_eq_some.2 ?_⟩
  exact ⟨whole, _, fraction, _, exponent, hfirst.2 rest hrest, hsecond.2 rest hrest,
    hthird.2 rest hrest, rfl⟩

/-- **A number is read from the front,** and ends where it ends in a longer text. -/
theorem forward_readNumeral : Forward readNumeral := by
  intro cs n cs' h
  rcases cs with _ | ⟨c, cs⟩
  · cases h
  by_cases hminus : c = '-'
  · subst hminus
    obtain ⟨hsuffix, happend⟩ := forward_readUnsigned true h
    exact ⟨hsuffix.trans (List.suffix_cons _ _), happend⟩
  · have hread : ∀ cs, readNumeral (c :: cs) = readUnsigned false (c :: cs) := by
      intro cs
      rw [readNumeral]
      rintro rest ⟨⟩
      exact hminus rfl
    rw [hread] at h
    obtain ⟨hsuffix, happend⟩ := forward_readUnsigned false h
    exact ⟨hsuffix, fun rest hrest ↦ (hread _).trans (happend rest hrest)⟩

/-! ### Integers -/

/-- Only zero begins with a zero. -/
theorem eq_nil_of_toDigits {n : Nat} {ds : List Char} (h : Nat.toDigits 10 n = '0' :: ds) :
    ds = [] := by
  induction n using Nat.strongRecOn generalizing ds with
  | ind n ih =>
    by_cases hn : n < 10
    · rw [Nat.toDigits_of_lt_base hn] at h
      exact (List.cons.inj h).2.symm
    · rw [Nat.toDigits_of_base_le (by decide) (by omega)] at h
      rcases hfirst : Nat.toDigits 10 (n / 10) with _ | ⟨c, cs⟩
      · exact absurd hfirst Nat.toDigits_ne_nil
      · rw [hfirst] at h
        obtain ⟨rfl, -⟩ := List.cons.inj h
        obtain rfl := ih (n / 10) (by omega) hfirst
        have hzero : Nat.ofDigitChars 10 (Nat.toDigits 10 (n / 10)) 0 = n / 10 :=
          Nat.ofDigitChars_toDigits (by decide) (by decide)
        rw [hfirst] at hzero
        have hten : n / 10 = 0 := hzero.symm
        omega

/-- The values of decimal digits. -/
def valuesOf (n : Nat) : List Nat := (Nat.toDigits 10 n).map fun c ↦ c.toNat - 48

/-- The digits of a number, put together again, are that number. -/
theorem naturalOf_valuesOf (n : Nat) : Numeral.naturalOf (valuesOf n) = n := by
  rw [Numeral.naturalOf, valuesOf, List.foldl_map]
  exact Nat.ofDigitChars_toDigits (by decide) (by decide)

theorem isDigit_of_mem {n : Nat} {c : Char} (hc : c ∈ Nat.toDigits 10 n) : c.isDigit = true :=
  Nat.isDigit_of_mem_toDigits (by decide) (by decide) hc

/-- All the decimal digits of a number are read. -/
theorem readDigits_toDigits (n : Nat) : readDigits (Nat.toDigits 10 n) = (valuesOf n, []) := by
  rw [readDigits, List.takeWhile_eq_self_iff.2 fun c ↦ isDigit_of_mem,
    List.dropWhile_eq_nil_iff.2 fun c ↦ isDigit_of_mem, valuesOf]

/-- The code points of the digits. -/
theorem toNat_of_isDigit {c : Char} (hc : c.isDigit = true) : 48 ≤ c.toNat ∧ c.toNat ≤ 57 := by
  simpa [Char.isDigit, UInt32.le_iff_toNat_le] using hc

/-- The digits of a number are a whole part. -/
theorem readWhole_toDigits (n : Nat) : readWhole (Nat.toDigits 10 n) = some (valuesOf n, []) := by
  rw [readWhole, readDigits_toDigits]
  rcases hdigits : Nat.toDigits 10 n with _ | ⟨c, cs⟩
  · exact absurd hdigits Nat.toDigits_ne_nil
  · have hvalues : valuesOf n = (c.toNat - 48) :: cs.map fun c ↦ c.toNat - 48 := by
      rw [valuesOf, hdigits]
      rfl
    rw [hvalues]
    rcases hfirst : c.toNat - 48 with _ | d
    · have hc := toNat_of_isDigit (isDigit_of_mem (hdigits ▸ List.mem_cons_self))
      have hzero : c = '0' := Char.toNat_inj.1 (show c.toNat = 48 by omega)
      obtain rfl := eq_nil_of_toDigits (hzero ▸ hdigits)
      rfl
    · rfl

/-- The digits of a number are a numeral without fraction and exponent. -/
theorem readUnsigned_toDigits (negative : Bool) (n : Nat) :
    readUnsigned negative (Nat.toDigits 10 n) = some (⟨negative, valuesOf n, none, none⟩, []) :=
  readUnsigned_eq_some.2 ⟨valuesOf n, [], none, [], none, readWhole_toDigits n, rfl, rfl, rfl⟩

/-- The digits of an integer are read, with its sign. -/
theorem readNumeral_writeInt (n : Int) :
    readNumeral (writeInt n) = some (⟨n < 0, valuesOf n.natAbs, none, none⟩, []) := by
  unfold writeInt
  split
  · rename_i hn
    rw [decide_eq_true hn]
    exact readUnsigned_toDigits true n.natAbs
  · rename_i hn
    rw [decide_eq_false hn, readNumeral]
    · exact readUnsigned_toDigits false n.natAbs
    · intro rest hrest
      have hminus : '-' ∈ Nat.toDigits 10 n.natAbs := hrest ▸ List.mem_cons_self
      exact absurd (isDigit_of_mem hminus) (by decide)

/-- The integers that a value can hold: those of 64 bits, with a sign or without. -/
def InReach (n : Int) : Prop := .negOfNat (Nat.pow 2 63) ≤ n ∧ n < .ofNat (Nat.pow 2 64)

theorem inReach_iff {n : Int} :
    InReach n ↔ -9223372036854775808 ≤ n ∧ n < 18446744073709551616 := Iff.rfl

/-- **An integer is read as it was written.** -/
theorem ofNumeral_of_inReach {n : Int} (hn : InReach n) :
    Tree.ofNumeral ⟨n < 0, valuesOf n.natAbs, none, none⟩ = .int n := by
  obtain ⟨hlow, hhigh⟩ := inReach_iff.1 hn
  have hinteger : Numeral.integer? ⟨n < 0, valuesOf n.natAbs, none, none⟩ = some n := by
    simp only [Numeral.integer?, naturalOf_valuesOf, decide_eq_true_eq, Nat.pow_eq]
    split
    · rw [if_pos (by omega)]
      congr 1
      omega
    · rw [if_pos (by omega)]
      congr 1
      omega
  rw [Tree.ofNumeral, hinteger]

end Json

end GraphSession
