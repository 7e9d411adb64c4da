import Mathlib.Data.List.Basic
import GraphSession.Json.Reader
import GraphSession.Json.Writer

/-!
# Strings are read as they were written

Whatever characters a string has, its text up to the closing quote is read as those characters
(`readString_writeString`). A character has one of three forms in the text: itself, a letter after a
backslash, or four hexadecimal digits. Each form is read as one code unit, the code point of the
character, because no character that needs two units is escaped; and a code point is never half of a
surrogate pair, so the units are characters again one by one.
-/

namespace GraphSession.Json

/-! ### Units -/

/-- Hexadecimal digits are read as what they were written for. -/
theorem value?_digitChar {n : Nat} (hn : n < 16) :
    Hexadecimal.value? (Nat.digitChar n) = some n := by
  have hdigits : ∀ k : Fin 16, Hexadecimal.value? (Nat.digitChar k) = some k.val := by decide
  exact hdigits ⟨n, hn⟩

/-- Four hexadecimal digits are read as the number they were written for. -/
theorem readUnits_fourHex {n : Nat} (hn : n < 65536) (cs : List Char) :
    readUnits ('\\' :: 'u' :: fourHex n ++ cs) = (readUnits cs).map fun r ↦ (n :: r.1, r.2) := by
  have hvalue : n / 4096 % 16 * 4096 + n / 256 % 16 * 256 + n / 16 % 16 * 16 + n % 16 = n := by
    omega
  simp only [fourHex, List.cons_append, List.nil_append, readUnits]
  simp only [value?_digitChar (Nat.mod_lt _ (Nat.succ_pos 15)), hvalue]

/-- A letter after a backslash is read as the character it stands for. -/
theorem readUnits_letter {e c : Char} (he : e ≠ 'u') (hc : letterEscape? e = some c)
    (cs : List Char) :
    readUnits ('\\' :: e :: cs) = (readUnits cs).map fun r ↦ (c.toNat :: r.1, r.2) := by
  rw [readUnits.eq_4]
  · rw [hc]
  · exact fun _ _ _ _ _ h _ ↦ he h

/-- A character that stands for itself. -/
theorem readUnits_plain {c : Char} (hquote : c ≠ '\x22') (hslash : c ≠ '\\') (hc : ¬ c.toNat < 0x20)
    (cs : List Char) : readUnits (c :: cs) = (readUnits cs).map fun r ↦ (c.toNat :: r.1, r.2) := by
  rw [readUnits.eq_5]
  · rw [if_neg (by simp [hslash, hc])]
  · exact hquote
  · exact fun _ _ _ _ _ h _ ↦ hslash h
  · exact fun _ _ h _ ↦ hslash h

/-- **A character is read as one unit,** in whatever form it was written. -/
theorem readUnits_writeChar (c : Char) (cs : List Char) :
    readUnits (writeChar c ++ cs) = (readUnits cs).map fun r ↦ (c.toNat :: r.1, r.2) := by
  unfold writeChar
  split_ifs with hquote hslash hback htab hline hfeed hreturn hcontrol
  · subst hquote
    exact readUnits_letter (by decide) rfl cs
  · subst hslash
    exact readUnits_letter (by decide) rfl cs
  · subst hback
    exact readUnits_letter (by decide) rfl cs
  · subst htab
    exact readUnits_letter (by decide) rfl cs
  · subst hline
    exact readUnits_letter (by decide) rfl cs
  · subst hfeed
    exact readUnits_letter (by decide) rfl cs
  · subst hreturn
    exact readUnits_letter (by decide) rfl cs
  · exact readUnits_fourHex (by omega) cs
  · exact readUnits_plain hquote hslash hcontrol cs

/-- The characters of a text are read back unit by unit, up to the closing quote. -/
theorem readUnits_writeChars (s rest : List Char) :
    readUnits (s.flatMap writeChar ++ '\x22' :: rest) = some (s.map Char.toNat, rest) := by
  induction s with
  | nil => rfl
  | cons c s ih =>
    rw [List.flatMap_cons, List.append_assoc, readUnits_writeChar, ih]
    rfl

/-! ### Characters -/

/-- A code point is no half of a surrogate pair. -/
theorem not_surrogate (c : Char) :
    isHighSurrogate c.toNat = false ∧ isLowSurrogate c.toNat = false := by
  have hvalid : c.toNat < 0xD800 ∨ 0xDFFF < c.toNat ∧ c.toNat < 0x110000 := c.valid
  simp only [isHighSurrogate, isLowSurrogate, Bool.and_eq_false_iff, decide_eq_false_iff_not]
  omega

/-- Characters are made of their own code points again. -/
theorem charsOfUnits_toNat (s : List Char) : charsOfUnits (s.map Char.toNat) = some s := by
  induction s with
  | nil => rfl
  | cons c s ih =>
    obtain ⟨hhigh, hlow⟩ := not_surrogate c
    cases s with
    | nil => simp [charsOfUnits, hhigh, hlow]
    | cons d s =>
      rw [List.map_cons] at ih
      simp only [List.map_cons, charsOfUnits, hhigh, hlow, ih, Option.map_some, Char.ofNat_toNat,
        if_false, Bool.false_eq_true]

/-- **A string is read as it was written.** -/
theorem readString_writeString (s : String) (rest : List Char) :
    readString (s.toList.flatMap writeChar ++ '\x22' :: rest) = some (some s, rest) := by
  rw [readString, readUnits_writeChars, Option.map_some, charsOfUnits_toNat, Option.map_some,
    String.ofList_toList]

end GraphSession.Json
