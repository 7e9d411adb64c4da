import GraphSession.Json.Decode
import GraphSession.Proofs.Json.Numerals

/-!
# Floats are read as floats

Whether a float is read as it was written is a question about its digits that is not asked here: it
is what `Survives` says of the float on its own, as of a value of any type. What is shown is that a
float that survives on its own survives in every text that it stands in (`readNumeral_text`). It
cannot come back as something else there, since it has a point or an exponent and is never taken for
an integer.
-/

namespace GraphSession

/-- A value that is read as it was written. -/
def Survives {α : Type} (encode : α → Json) (decode : Decoder α) (a : α) : Prop :=
  ∃ t, Tree.ofText? (encode a).text = some t ∧ decode t = .ok a

namespace Json

variable {cs cs' : List Char}

/-! ### What a float is written with -/

theorem isGap_of_isDigit {c : Char} (hc : c.isDigit = true) : isGap c = false := by
  have hdigit := toNat_of_isDigit hc
  have hne : c ≠ ' ' ∧ c ≠ '\t' ∧ c ≠ '\n' ∧ c ≠ '\r' := by
    refine ⟨?_, ?_, ?_, ?_⟩ <;> rintro rfl <;> exact absurd hdigit (by decide)
  simp [isGap, hne]

/-- Setting a decimal point adds a point and no other character. -/
theorem mem_pointed {c : Char} {cs : List Char} (hc : c ∈ NumberLayout.pointed cs) :
    c ∈ cs ∨ c = '.' := by
  rcases cs with _ | ⟨d, _ | ⟨e, cs⟩⟩
  · exact .inl hc
  · exact .inl hc
  · rcases List.mem_cons.1 hc with rfl | hc
    · exact .inl List.mem_cons_self
    · rcases List.mem_cons.1 hc with rfl | hc
      · exact .inr rfl
      · exact .inl (List.mem_cons_of_mem _ hc)

/-- The layouts of a decimal. -/
theorem write_cases (d : Decimal) :
    (∃ n, NumberLayout.wire.write d = '0' :: '.' ::
      (List.replicate n '0' ++ Nat.toDigits 10 d.digits)) ∨
    (∃ n, NumberLayout.wire.write d =
      Nat.toDigits 10 d.digits ++ List.replicate n '0' ++ ['.', '0']) ∨
    (∃ n, NumberLayout.wire.write d =
      (Nat.toDigits 10 d.digits).take n ++ '.' :: (Nat.toDigits 10 d.digits).drop n) ∨
    ∃ sign n, (sign = '+' ∨ sign = '-') ∧ NumberLayout.wire.write d =
      NumberLayout.pointed (Nat.toDigits 10 d.digits) ++ 'e' :: sign :: Nat.toDigits 10 n := by
  unfold NumberLayout.write
  by_cases hpositional : NumberLayout.wire.leastPositional ≤ d.exponent ∧
      d.exponent ≤ NumberLayout.wire.greatestPositional
  · rw [if_pos hpositional]
    by_cases hsmall : d.exponent < 0
    · rw [if_pos hsmall]
      exact .inl ⟨_, rfl⟩
    · rw [if_neg hsmall]
      by_cases hwhole : (Nat.toDigits 10 d.digits).length ≤ d.exponent.toNat + 1
      · rw [if_pos hwhole]
        exact .inr (.inl ⟨_, rfl⟩)
      · rw [if_neg hwhole]
        exact .inr (.inr (.inl ⟨_, rfl⟩))
  · rw [if_neg hpositional]
    by_cases hsmall : d.exponent < 0
    · rw [if_pos hsmall]
      exact .inr (.inr (.inr ⟨'-', _, .inr rfl, List.append_assoc _ _ _⟩))
    · rw [if_neg hsmall]
      exact .inr (.inr (.inr ⟨'+', _, .inl rfl, List.append_assoc _ _ _⟩))

/-- No layout has blanks. -/
theorem isGap_of_mem_write {d : Decimal} {c : Char} (hc : c ∈ NumberLayout.wire.write d) :
    isGap c = false := by
  have hdigit : ∀ {n : Nat}, c ∈ Nat.toDigits 10 n → isGap c = false := fun h ↦
    isGap_of_isDigit (isDigit_of_mem h)
  rcases write_cases d with ⟨n, h⟩ | ⟨n, h⟩ | ⟨n, h⟩ | ⟨sign, n, hsign, h⟩ <;> rw [h] at hc
  · -- a fraction below one, with zeros behind the point
    simp only [List.mem_cons, List.mem_append, List.mem_replicate] at hc
    rcases hc with rfl | rfl | ⟨-, rfl⟩ | hc
    · rfl
    · rfl
    · rfl
    · exact hdigit hc
  · -- a whole number, with zeros before the point
    simp only [List.mem_cons, List.mem_append, List.mem_replicate, List.not_mem_nil, or_false] at hc
    rcases hc with (hc | ⟨-, rfl⟩) | rfl | rfl
    · exact hdigit hc
    · rfl
    · rfl
    · rfl
  · -- a number with the point among its digits
    rcases List.mem_append.1 hc with hc | hc
    · exact hdigit (List.mem_of_mem_take hc)
    · rcases List.mem_cons.1 hc with rfl | hc
      · rfl
      · exact hdigit (List.mem_of_mem_drop hc)
  · -- a number with an exponent
    simp only [List.mem_cons, List.mem_append] at hc
    rcases hc with hc | rfl | rfl | hc
    · rcases mem_pointed hc with hc | rfl
      · exact hdigit hc
      · rfl
    · rfl
    · rcases hsign with rfl | rfl <;> rfl
    · exact hdigit hc

/-- Every layout has a point or an exponent. -/
theorem exists_mark_write (d : Decimal) : ∃ c ∈ NumberLayout.wire.write d, c = '.' ∨ c = 'e' := by
  rcases write_cases d with ⟨n, h⟩ | ⟨n, h⟩ | ⟨n, h⟩ | ⟨sign, n, -, h⟩ <;> rw [h]
  · exact ⟨'.', by simp, .inl rfl⟩
  · exact ⟨'.', by simp, .inl rfl⟩
  · exact ⟨'.', by simp, .inl rfl⟩
  · exact ⟨'e', by simp, .inr rfl⟩

/-- The text of a number has its sign, if it has one, and then no other characters than its
layout. -/
theorem text_cases (d : Double) : ∃ cs, (d.text = cs ∨ d.text = '-' :: cs) ∧
    (cs = ['0', '.', '0'] ∨ cs = NumberLayout.wire.write (Decimal.shortest d)) := by
  unfold Double.text Double.textWith
  by_cases hzero : d.isZero = true
  · rw [if_pos hzero]
    refine ⟨_, ?_, .inl rfl⟩
    split
    · exact .inr rfl
    · exact .inl rfl
  · rw [if_neg hzero]
    refine ⟨_, ?_, .inr rfl⟩
    split
    · exact .inr rfl
    · exact .inl rfl

/-- No character of a float is a blank. -/
theorem isGap_of_mem_text {d : Double} {c : Char} (hc : c ∈ d.text) : isGap c = false := by
  obtain ⟨cs, htext, hcs⟩ := text_cases d
  have hmem : c ∈ cs → isGap c = false := by
    rcases hcs with rfl | rfl
    · intro hc
      simp only [List.mem_cons, List.not_mem_nil, or_false] at hc
      rcases hc with rfl | rfl | rfl <;> rfl
    · exact isGap_of_mem_write
  rcases htext with htext | htext <;> rw [htext] at hc
  · exact hmem hc
  · rcases List.mem_cons.1 hc with rfl | hc
    · rfl
    · exact hmem hc

/-- A float shows that it is one: it has a point or an exponent. -/
theorem exists_mark (d : Double) : ∃ c ∈ d.text, c = '.' ∨ c = 'e' := by
  obtain ⟨cs, htext, hcs⟩ := text_cases d
  have hmark : ∃ c ∈ cs, c = '.' ∨ c = 'e' := by
    rcases hcs with rfl | rfl
    · exact ⟨'.', by simp, .inl rfl⟩
    · exact exists_mark_write _
  obtain ⟨c, hc, hmark⟩ := hmark
  refine ⟨c, ?_, hmark⟩
  rcases htext with htext | htext <;> rw [htext]
  · exact hc
  · exact List.mem_cons_of_mem _ hc

/-! ### What a float is read as -/

/-- Where there is no fraction, none was read over. -/
theorem eq_of_readFraction_none (h : readFraction cs = some (none, cs')) : cs' = cs := by
  rcases cs with _ | ⟨c, cs⟩
  · cases h
    rfl
  by_cases hpoint : c = '.'
  · subst hpoint
    rw [readFraction] at h
    split at h <;> cases h
  · rw [readFraction_of_ne (by simpa using hpoint)] at h
    cases h
    rfl

/-- Where there is no exponent, none was read over. -/
theorem eq_of_readExponent_none (h : readExponent cs = some (none, cs')) : cs' = cs := by
  have hdigits : ∀ {negative : Bool} {cs : List Char},
      readExponentDigits negative cs ≠ some (none, cs') := by
    intro negative cs h
    rw [readExponentDigits] at h
    split at h <;> cases h
  rcases cs with _ | ⟨c, cs⟩
  · cases h
    rfl
  by_cases hmark : c = 'e' ∨ c = 'E'
  · simp only [readExponent, if_pos hmark] at h
    split at h <;> exact absurd h hdigits
  · rw [readExponent_of_ne (by simpa using hmark)] at h
    cases h
    rfl

/-- What has neither a point nor an exponent is digits, with a sign or without. -/
theorem isDigit_of_integer {n : Numeral} (h : readNumeral cs = some (n, []))
    (hfraction : n.fraction = none) (hexponent : n.exponent = none) {c : Char} (hc : c ∈ cs) :
    c.isDigit = true ∨ c = '-' := by
  have hunsigned : ∀ {negative : Bool} {cs : List Char}, readUnsigned negative cs = some (n, []) →
      ∀ c ∈ cs, c.isDigit = true := by
    intro negative cs h
    obtain ⟨whole, cs₁, fraction, cs₂, exponent, hwhole, hread, hread', rfl⟩ :=
      readUnsigned_eq_some.1 h
    obtain rfl : fraction = none := hfraction
    obtain rfl : exponent = none := hexponent
    obtain rfl := eq_of_readFraction_none hread
    obtain rfl := eq_of_readExponent_none hread'
    have hdigits : (readDigits cs).2 = [] := by
      rw [readWhole] at hwhole
      split at hwhole
      · cases hwhole
      · cases hwhole
      · rw [Option.some.inj hwhole]
    exact List.dropWhile_eq_nil_iff.1 hdigits
  unfold readNumeral at h
  split at h
  · rcases List.mem_cons.1 hc with rfl | hc
    · exact .inr rfl
    · exact .inl (hunsigned h c hc)
  · exact .inl (hunsigned h c hc)

end Json

namespace Tree

/-- A text is no float, -/
theorem double_ofString? (s : Option String) (d : Double) : double (ofString? s) ≠ .ok d := by
  cases s <;> nofun

/-- no list is one, -/
theorem double_arrayAt (depth : Nat) (items : List Tree) (d : Double) :
    double (arrayAt depth items) ≠ .ok d := by
  unfold arrayAt
  split <;> nofun

/-- and no object is. -/
theorem double_objectAt (depth : Nat) (fields : List (Option String × Tree)) (d : Double) :
    double (objectAt depth fields) ≠ .ok d := by
  unfold objectAt
  split
  · split <;> nofun
  · nofun

/-- Where a number is read, there is a numeral. -/
theorem numeral_of_readValue {fuel depth : Nat} {cs rest : List Char} {t : Tree} {d : Double}
    (h : readValue fuel depth cs = some (t, rest)) (ht : double t = .ok d) :
    ∃ n, Json.readNumeral (Json.skipGap cs) = some (n, rest) ∧ t = ofNumeral n := by
  cases fuel with
  | zero => cases h
  | succ fuel =>
    unfold readValue at h
    split at h
    · cases h
      cases ht
    · cases h
      cases ht
    · cases h
      cases ht
    · -- a value that begins otherwise is a string, an array or an object, and none of them is a
      -- number
      obtain ⟨r, -, heq⟩ := Option.map_eq_some_iff.1 h
      cases heq
      exact absurd ht (double_ofString? _ _)
    · split at h
      · cases h
        exact absurd ht (double_arrayAt _ _ _)
      · obtain ⟨r, -, heq⟩ := Option.map_eq_some_iff.1 h
        cases heq
        exact absurd ht (double_arrayAt _ _ _)
    · split at h
      · cases h
        exact absurd ht (double_objectAt _ _ _)
      · obtain ⟨r, -, heq⟩ := Option.map_eq_some_iff.1 h
        cases heq
        exact absurd ht (double_objectAt _ _ _)
    · obtain ⟨⟨n, rest'⟩, hn, heq⟩ := Option.map_eq_some_iff.1 h
      cases heq
      exact ⟨n, hn, rfl⟩

end Tree

namespace Json

/-- What a numeral is read as: an integer within reach, a float, or nothing usable. -/
theorem ofNumeral_cases (n : Numeral) : (∃ i, Tree.ofNumeral n = .int i ∧ n.integer? = some i) ∨
    (∃ d, Tree.ofNumeral n = .float d) ∨ Tree.ofNumeral n = .unusable := by
  unfold Tree.ofNumeral
  cases n.integer? with
  | some i => exact .inl ⟨i, rfl, rfl⟩
  | none =>
    cases n.double? with
    | some d => exact .inr (.inl ⟨d, rfl⟩)
    | none => exact .inr (.inr rfl)

/-- An integer has neither a fraction nor an exponent. -/
theorem none_of_integer? {n : Numeral} {i : Int} (h : n.integer? = some i) :
    n.fraction = none ∧ n.exponent = none := by
  unfold Numeral.integer? at h
  split at h
  · rename_i hfraction hexponent
    exact ⟨hfraction, hexponent⟩
  · cases h

/-- Nothing is skipped before a character that is no blank. -/
theorem skipGap_eq_self (h : ∀ c ∈ cs.head?, isGap c = false) : skipGap cs = cs := by
  rcases cs with _ | ⟨c, cs⟩
  · rfl
  · exact List.dropWhile_cons_of_neg (by simp [h c rfl])

/-- **A float that survives is read as a float,** from the text that it has in any value. -/
theorem readNumeral_text {d : Double} (h : Survives ofDouble Tree.double d) :
    d.isFinite = true ∧ ∃ n, readNumeral d.text = some (n, []) ∧ Tree.ofNumeral n = .float d := by
  obtain ⟨t, ht, hd⟩ := h
  by_cases hfinite : d.isFinite = true
  · refine ⟨hfinite, ?_⟩
    rw [ofDouble, if_pos hfinite, text, write, Tree.ofText?, String.toList_ofList,
      Tree.ofChars?] at ht
    split at ht
    · rename_i t' rest hread
      split at ht
      · rename_i hrest
        obtain rfl := Option.some.inj ht
        obtain ⟨n, hn, rfl⟩ := Tree.numeral_of_readValue hread hd
        have hgap : ∀ {c}, c ∈ d.text → isGap c = false := isGap_of_mem_text
        -- the text begins without a gap, and what is left of it would be one
        rw [skipGap_eq_self fun c hc ↦ hgap (List.mem_of_mem_head? hc)] at hn
        have hsuffix := (forward_readNumeral hn).1
        rw [skipGap_eq_self fun c hc ↦ hgap (hsuffix.subset (List.mem_of_mem_head? hc))] at hrest
        subst hrest
        refine ⟨n, hn, ?_⟩
        rcases ofNumeral_cases n with ⟨i, hi, hinteger⟩ | ⟨d', hd'⟩ | hunusable
        · -- an integer would have no mark
          obtain ⟨c, hc, hmark⟩ := exists_mark d
          obtain ⟨hfraction, hexponent⟩ := none_of_integer? hinteger
          rcases isDigit_of_integer hn hfraction hexponent hc with hdigit | rfl
          · rcases hmark with rfl | rfl <;> exact absurd hdigit (by decide)
          · rcases hmark with hmark | hmark <;> exact absurd hmark (by decide)
        · rw [hd'] at hd ⊢
          cases hd
          rfl
        · rw [hunusable] at hd
          cases hd
      · cases ht
    · cases ht
  · -- what is not finite is written as null, which is no number
    rw [ofDouble, if_neg hfinite] at ht
    have hnull : Tree.ofText? Json.null.text = some .null := rfl
    rw [hnull] at ht
    cases ht
    cases hd

end Json

end GraphSession
