import Mathlib.Algebra.Group.Nat.Defs
import Mathlib.Data.List.Basic
import Mathlib.Tactic.SplitIfs
import GraphSession.Text.Base64

/-!
# One text for some bytes

Base 64 is a way to write bits: the bits of the bytes, cut into groups of six, with zeros to fill up
the last group and an equals sign for each two of these (`Base64.Spells`). The spelling of some
bytes is unique, and writing gives it (`Base64.spells_iff`); reading accepts it and nothing else
(`Base64.decode?_eq_some_iff`).

**Bits as numbers.** Groups of bits one after the other are the bits of one number
(`Base64.bits_append`), so that three bytes and four characters have the same bits exactly if they
make the same number of 24 bits.
-/

namespace GraphSession.Base64

/-! ### Bits -/

/-- The lowest bits of a number, the highest of them first. -/
def bits (width n : Nat) : List Bool := (List.range width).reverse.map n.testBit

@[simp] theorem length_bits (width n : Nat) : (bits width n).length = width := by
  rw [bits, List.length_map, List.length_reverse, List.length_range]

/-- **Bits one after the other** are the bits of one number. -/
theorem bits_append {v n : Nat} (hn : n < 2 ^ v) (w m : Nat) :
    bits w m ++ bits v n = bits (w + v) (2 ^ v * m + n) := by
  have hhigh : ∀ i, (2 ^ v * m + n).testBit (v + i) = m.testBit i := fun i ↦ by
    rw [Nat.testBit_two_pow_mul_add m hn, if_neg (by omega), Nat.add_sub_cancel_left]
  have hlow : ∀ i ∈ (List.range v).reverse, (2 ^ v * m + n).testBit i = n.testBit i := fun i hi ↦ by
    have hi : i < v := List.mem_range.1 (List.mem_reverse.1 hi)
    rw [Nat.testBit_two_pow_mul_add m hn, if_pos hi]
  rw [bits, bits, bits, Nat.add_comm w, List.range_add, List.reverse_append, List.map_append,
    ← List.map_reverse, List.map_map, List.map_congr_left hlow]
  congr 1
  exact List.map_congr_left fun i _ ↦ (hhigh i).symm

theorem bits_zero (width : Nat) : bits width 0 = List.replicate width false := by
  rw [List.eq_replicate_iff]
  refine ⟨length_bits width 0, fun b hb ↦ ?_⟩
  obtain ⟨i, -, rfl⟩ := List.mem_map.1 hb
  exact Nat.zero_testBit i

/-- Numbers of a width are known from their bits. -/
theorem eq_of_bits {width n m : Nat} (hn : n < 2 ^ width) (hm : m < 2 ^ width)
    (h : bits width n = bits width m) : n = m := by
  have hlow := List.map_inj_left.1 h
  refine Nat.eq_of_testBit_eq fun i ↦ ?_
  by_cases hi : i < width
  · exact hlow i (List.mem_reverse.2 (List.mem_range.2 hi))
  · have hwide : 2 ^ width ≤ 2 ^ i := Nat.pow_le_pow_right (by decide) (by omega)
    rw [Nat.testBit_lt_two_pow (by omega), Nat.testBit_lt_two_pow (by omega)]

/-! ### The standard alphabet -/

/-- The characters of the numbers of six bits, in order. -/
def alphabet : List Char :=
  "ABCDEFGHIJKLMNOPQRSTUVWXYZabcdefghijklmnopqrstuvwxyz0123456789+/".toList

/-- The bits that a character stands for. -/
def digitBits (c : Char) : List Bool := bits 6 (alphabet.idxOf c)

/-- The eight bits of a byte. -/
def byteBits (b : UInt8) : List Bool := bits 8 b.toNat

/-- The digits are the alphabet, each at its own place. -/
theorem idxOf_digit : ∀ n < 64, digit n ∈ alphabet ∧ alphabet.idxOf (digit n) = n := by
  decide +kernel

/-- The bits of a digit are those of its number. -/
theorem digitBits_digit {n : Nat} (hn : n < 64) : digitBits (digit n) = bits 6 n := by
  rw [digitBits, (idxOf_digit n hn).2]

/-- Characters of the alphabet are known from their bits. -/
theorem eq_of_digitBits {c c' : Char} (hc : c ∈ alphabet) (hc' : c' ∈ alphabet)
    (h : digitBits c = digitBits c') : c = c' := by
  have hlt : ∀ {c}, c ∈ alphabet → alphabet.idxOf c < 2 ^ 6 :=
    fun hc ↦ List.idxOf_lt_length_of_mem hc
  exact (List.idxOf_inj hc).1 (eq_of_bits (hlt hc) (hlt hc') h)

/-- Characters are known by their bits, since each has as many. -/
theorem eq_of_flatMap_digitBits {front front' : List Char} (hfront : ∀ c ∈ front, c ∈ alphabet)
    (hfront' : ∀ c ∈ front', c ∈ alphabet) (hlength : front.length = front'.length)
    (h : front.flatMap digitBits = front'.flatMap digitBits) : front = front' := by
  induction front generalizing front' with
  | nil => exact (List.length_eq_zero_iff.1 hlength.symm).symm
  | cons c front ih =>
    cases front' with
    | nil => cases hlength
    | cons c' front' =>
      rw [List.flatMap_cons, List.flatMap_cons] at h
      obtain ⟨hhead, htail⟩ :=
        List.append_inj h (by rw [digitBits, digitBits, length_bits, length_bits])
      rw [List.forall_mem_cons] at hfront hfront'
      rw [eq_of_digitBits hfront.1 hfront'.1 hhead,
        ih hfront.2 hfront'.2 (Nat.succ.inj hlength) htail]

/-! ### Spellings -/

/-- Some characters before so many equals signs hold some bytes: the bits of the bytes and zeros, as
few as there have to be. -/
structure Holds (front : List Char) (padding : Nat) (bs : List UInt8) : Prop where
  digits : ∀ c ∈ front, c ∈ alphabet
  padding_le : padding ≤ 2
  whole : 4 ∣ front.length + padding
  bits : front.flatMap digitBits = bs.flatMap byteBits ++ List.replicate (2 * padding) false

/-- Some characters are the canonical form of some bytes. -/
def Spells (cs : List Char) (bs : List UInt8) : Prop :=
  ∃ front padding, cs = front ++ List.replicate padding '=' ∧ Holds front padding bs

namespace Holds

variable {front front' : List Char} {padding padding' : Nat} {bs bs' : List UInt8}

/-- There are as many bits in the characters as in the bytes and the padding. -/
theorem count_eq (h : Holds front padding bs) : 6 * front.length = 8 * bs.length + 2 * padding := by
  have hlength := congrArg List.length h.bits
  simpa [List.length_flatMap, digitBits, byteBits, Nat.mul_comm] using hlength

/-- **Bytes have one spelling**: how many bytes there are says how many equals signs there are. -/
theorem unique (h : Holds front padding bs) (h' : Holds front' padding' bs) :
    front = front' ∧ padding = padding' := by
  have hpadding : padding = padding' := by
    have := h.count_eq
    have := h'.count_eq
    have := h.whole
    have := h'.whole
    have := h.padding_le
    have := h'.padding_le
    omega
  have hlength : front.length = front'.length := by
    have := h.count_eq
    have := h'.count_eq
    omega
  refine ⟨eq_of_flatMap_digitBits h.digits h'.digits hlength ?_, hpadding⟩
  rw [h.bits, h'.bits, hpadding]

theorem nil : Holds [] 0 [] where
  digits := List.forall_mem_nil _
  padding_le := Nat.zero_le 2
  whole := Nat.dvd_zero 4
  bits := rfl

/-- Four characters with the bits of three bytes go before the others. -/
theorem append (h : Holds front padding bs) {four : List Char} {three : List UInt8}
    (hlength : four.length = 4) (hdigits : ∀ c ∈ four, c ∈ alphabet)
    (hbits : four.flatMap digitBits = three.flatMap byteBits) :
    Holds (four ++ front) padding (three ++ bs) where
  digits c hc := (List.mem_append.1 hc).elim (hdigits c) (h.digits c)
  padding_le := h.padding_le
  whole := by
    rw [List.length_append, hlength, Nat.add_assoc]
    exact Nat.dvd_add (Nat.dvd_refl 4) h.whole
  bits := by rw [List.flatMap_append, List.flatMap_append, hbits, h.bits, List.append_assoc]

end Holds

/-! ### Writing -/

/-- The numbers of six bits in one byte. -/
def ofOne (a : UInt8) : List Nat := [a.toNat / 4, a.toNat % 4 * 16]

/-- The numbers of six bits in two bytes. -/
def ofTwo (a b : UInt8) : List Nat :=
  [a.toNat / 4, a.toNat % 4 * 16 + b.toNat / 16, b.toNat % 16 * 4]

/-- The numbers of six bits in three bytes. -/
def ofThree (a b c : UInt8) : List Nat :=
  [a.toNat / 4, a.toNat % 4 * 16 + b.toNat / 16, b.toNat % 16 * 4 + c.toNat / 64, c.toNat % 64]

/-- One byte takes two digits, with four bits to spare. -/
theorem bits_ofOne (a : UInt8) :
    (ofOne a).flatMap (bits 6) = [a].flatMap byteBits ++ List.replicate 4 false := by
  have ha := a.toNat_lt
  simp only [ofOne, List.flatMap_cons, List.flatMap_nil, List.append_nil, byteBits]
  rw [← bits_zero 4, bits_append (by omega), bits_append (by omega)]
  exact congrArg (bits 12) (by omega)

/-- Two bytes take three digits, with two bits to spare. -/
theorem bits_ofTwo (a b : UInt8) :
    (ofTwo a b).flatMap (bits 6) = [a, b].flatMap byteBits ++ List.replicate 2 false := by
  have ha := a.toNat_lt
  have hb := b.toNat_lt
  simp only [ofTwo, List.flatMap_cons, List.flatMap_nil, List.append_nil, byteBits,
    List.append_assoc]
  rw [← bits_zero 2, bits_append (by omega), bits_append (by omega), bits_append (by omega),
    bits_append (by omega)]
  exact congrArg (bits 18) (by omega)

/-- Three bytes take four digits. -/
theorem bits_ofThree (a b c : UInt8) :
    (ofThree a b c).flatMap (bits 6) = [a, b, c].flatMap byteBits := by
  have ha := a.toNat_lt
  have hb := b.toNat_lt
  have hc := c.toNat_lt
  simp only [ofThree, List.flatMap_cons, List.flatMap_nil, List.append_nil, byteBits]
  rw [bits_append (by omega), bits_append (by omega), bits_append (by omega),
    bits_append (by omega), bits_append (by omega)]
  exact congrArg (bits 24) (by omega)

theorem lt_of_mem_ofOne {a : UInt8} {n : Nat} (hn : n ∈ ofOne a) : n < 64 := by
  have ha := a.toNat_lt
  simp only [ofOne, List.mem_cons, List.not_mem_nil, or_false] at hn
  omega

theorem lt_of_mem_ofTwo {a b : UInt8} {n : Nat} (hn : n ∈ ofTwo a b) : n < 64 := by
  have ha := a.toNat_lt
  have hb := b.toNat_lt
  simp only [ofTwo, List.mem_cons, List.not_mem_nil, or_false] at hn
  omega

theorem lt_of_mem_ofThree {a b c : UInt8} {n : Nat} (hn : n ∈ ofThree a b c) : n < 64 := by
  have ha := a.toNat_lt
  have hb := b.toNat_lt
  have hc := c.toNat_lt
  simp only [ofThree, List.mem_cons, List.not_mem_nil, or_false] at hn
  omega

/-- The bits of characters that are written for numbers. -/
theorem flatMap_digitBits_map {ns : List Nat} (h : ∀ n ∈ ns, n < 64) :
    (ns.map digit).flatMap digitBits = ns.flatMap (bits 6) := by
  rw [List.flatMap_map]
  exact List.flatMap_congr fun n hn ↦ digitBits_digit (h n hn)

theorem mem_alphabet_of_mem_map {ns : List Nat} (h : ∀ n ∈ ns, n < 64) :
    ∀ c ∈ ns.map digit, c ∈ alphabet :=
  List.forall_mem_map.2 fun n hn ↦ (idxOf_digit n (h n hn)).1

/-- The digits of one byte hold it before two equals signs. -/
theorem holds_ofOne (a : UInt8) : Holds ((ofOne a).map digit) 2 [a] where
  digits := mem_alphabet_of_mem_map fun _ ↦ lt_of_mem_ofOne
  padding_le := Nat.le_refl 2
  whole := Nat.dvd_refl 4
  bits := (flatMap_digitBits_map fun _ ↦ lt_of_mem_ofOne).trans (bits_ofOne a)

/-- The digits of two bytes hold them before one equals sign. -/
theorem holds_ofTwo (a b : UInt8) : Holds ((ofTwo a b).map digit) 1 [a, b] where
  digits := mem_alphabet_of_mem_map fun _ ↦ lt_of_mem_ofTwo
  padding_le := Nat.le_succ 1
  whole := Nat.dvd_refl 4
  bits := (flatMap_digitBits_map fun _ ↦ lt_of_mem_ofTwo).trans (bits_ofTwo a b)

/-- **Writing gives a spelling.** -/
theorem spells_encode (bs : List UInt8) : Spells (encode bs) bs := by
  induction bs using encode.induct with
  | case1 => exact ⟨[], 0, rfl, .nil⟩
  | case2 a => exact ⟨_, 2, rfl, holds_ofOne a⟩
  | case3 a b => exact ⟨_, 1, rfl, holds_ofTwo a b⟩
  | case4 a b c rest ih =>
    obtain ⟨front, padding, hrest, hfront⟩ := ih
    have hfour : ((ofThree a b c).map digit).flatMap digitBits = [a, b, c].flatMap byteBits :=
      (flatMap_digitBits_map fun _ ↦ lt_of_mem_ofThree).trans (bits_ofThree a b c)
    have htext : encode (a :: b :: c :: rest) =
        ((ofThree a b c).map digit ++ front) ++ List.replicate padding '=' := by
      rw [encode, hrest]
      rfl
    exact ⟨_, padding, htext,
      hfront.append rfl (mem_alphabet_of_mem_map fun _ ↦ lt_of_mem_ofThree) hfour⟩

/-- Bytes have one canonical form, and it is what they are encoded as. -/
theorem spells_iff {cs : List Char} {bs : List UInt8} : Spells cs bs ↔ cs = encode bs := by
  refine ⟨?_, fun h ↦ h ▸ spells_encode bs⟩
  rintro ⟨front, padding, rfl, hfront⟩
  obtain ⟨front', padding', hencode, hfront'⟩ := spells_encode bs
  obtain ⟨rfl, rfl⟩ := hfront.unique hfront'
  exact hencode.symm

/-! ### Reading -/

theorem digitValue?_digit : ∀ n < 64, digitValue? (digit n) = some n := by decide +kernel

theorem digit_ne_equals : ∀ n < 64, digit n ≠ '=' := by decide +kernel

/-- Only a character that is written for a number has one. -/
theorem digit_of_digitValue? {c : Char} {n : Nat} (h : digitValue? c = some n) :
    n < 64 ∧ digit n = c := by
  rw [digitValue?] at h
  split_ifs at h with hupper hlower hdigit hplus hslash
  · obtain rfl := Option.some.inj h
    refine ⟨by omega, ?_⟩
    rw [digit, if_pos (by omega), Nat.add_sub_cancel' hupper.1, Char.ofNat_toNat]
  · obtain rfl := Option.some.inj h
    refine ⟨by omega, ?_⟩
    rw [digit, if_neg (by omega), if_pos (by omega), Nat.add_sub_cancel,
      Nat.add_sub_cancel' hlower.1, Char.ofNat_toNat]
  · obtain rfl := Option.some.inj h
    refine ⟨by omega, ?_⟩
    rw [digit, if_neg (by omega), if_neg (by omega), if_pos (by omega), Nat.add_sub_cancel,
      Nat.add_sub_cancel' hdigit.1, Char.ofNat_toNat]
  · obtain rfl := Option.some.inj h
    exact ⟨by decide, hplus ▸ rfl⟩
  · obtain rfl := Option.some.inj h
    exact ⟨by decide, hslash ▸ rfl⟩

/-- A digit is read as its number, and nothing else is a digit. -/
theorem digitValue?_eq_some_iff {c : Char} {n : Nat} :
    digitValue? c = some n ↔ n < 64 ∧ c = digit n := by
  constructor
  · intro h
    exact (digit_of_digitValue? h).imp id Eq.symm
  · rintro ⟨hn, rfl⟩
    exact digitValue?_digit n hn

theorem toNat_ofNat_of_lt {n : Nat} (hn : n < 256) : (UInt8.ofNat n).toNat = n :=
  UInt8.toNat_ofNat_of_lt' hn

theorem ofNat_eq (a : UInt8) {n : Nat} (h : n = a.toNat) : UInt8.ofNat n = a := by
  rw [h, UInt8.ofNat_toNat]

/-- Two last digits are read as the byte they are written for, and otherwise not at all. -/
theorem lastByte?_eq_some_iff {c d : Char} {bs : List UInt8} :
    lastByte? c d = some bs ↔ ∃ a, bs = [a] ∧ [c, d] = (ofOne a).map digit := by
  constructor
  · intro h
    rw [lastByte?] at h
    split at h
    · rename_i x y hx hy
      split_ifs at h with hzero
      obtain ⟨hx, rfl⟩ := digitValue?_eq_some_iff.1 hx
      obtain ⟨hy, rfl⟩ := digitValue?_eq_some_iff.1 hy
      have hparts : ofOne (UInt8.ofNat (4 * x + y / 16)) = [x, y] := by
        rw [ofOne, toNat_ofNat_of_lt (by omega), List.cons.injEq, List.cons.injEq]
        exact ⟨by omega, by omega, rfl⟩
      exact ⟨_, (Option.some.inj h).symm, by rw [hparts]; rfl⟩
    · cases h
  · rintro ⟨a, rfl, h⟩
    have ha := a.toNat_lt
    obtain ⟨rfl, rfl⟩ : c = digit (a.toNat / 4) ∧ d = digit (a.toNat % 4 * 16) := by
      simpa [ofOne] using h
    rw [lastByte?, digitValue?_digit _ (by omega), digitValue?_digit _ (by omega)]
    show (if _ then _ else _) = _
    rw [if_pos (by omega), ofNat_eq a (by omega)]

/-- Three last digits are read as the bytes they are written for, and otherwise not at all. -/
theorem lastTwo?_eq_some_iff {c d e : Char} {bs : List UInt8} :
    lastTwo? c d e = some bs ↔ ∃ a b, bs = [a, b] ∧ [c, d, e] = (ofTwo a b).map digit := by
  constructor
  · intro h
    rw [lastTwo?] at h
    split at h
    · rename_i x y z hx hy hz
      split_ifs at h with hzero
      obtain ⟨hx, rfl⟩ := digitValue?_eq_some_iff.1 hx
      obtain ⟨hy, rfl⟩ := digitValue?_eq_some_iff.1 hy
      obtain ⟨hz, rfl⟩ := digitValue?_eq_some_iff.1 hz
      -- the two bytes have the bits of the three digits, since the last ones are zero
      have hparts : ofTwo (UInt8.ofNat (4 * x + y / 16)) (UInt8.ofNat (y % 16 * 16 + z / 4)) =
          [x, y, z] := by
        rw [ofTwo, toNat_ofNat_of_lt (by omega), toNat_ofNat_of_lt (by omega), List.cons.injEq,
          List.cons.injEq, List.cons.injEq]
        exact ⟨by omega, by omega, by omega, rfl⟩
      exact ⟨_, _, (Option.some.inj h).symm, by rw [hparts]; rfl⟩
    · cases h
  · rintro ⟨a, b, rfl, h⟩
    have ha := a.toNat_lt
    have hb := b.toNat_lt
    obtain ⟨rfl, rfl, rfl⟩ : c = digit (a.toNat / 4) ∧ d = digit (a.toNat % 4 * 16 + b.toNat / 16) ∧
        e = digit (b.toNat % 16 * 4) := by
      simpa [ofTwo] using h
    rw [lastTwo?, digitValue?_digit _ (by omega), digitValue?_digit _ (by omega),
      digitValue?_digit _ (by omega)]
    show (if _ then _ else _) = _
    rw [if_pos (by omega), ofNat_eq a (by omega), ofNat_eq b (by omega)]

/-- Four digits are read as the three bytes they are written for. -/
theorem three?_eq_some_iff {c d e f : Char} {bs : List UInt8} :
    three? c d e f = some bs ↔
      ∃ a b a', bs = [a, b, a'] ∧ [c, d, e, f] = (ofThree a b a').map digit := by
  constructor
  · intro h
    rw [three?] at h
    split at h
    · rename_i x y z w hx hy hz hw
      obtain ⟨hx, rfl⟩ := digitValue?_eq_some_iff.1 hx
      obtain ⟨hy, rfl⟩ := digitValue?_eq_some_iff.1 hy
      obtain ⟨hz, rfl⟩ := digitValue?_eq_some_iff.1 hz
      obtain ⟨hw, rfl⟩ := digitValue?_eq_some_iff.1 hw
      -- the three bytes have the bits of the four digits
      have hparts : ofThree (UInt8.ofNat (4 * x + y / 16)) (UInt8.ofNat (y % 16 * 16 + z / 4))
          (UInt8.ofNat (z % 4 * 64 + w)) = [x, y, z, w] := by
        rw [ofThree, toNat_ofNat_of_lt (by omega), toNat_ofNat_of_lt (by omega),
          toNat_ofNat_of_lt (by omega), List.cons.injEq, List.cons.injEq, List.cons.injEq,
          List.cons.injEq]
        exact ⟨by omega, by omega, by omega, by omega, rfl⟩
      exact ⟨_, _, _, (Option.some.inj h).symm, by rw [hparts]; rfl⟩
    · cases h
  · rintro ⟨a, b, a', rfl, h⟩
    have ha := a.toNat_lt
    have hb := b.toNat_lt
    have ha' := a'.toNat_lt
    obtain ⟨rfl, rfl, rfl, rfl⟩ : c = digit (a.toNat / 4) ∧
      d = digit (a.toNat % 4 * 16 + b.toNat / 16) ∧
        e = digit (b.toNat % 16 * 4 + a'.toNat / 64) ∧ f = digit (a'.toNat % 64) := by
      simpa [ofThree] using h
    rw [three?, digitValue?_digit _ (by omega), digitValue?_digit _ (by omega),
      digitValue?_digit _ (by omega), digitValue?_digit _ (by omega)]
    show some [_, _, _] = _
    rw [ofNat_eq a (by omega), ofNat_eq b (by omega), ofNat_eq a' (by omega)]

/-- Four characters of which the last is no equals sign are read by themselves. -/
theorem decode?_append {a b c : UInt8} {rest : List Char} {bs : List UInt8}
    (h : decode? rest = some bs) :
    decode? ((ofThree a b c).map digit ++ rest) = some (a :: b :: c :: bs) := by
  have hlast : digit (c.toNat % 64) ≠ '=' := digit_ne_equals _ (Nat.mod_lt _ (by decide))
  have hfour : three? (digit (a.toNat / 4)) (digit (a.toNat % 4 * 16 + b.toNat / 16))
      (digit (b.toNat % 16 * 4 + c.toNat / 64)) (digit (c.toNat % 64)) = some [a, b, c] :=
    three?_eq_some_iff.2 ⟨a, b, c, rfl, rfl⟩
  show decode? (_ :: _ :: _ :: _ :: rest) = _
  rw [decode?.eq_4 _ _ _ _ _ (fun _ hd _ ↦ hlast hd) fun hd _ ↦ hlast hd, hfour, h]
  rfl

/-- What bytes are encoded as is decoded as the bytes. -/
theorem decode?_encode (bs : List UInt8) : decode? (encode bs) = some bs := by
  induction bs using encode.induct with
  | case1 => rfl
  | case2 a => exact lastByte?_eq_some_iff.2 ⟨a, rfl, rfl⟩
  | case3 a b =>
    have hlast : digit (b.toNat % 16 * 4) ≠ '=' := digit_ne_equals _ (by omega)
    rw [encode, decode?.eq_3 _ _ _ hlast]
    exact lastTwo?_eq_some_iff.2 ⟨a, b, rfl, rfl⟩
  | case4 a b c rest ih =>
    rw [encode]
    exact decode?_append ih

/-- Only what bytes are encoded as is decoded as the bytes. -/
theorem eq_encode_of_decode? {cs : List Char} {bs : List UInt8} (h : decode? cs = some bs) :
    cs = encode bs := by
  induction cs using decode?.induct generalizing bs with
  | case1 =>
    obtain rfl := Option.some.inj h
    rfl
  | case2 c d =>
    rw [decode?] at h
    obtain ⟨a, rfl, htext⟩ := lastByte?_eq_some_iff.1 h
    exact congrArg (· ++ ['=', '=']) htext
  | case3 c d e he =>
    rw [decode?.eq_3 _ _ _ he] at h
    obtain ⟨a, b, rfl, htext⟩ := lastTwo?_eq_some_iff.1 h
    exact congrArg (· ++ ['=']) htext
  | case4 c d e f rest hone htwo front back hback hfront ih =>
    rw [decode?.eq_4 _ _ _ _ _ hone htwo, hfront, hback] at h
    obtain rfl := Option.some.inj h
    obtain ⟨a, b, a', rfl, htext⟩ := three?_eq_some_iff.1 hfront
    rw [ih hback]
    exact congrArg (· ++ encode back) htext
  | case5 c d e f rest hone htwo hnone =>
    -- one of the two readings fails
    rw [decode?.eq_4 _ _ _ _ _ hone htwo] at h
    split at h
    · rename_i front back hfront hback
      exact (hnone front back hfront hback).elim
    · cases h
  | case6 cs hnil hone htwo hthree =>
    rw [decode?.eq_5 _ hnil hone htwo hthree] at h
    cases h

/-- **Reading accepts what writing gives, and nothing else.** -/
theorem decode?_eq_some_iff {cs : List Char} {bs : List UInt8} :
    decode? cs = some bs ↔ cs = encode bs :=
  ⟨eq_encode_of_decode?, fun h ↦ h ▸ decode?_encode bs⟩

end GraphSession.Base64
