import Mathlib.Data.List.Basic
import Mathlib.Tactic.SplitIfs
import GraphSession.Text.Utf8

/-!
# Reading back what was written

A text that was written as bytes is read back as it was (`Utf8.parts_encode`), so the strict and the
lossy reading agree on it, and no two texts have the same bytes.

**One character at a time.** The first byte of a character says which further bytes may follow and
holds the highest bits of the code point; each further byte adds six bits (`Utf8.takeFurther_cons`).
The ranges leave out what a shorter run of bytes could say, and what is no character.
-/

namespace GraphSession.Utf8

/-! ### One character -/

/-- A further byte in its range adds its six bits. -/
theorem takeFurther_cons {bits acc taken low high : Nat} (hlow : low ≤ bits + 128)
    (hhigh : bits + 128 ≤ high) (hbits : bits < 64) (ranges : List (Nat × Nat))
    (rest : List UInt8) :
    takeFurther acc taken ((low, high) :: ranges) (UInt8.ofNat (bits + 128) :: rest) =
      takeFurther (acc * 64 + bits) (taken + 1) ranges rest := by
  have hbyte : bits + 128 < 256 := by omega
  have hsix : (bits + 128) % 64 = bits := by omega
  rw [takeFurther, UInt8.toNat_ofNat_of_lt' hbyte, if_pos ⟨hlow, hhigh⟩, hsix]

/-- A first byte with what must follow it is read as one character. -/
theorem parts_cons {n v : Nat} {more rest : List UInt8} {ranges : List (Nat × Nat)} (hn : n < 256)
    (hfurther : further? n = some ranges)
    (htake : takeFurther (leadBits n) 0 ranges (more ++ rest) = (some v, more.length)) :
    parts (UInt8.ofNat n :: (more ++ rest)) = some (Char.ofNat v) :: parts rest := by
  have hfirst : first (UInt8.ofNat n) (more ++ rest) = (some (Char.ofNat v), more.length) := by
    rw [first, UInt8.toNat_ofNat_of_lt' hn, hfurther]
    dsimp only
    rw [htake, Option.map_some]
  rw [parts, hfirst, List.drop_left]

theorem further?_two {n : Nat} (hlow : 0xC2 ≤ n) (hhigh : n < 0xE0) :
    further? n = some [(0x80, 0xBF)] := by
  rw [further?, if_neg (by omega), if_neg (by omega), if_pos hhigh]

/-- In a character of three bytes the second one leaves out what two bytes say, and the
surrogates. -/
theorem further?_three {v : Nat} (hlow : 0x800 ≤ v) (hhigh : v < 0x10000)
    (hchar : v < 0xD800 ∨ 0xDFFF < v) :
    ∃ low high, further? (v / 4096 % 16 + 224) = some [(low, high), (0x80, 0xBF)] ∧
      low ≤ v / 64 % 64 + 128 ∧ v / 64 % 64 + 128 ≤ high := by
  by_cases hleast : v / 4096 % 16 + 224 = 0xE0
  · exact ⟨0xA0, 0xBF, by rw [hleast]; rfl, by omega, by omega⟩
  by_cases hsurrogates : v / 4096 % 16 + 224 = 0xED
  · exact ⟨0x80, 0x9F, by rw [hsurrogates]; rfl, by omega, by omega⟩
  refine ⟨0x80, 0xBF, ?_, by omega, by omega⟩
  rw [further?, if_neg (by omega), if_neg (by omega), if_neg (by omega), if_neg hleast,
    if_neg hsurrogates, if_pos (by omega)]

/-- In a character of four bytes the second one leaves out what three bytes say, and what is too
great. -/
theorem further?_four {v : Nat} (hlow : 0x10000 ≤ v) (hhigh : v < 0x110000) :
    ∃ low high, further? (v / 262144 % 8 + 240) = some [(low, high), (0x80, 0xBF), (0x80, 0xBF)] ∧
      low ≤ v / 4096 % 64 + 128 ∧ v / 4096 % 64 + 128 ≤ high := by
  by_cases hleast : v / 262144 % 8 + 240 = 0xF0
  · exact ⟨0x90, 0xBF, by rw [hleast]; rfl, by omega, by omega⟩
  by_cases hgreatest : v / 262144 % 8 + 240 = 0xF4
  · exact ⟨0x80, 0x8F, by rw [hgreatest]; rfl, by omega, by omega⟩
  refine ⟨0x80, 0xBF, ?_, by omega, by omega⟩
  rw [further?, if_neg (by omega), if_neg (by omega), if_neg (by omega), if_neg (by omega),
    if_neg (by omega), if_neg (by omega), if_neg hleast, if_pos (by omega)]

/-- A byte below 128 is a character. -/
theorem parts_one {v : Nat} (hhigh : v < 0x80) (rest : List UInt8) :
    parts ([UInt8.ofNat v] ++ rest) = some (Char.ofNat v) :: parts rest := by
  have hlead : leadBits v = v := by rw [leadBits, if_pos hhigh]
  have htake : takeFurther (leadBits v) 0 [] ([] ++ rest) = (some v, 0) := by
    rw [takeFurther, hlead]
  exact parts_cons (by omega) (by rw [further?, if_pos hhigh]) htake

/-- Two bytes are read as the character they are written for. -/
theorem parts_two {v : Nat} (hlow : 0x80 ≤ v) (hhigh : v < 0x800) (rest : List UInt8) :
    parts ([UInt8.ofNat (v / 64 % 32 + 192), UInt8.ofNat (v % 64 + 128)] ++ rest) =
      some (Char.ofNat v) :: parts rest := by
  have hlead : leadBits (v / 64 % 32 + 192) = v / 64 := by
    rw [leadBits, if_neg (by omega), if_pos (by omega)]
    omega
  have hvalue : v / 64 * 64 + v % 64 = v := by omega
  have htake : takeFurther (leadBits (v / 64 % 32 + 192)) 0 [(0x80, 0xBF)]
      ([UInt8.ofNat (v % 64 + 128)] ++ rest) = (some v, 1) := by
    rw [hlead, List.cons_append, takeFurther_cons (by omega) (by omega) (by omega), takeFurther,
      hvalue]
  exact parts_cons (by omega) (further?_two (by omega) (by omega)) htake

/-- Three bytes are read as the character they are written for, unless it is a surrogate. -/
theorem parts_three {v : Nat} (hlow : 0x800 ≤ v) (hhigh : v < 0x10000)
    (hchar : v < 0xD800 ∨ 0xDFFF < v) (rest : List UInt8) :
    parts ([UInt8.ofNat (v / 4096 % 16 + 224), UInt8.ofNat (v / 64 % 64 + 128),
      UInt8.ofNat (v % 64 + 128)] ++
      rest) = some (Char.ofNat v) :: parts rest := by
  obtain ⟨low, high, hfurther, hsecond, hsecond'⟩ := further?_three hlow hhigh hchar
  have hlead : leadBits (v / 4096 % 16 + 224) = v / 4096 := by
    rw [leadBits, if_neg (by omega), if_neg (by omega), if_pos (by omega)]
    omega
  have hvalue : (v / 4096 * 64 + v / 64 % 64) * 64 + v % 64 = v := by omega
  have htake : takeFurther (leadBits (v / 4096 % 16 + 224)) 0 [(low, high), (0x80, 0xBF)]
      ([UInt8.ofNat (v / 64 % 64 + 128), UInt8.ofNat (v % 64 + 128)] ++ rest) = (some v, 2) := by
    rw [hlead, List.cons_append, takeFurther_cons hsecond hsecond' (by omega), List.cons_append,
      takeFurther_cons (by omega) (by omega) (by omega), takeFurther, hvalue]
  exact parts_cons (by omega) hfurther htake

/-- Four bytes are read as the character they are written for. -/
theorem parts_four {v : Nat} (hlow : 0x10000 ≤ v) (hhigh : v < 0x110000) (rest : List UInt8) :
    parts ([UInt8.ofNat (v / 262144 % 8 + 240), UInt8.ofNat (v / 4096 % 64 + 128),
      UInt8.ofNat (v / 64 % 64 + 128), UInt8.ofNat (v % 64 + 128)] ++ rest) =
      some (Char.ofNat v) :: parts rest := by
  obtain ⟨low, high, hfurther, hsecond, hsecond'⟩ := further?_four hlow hhigh
  have hlead : leadBits (v / 262144 % 8 + 240) = v / 262144 := by
    rw [leadBits, if_neg (by omega), if_neg (by omega), if_neg (by omega)]
    omega
  have hvalue : ((v / 262144 * 64 + v / 4096 % 64) * 64 + v / 64 % 64) * 64 + v % 64 = v := by omega
  have htake : takeFurther (leadBits (v / 262144 % 8 + 240)) 0
      [(low, high), (0x80, 0xBF), (0x80, 0xBF)]
      ([UInt8.ofNat (v / 4096 % 64 + 128), UInt8.ofNat (v / 64 % 64 + 128),
        UInt8.ofNat (v % 64 + 128)] ++
        rest) = (some v, 3) := by
    rw [hlead, List.cons_append, takeFurther_cons hsecond hsecond' (by omega), List.cons_append,
      takeFurther_cons (by omega) (by omega) (by omega), List.cons_append,
      takeFurther_cons (by omega) (by omega) (by omega), takeFurther, hvalue]
  exact parts_cons (by omega) hfurther htake

/-- **The first character that is read** is the one that was written first. -/
theorem parts_encodeChar (c : Char) (rest : List UInt8) :
    parts (String.utf8EncodeChar c ++ rest) = some c :: parts rest := by
  have hchar : c.val.toNat < 0xD800 ∨ 0xDFFF < c.val.toNat ∧ c.val.toNat < 0x110000 := c.valid
  have hc : Char.ofNat c.val.toNat = c := Char.ofNat_toNat c
  have hread : parts (String.utf8EncodeChar c ++ rest) =
      some (Char.ofNat c.val.toNat) :: parts rest := by
    rw [String.utf8EncodeChar]
    split_ifs with hone htwo hthree
    · exact parts_one (by omega) rest
    · exact parts_two (by omega) (by omega) rest
    · exact parts_three (by omega) (by omega) (by omega) rest
    · exact parts_four (by omega) (by omega) rest
  rwa [hc] at hread

/-! ### Whole texts -/

/-- What characters are encoded as is read as the characters. -/
theorem parts_encode (cs : List Char) : parts (encode cs) = cs.map some := by
  induction cs with
  | nil => rw [encode, List.flatMap_nil, parts, List.map_nil]
  | cons c cs ih => rw [encode, List.flatMap_cons, parts_encodeChar, ← encode, ih, List.map_cons]

theorem whole?_map_some (cs : List Char) : whole? (cs.map some) = some cs := by
  induction cs with
  | nil => rfl
  | cons c cs ih => rw [List.map_cons, whole?, ih, Option.map_some]

/-- **What was written is read back.** -/
theorem decode?_encode (cs : List Char) : decode? (encode cs) = some cs := by
  rw [decode?, parts_encode, whole?_map_some]

/-- Nothing is lost of what characters are encoded as. -/
theorem decodeLossy_encode (cs : List Char) : decodeLossy (encode cs) = cs := by
  rw [decodeLossy, parts_encode, List.map_map]
  exact List.map_id cs

end GraphSession.Utf8
