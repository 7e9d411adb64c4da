import GraphSession.Proofs.Text.Utf8
import GraphSession.Text.Percent

/-!
# Reading back what was encoded

An encoding is decoded byte by byte: a byte that stands for itself gives itself, and an escape gives
the byte it was written for (`Percent.decode_escape`). So what was encoded is read back, whatever
bytes stand for themselves, as long as these are ASCII characters and the percent sign is not one of
them (`Percent.IsSafe`). In a form the plus sign stands for a blank, which is resolved before the
escapes are.
-/

namespace GraphSession.Percent

/-! ### ASCII characters as bytes -/

/-- A character below 128 is one byte. -/
theorem encode_ascii {c : Char} (h : c.toNat < 0x80) : Utf8.encode [c] = [UInt8.ofNat c.toNat] := by
  have hone : c.val.toNat ≤ 127 := Nat.le_of_lt_succ h
  rw [Utf8.encode, List.flatMap_singleton, String.utf8EncodeChar, if_pos hone]
  rfl

theorem toNat_ofNat_ascii : ∀ n < 0x80, (Char.ofNat n).toNat = n := by decide

/-- What holds of all values of a byte holds of all bytes. -/
theorem forall_byte {P : UInt8 → Prop} (h : ∀ n < 256, P (UInt8.ofNat n)) (b : UInt8) : P b := by
  have hb := h b.toNat b.toNat_lt
  rwa [UInt8.ofNat_toNat] at hb

theorem encode_ofNat {b : UInt8} (h : b.toNat < 0x80) : Utf8.encode [Char.ofNat b.toNat] = [b] := by
  rw [encode_ascii (by rwa [toNat_ofNat_ascii _ h]), toNat_ofNat_ascii _ h, UInt8.ofNat_toNat]

/-- A text is encoded character by character. -/
theorem encode_append (cs cs' : List Char) :
    Utf8.encode (cs ++ cs') = Utf8.encode cs ++ Utf8.encode cs' :=
  List.flatMap_append

/-! ### Escapes -/

theorem digit_lt : ∀ n < 16, (digit n).toNat < 0x80 := by decide

theorem digitValue?_digit : ∀ n < 16, digitValue? (UInt8.ofNat (digit n).toNat) = some n := by
  decide

/-- The escape of a byte is a percent sign and two digits. -/
theorem encode_encodeByte (b : UInt8) :
    Utf8.encode (encodeByte b) =
      [0x25, UInt8.ofNat (digit (b.toNat / 16)).toNat,
        UInt8.ofNat (digit (b.toNat % 16)).toNat] := by
  have hb : b.toNat < 256 := b.toNat_lt
  have hhigh := encode_ascii (digit_lt (b.toNat / 16) (by omega))
  have hlow := encode_ascii (digit_lt (b.toNat % 16) (by omega))
  calc Utf8.encode (encodeByte b)
      = Utf8.encode ['%'] ++
        (Utf8.encode [digit (b.toNat / 16)] ++ Utf8.encode [digit (b.toNat % 16)]) := by
        rw [← encode_append, ← encode_append]; rfl
    _ = _ := by rw [hhigh, hlow]; rfl

/-- **An escape gives the byte that it was written for.** -/
theorem decode_escape (b : UInt8) (rest : List UInt8) :
    decode (Utf8.encode (encodeByte b) ++ rest) = b :: decode rest := by
  have hb : b.toNat < 256 := b.toNat_lt
  have hvalue : 16 * (b.toNat / 16) + b.toNat % 16 = b.toNat := by omega
  rw [encode_encodeByte, List.cons_append, List.cons_append, List.cons_append, List.nil_append,
    decode, if_pos rfl, digitValue?_digit _ (by omega), digitValue?_digit _ (by omega)]
  dsimp only
  rw [hvalue, UInt8.ofNat_toNat]

/-- A byte other than a percent sign stands for itself. -/
theorem decode_cons_of_ne {b : UInt8} (h : b ≠ 0x25) (rest : List UInt8) :
    decode (b :: rest) = b :: decode rest := by
  match rest with
  | [] => rfl
  | [_] => rfl
  | _ :: _ :: _ => rw [decode, if_neg h]

/-! ### Whole texts -/

/-- What stands for itself can be read back. -/
def IsSafe (keeps : UInt8 → Bool) : Prop := ∀ b, keeps b = true → b.toNat < 0x80 ∧ b ≠ 0x25

/-- If each byte can be read back, wherever it stands, then so can all. -/
theorem decode_flatMap {read : UInt8 → UInt8} {piece : UInt8 → List Char}
    (h : ∀ b rest, decode ((Utf8.encode (piece b)).map read ++ rest) = b :: decode rest)
    (bs : List UInt8) :
    decode ((Utf8.encode (bs.flatMap piece)).map read) = bs := by
  induction bs with
  | nil => rfl
  | cons b bs ih => rw [List.flatMap_cons, encode_append, List.map_append, h, ih]

/-- **What was encoded is read back.** -/
theorem decode_encode {keeps : UInt8 → Bool} (h : IsSafe keeps) (bs : List UInt8) :
    decode (Utf8.encode (encode keeps bs)) = bs := by
  have hpiece : ∀ b rest,
      decode ((Utf8.encode (if keeps b then [Char.ofNat b.toNat] else encodeByte b)).map id ++
        rest) =
        b :: decode rest := by
    intro b rest
    rw [List.map_id]
    split_ifs with hb
    · rw [encode_ofNat (h b hb).1, List.singleton_append, decode_cons_of_ne (h b hb).2]
    · exact decode_escape b rest
  have hall := decode_flatMap hpiece bs
  rwa [List.map_id] at hall

/-- A plus sign in a form is a blank. -/
def unplus (b : UInt8) : UInt8 := if b = 0x2B then 0x20 else b

/-- An escape has no plus sign in it. -/
theorem map_unplus_escape (b : UInt8) :
    (Utf8.encode (encodeByte b)).map unplus = Utf8.encode (encodeByte b) := by
  have hdigit : ∀ n < 16, unplus (UInt8.ofNat (digit n).toNat) = UInt8.ofNat (digit n).toNat := by
    decide
  have hb : b.toNat < 256 := b.toNat_lt
  rw [encode_encodeByte, List.map_cons, List.map_cons, List.map_singleton, hdigit _ (by omega),
    hdigit _ (by omega)]
  rfl

/-- A byte that a form keeps is no escape, no plus sign and no separator. -/
theorem formKept_spec : ∀ b, formKept b = true →
    b.toNat < 0x80 ∧ b ≠ 0x25 ∧ b ≠ 0x2B ∧ Char.ofNat b.toNat ∉ ['&', '='] := by
  refine forall_byte ?_
  decide +kernel

/-- **What was written into a form is read back.** -/
theorem decode_formValue (s : String) :
    decode ((Utf8.encode (formValue s)).map unplus) = Utf8.bytesOf s := by
  refine decode_flatMap (fun b rest ↦ ?_) (Utf8.bytesOf s)
  split_ifs with hblank hkept
  · subst hblank
    exact decode_cons_of_ne (by decide) rest
  · obtain ⟨hascii, hpercent, hplus, -⟩ := formKept_spec b hkept
    rw [encode_ofNat hascii, List.map_singleton, unplus, if_neg hplus, List.singleton_append,
      decode_cons_of_ne hpercent]
  · rw [map_unplus_escape, decode_escape]

/-! ### What does not occur -/

theorem digit_not_separator : ∀ n < 16, digit n ∉ ['/', '?', '#', '&', '='] := by decide

/-- An escape has none of the characters that separate parts of an address. -/
theorem not_separator_of_mem_encodeByte {b : UInt8} {c : Char} (h : c ∈ encodeByte b) :
    c ∉ ['/', '?', '#', '&', '='] := by
  have hb : b.toNat < 256 := b.toNat_lt
  rw [encodeByte, List.mem_cons, List.mem_cons, List.mem_singleton] at h
  obtain rfl | rfl | rfl := h
  · decide
  · exact digit_not_separator _ (by omega)
  · exact digit_not_separator _ (by omega)

/-- The value of a form has none of its separators in it. -/
theorem not_mem_formValue {s : String} {c : Char} (h : c ∈ formValue s) : c ∉ ['&', '='] := by
  rw [formValue, List.mem_flatMap] at h
  obtain ⟨b, -, hc⟩ := h
  split_ifs at hc with hblank hkept
  · rw [List.mem_singleton] at hc
    subst hc
    decide
  · rw [List.mem_singleton] at hc
    subst hc
    exact (formKept_spec b hkept).2.2.2
  · exact fun hsep ↦ not_separator_of_mem_encodeByte hc (List.mem_append_right ['/', '?', '#'] hsep)

end GraphSession.Percent
