import GraphSession.Proofs.Text.Percent
import GraphSession.Url.Path

/-!
# Segments that are written

A text that is written as a segment of a path is read back as it was (`UrlPath.textOf?_written`),
and has no mark that would end the segment. Only two texts are no segment: one and two dots, which a
path takes as steps, however they are escaped (`UrlPath.push_written`). There is no way to write
them so that a path would keep them.
-/

namespace GraphSession

/-- Texts are known from their encodings. -/
theorem Utf8.encode_injective {cs cs' : List Char} (h : Utf8.encode cs = Utf8.encode cs') :
    cs = cs' :=
  Option.some.inj (by rw [← Utf8.decode?_encode, h, Utf8.decode?_encode])

namespace UrlPath

/-- A text as it is written as a segment. -/
def written (special : Bool) (cs : List Char) : List Char :=
  Percent.encodeChars (standsInSegment special) cs

/-- The text that a segment stands for, if its bytes are one. -/
def textOf? (s : String) : Option String :=
  (Utf8.decode? (Percent.decode (Utf8.bytesOf s))).map String.ofList

/-- A byte that may stand in a segment is no escape, and separates nothing. -/
theorem standsInSegment_spec : ∀ special b, standsInSegment special b = true →
    (b.toNat < 0x80 ∧ b ≠ 0x25) ∧ Char.ofNat b.toNat ∉ ['/', '?', '#'] := by
  refine fun special ↦ Percent.forall_byte ?_
  revert special
  decide +kernel

/-- A written segment is decoded as the text it was made of. -/
theorem decode_written (special : Bool) (cs : List Char) :
    Percent.decode (Utf8.encode (written special cs)) = Utf8.encode cs :=
  Percent.decode_encode (fun b hb ↦ (standsInSegment_spec special b hb).1) _

/-- **What is written as a segment is read back as it was.** -/
theorem textOf?_written (special : Bool) (cs : List Char) :
    textOf? (String.ofList (written special cs)) = some (String.ofList cs) := by
  rw [textOf?, Utf8.bytesOf, String.toList_ofList, decode_written, Utf8.decode?_encode,
    Option.map_some]

/-- Segments of different texts are different. -/
theorem written_injective {special : Bool} {cs cs' : List Char}
    (h : written special cs = written special cs') :
    cs = cs' := by
  apply Utf8.encode_injective
  rw [← decode_written special cs, h, decode_written]

/-- There are no separators in a written segment. -/
theorem not_mark_of_mem_written {special : Bool} {cs : List Char} {c : Char}
    (h : c ∈ written special cs) :
    c ∉ ['/', '?', '#'] := by
  rw [written, Percent.encodeChars, Percent.encode, List.mem_flatMap] at h
  obtain ⟨b, -, hc⟩ := h
  split_ifs at hc with hb
  · rw [List.mem_singleton] at hc
    subst hc
    exact (standsInSegment_spec special b hb).2
  · exact fun hmark ↦ Percent.not_separator_of_mem_encodeByte hc
      (List.mem_append_left ['&', '='] hmark)

/-! ### Dots -/

/-- Lower case is a shift of the upper-case letters, and leaves everything else. -/
theorem toLower_cases (c : Char) : c.toLower = c ∨
    (0x41 ≤ c.toNat ∧ c.toNat ≤ 0x5A) ∧ c.toLower.toNat = c.toNat + 0x20 := by
  unfold Char.toLower
  split
  · rename_i hupper
    obtain ⟨hle, hge⟩ := hupper
    rw [ge_iff_le, UInt32.le_iff_toNat_le] at hle
    rw [UInt32.le_iff_toNat_le] at hge
    refine .inr ⟨⟨hle, hge⟩, ?_⟩
    show (c.val + 0x20).toNat = c.val.toNat + 0x20
    have hsmall : c.val.toNat ≤ 0x5A := hge
    rw [UInt32.toNat_add]
    exact Nat.mod_eq_of_lt (show c.val.toNat + 0x20 < 2 ^ 32 by omega)
  · exact .inl rfl

theorem eq_of_toLower_eq {c d : Char} (h : c.toLower = d) (hd : d.isAlpha = false) : c = d := by
  rcases toLower_cases c with hsame | ⟨⟨hlow, hhigh⟩, hshift⟩
  · exact hsame.symm.trans h
  · rw [h] at hshift
    have halpha : d.isAlpha = true := by
      show (d.isUpper || (decide (d.val ≥ 'a'.val) && decide (d.val ≤ 'z'.val))) = true
      rw [Bool.or_eq_true, Bool.and_eq_true, decide_eq_true_iff, decide_eq_true_iff]
      refine .inr ⟨?_, ?_⟩
      · exact UInt32.le_iff_toNat_le.2 (show 0x61 ≤ d.toNat by omega)
      · exact UInt32.le_iff_toNat_le.2 (show d.toNat ≤ 0x7A by omega)
    cases hd.symm.trans halpha

theorem eq_of_toLower_eq_e {c : Char} (h : c.toLower = 'e') : c = 'e' ∨ c = 'E' := by
  rcases toLower_cases c with hsame | ⟨-, hshift⟩
  · exact .inl (hsame.symm.trans h)
  · rw [h] at hshift
    have hcode : 'e'.toNat = 0x65 := rfl
    exact .inr (Char.toNat_inj.1 (show c.toNat = 0x45 by omega))

/-- A dot is read as a dot, however it is escaped. -/
theorem decode_dot {d s : List Char} (hd : d ∈ dot) (h : s.map Char.toLower = d)
    (rest : List UInt8) :
    Percent.decode (Utf8.encode s ++ rest) = 0x2E :: Percent.decode rest := by
  rw [dot, List.mem_pair] at hd
  obtain rfl | rfl := hd
  · obtain ⟨c, rfl, hc⟩ := List.map_eq_singleton_iff.1 h
    obtain rfl := eq_of_toLower_eq hc rfl
    exact Percent.decode_cons_of_ne (by decide) rest
  · obtain ⟨a, _, rfl, ha, hs⟩ := List.map_eq_cons_iff.1 h
    obtain ⟨b, _, rfl, hb, hs⟩ := List.map_eq_cons_iff.1 hs
    obtain ⟨c, rfl, hc⟩ := List.map_eq_singleton_iff.1 hs
    obtain rfl := eq_of_toLower_eq ha rfl
    obtain rfl := eq_of_toLower_eq hb rfl
    obtain rfl | rfl := eq_of_toLower_eq_e hc <;> rfl

theorem map_toLower_of_mem_dot {d : List Char} (hd : d ∈ dot) : d.map Char.toLower = d := by
  revert d
  decide

/-- What is taken for one dot is decoded as one dot. -/
theorem decode_of_isSingleDot {s : List Char} (h : isSingleDot s = true) :
    Percent.decode (Utf8.encode s) = [0x2E] := by
  obtain ⟨d, hd, hs⟩ := List.any_eq_true.1 h
  rw [sameIgnoringCase, decide_eq_true_eq, map_toLower_of_mem_dot hd] at hs
  have hread := decode_dot hd hs.symm []
  rwa [List.append_nil] at hread

/-- What is taken for two dots is decoded as two dots. -/
theorem decode_of_isDoubleDot {s : List Char} (h : isDoubleDot s = true) :
    Percent.decode (Utf8.encode s) = [0x2E, 0x2E] := by
  obtain ⟨d, hd, h⟩ := List.any_eq_true.1 h
  obtain ⟨e, he, hs⟩ := List.any_eq_true.1 h
  rw [sameIgnoringCase, decide_eq_true_eq, List.map_append, map_toLower_of_mem_dot hd,
    map_toLower_of_mem_dot he] at hs
  obtain ⟨front, back, rfl, hfront, hback⟩ := List.map_eq_append_iff.1 hs.symm
  have hread := decode_dot he hback []
  rw [List.append_nil] at hread
  rw [Percent.encode_append, decode_dot hd hfront, hread]
  rfl

/-- Of all texts only two dots are written as two dots. -/
theorem isDoubleDot_written {special : Bool} {cs : List Char} :
    isDoubleDot (written special cs) = true ↔ cs = ['.', '.'] := by
  constructor
  · intro h
    apply Utf8.encode_injective
    rw [← decode_written special cs, decode_of_isDoubleDot h]
    rfl
  · rintro rfl
    revert special
    decide

/-- Of all texts only one dot is written as one dot. -/
theorem isSingleDot_written {special : Bool} {cs : List Char} :
    isSingleDot (written special cs) = true ↔ cs = ['.'] := by
  constructor
  · intro h
    apply Utf8.encode_injective
    rw [← decode_written special cs, decode_of_isSingleDot h]
    rfl
  · rintro rfl
    revert special
    decide

/-! ### Drive letters -/

theorem kept_eq {files : Bool} {segments : List String} {s : List Char}
    (h : (files && segments.isEmpty && isDrive s) = false) :
    kept files segments s = String.ofList s := by
  unfold kept
  split
  · rename_i hdrive
    rw [h] at hdrive
    cases hdrive
  · rfl

/-- Leading back takes away the last segment, unless it is a drive. -/
theorem shorten_append_singleton {s : String} (h : isDrive s.toList = false) (files : Bool)
    (segments : List String) : shorten files (segments ++ [s]) = segments := by
  cases files with
  | false => exact List.dropLast_concat
  | true =>
    cases segments with
    | nil => exact if_neg (by rw [h]; exact Bool.false_ne_true)
    | cons t rest =>
      cases rest with
      | nil => rfl
      | cons t' rest => exact List.dropLast_concat

/-! ### Pushing -/

/-- **Only dots are no segment of their own.** -/
theorem push_written (files special : Bool) (segments : List String) (cs : List Char) :
    push files true segments (written special cs) =
      if cs = ['.', '.'] then shorten files segments ++ [""]
      else if cs = ['.'] then segments ++ [""]
      else segments ++ [kept files segments (written special cs)] := by
  simp only [push, isDoubleDot_written, isSingleDot_written, if_true]

/-! ### Paths as texts -/

theorem toList_text_append (front back : List String) :
    (text (front ++ back)).toList = (text front).toList ++ (text back).toList := by
  rw [text, text, text, List.map_append, String.toList_join, String.toList_join, String.toList_join,
    List.flatMap_append]

theorem toList_text_cons (s : String) (rest : List String) :
    (text (s :: rest)).toList = '/' :: (s.toList ++ (text rest).toList) := by
  rw [text, List.map_cons, String.join_cons, String.toList_append, String.toList_append, ← text]
  rfl

end UrlPath

end GraphSession
