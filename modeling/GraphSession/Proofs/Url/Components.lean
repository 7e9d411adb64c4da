import GraphSession.Proofs.Url.Query
import GraphSession.Proofs.Url.Reading

/-!
# Values as components

A value that is written as a component is read back as it was, from a segment of a path
(`Percent.textOf?_component`) as well as from a form (`formText_component`). Nothing in it needs an
escape once more, whatever part of an address it is put into. What the escapes leave as it is are
letters, digits and four marks, and a dot is one of these.
-/

namespace GraphSession

namespace Percent

/-- A byte that is kept is a character of its own, and no escape and no plus sign. -/
theorem unreserved_spec : ∀ b, unreserved b = true →
    (b.toNat < 0x80 ∧ b ≠ 0x25 ∧ b ≠ 0x2B) ∧ isSelf (Char.ofNat b.toNat) = true := by
  refine forall_byte ?_
  decide +kernel

theorem isSelf_digit : ∀ n < 16, isSelf (digit n) = true := by decide

/-- A value is written with no need of more escapes. -/
theorem isSelf_of_mem_component {s : String} {c : Char} (hc : c ∈ (component s).toList) :
    isSelf c = true := by
  rw [component, String.toList_ofList, encodeChars, encode, List.mem_flatMap] at hc
  obtain ⟨b, -, hc⟩ := hc
  have hb : b.toNat < 256 := b.toNat_lt
  split_ifs at hc with hkept
  · obtain rfl := List.mem_singleton.1 hc
    exact (unreserved_spec b hkept).2
  · rw [encodeByte, List.mem_cons, List.mem_pair] at hc
    obtain rfl | rfl | rfl := hc
    · decide
    · exact isSelf_digit _ (by omega)
    · exact isSelf_digit _ (by omega)

/-- A component is decoded as the text it was made of. -/
theorem decode_component (s : String) : decode (Utf8.bytesOf (component s)) = Utf8.bytesOf s := by
  rw [component, Utf8.bytesOf, String.toList_ofList]
  exact decode_encode (fun b hb ↦ ⟨(unreserved_spec b hb).1.1, (unreserved_spec b hb).1.2.1⟩) _

/-- Texts are known from their bytes. -/
theorem bytesOf_injective {s s' : String} (h : Utf8.bytesOf s = Utf8.bytesOf s') : s = s' :=
  String.toList_inj.1 (Utf8.encode_injective h)

/-- Components of different texts are different. -/
theorem component_injective {s s' : String} (h : component s = component s') : s = s' := by
  apply bytesOf_injective
  rw [← decode_component, h, decode_component]

/-- **A value is read back from its segment.** -/
theorem textOf?_component (s : String) : UrlPath.textOf? (component s) = some s := by
  rw [UrlPath.textOf?, decode_component, Utf8.bytesOf, Utf8.decode?_encode, Option.map_some,
    String.ofList_toList]

theorem component_eq_empty_iff {name : String} : component name = "" ↔ name = "" :=
  ⟨fun h ↦ component_injective h, by rintro rfl; rfl⟩

/-- A value is read back from a form too, since a plus sign is escaped in it. -/
theorem decode_unplus_component (s : String) :
    decode ((Utf8.bytesOf (component s)).map unplus) = Utf8.bytesOf s := by
  rw [component, Utf8.bytesOf, String.toList_ofList]
  refine decode_flatMap (fun b rest ↦ ?_) (Utf8.bytesOf s)
  split_ifs with hkept
  · obtain ⟨⟨hascii, hpercent, hplus⟩, -⟩ := unreserved_spec b hkept
    rw [encode_ofNat hascii, List.map_singleton, unplus, if_neg hplus, List.singleton_append,
      decode_cons_of_ne hpercent]
  · rw [map_unplus_escape, decode_escape]

end Percent

/-- The value of a form that is a component is the text it was made of. -/
theorem formText_component (s : String) : formText (Percent.component s).toList = s := by
  have hdecode := Percent.decode_unplus_component s
  rw [Utf8.bytesOf] at hdecode
  rw [formText, hdecode, Utf8.bytesOf, Utf8.decodeLossy_encode, String.ofList_toList]

end GraphSession
