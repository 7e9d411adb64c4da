import GraphSession.Output.Thumbnail
import GraphSession.Proofs.Text.Base64

/-!
# One URL for an image

An image and its data URL say the same: the URL is read as the image, and no other text is
(`Thumbnail.ofUrl?_eq_some_iff`). So another head, missing or further padding, bits that are left
over and line breaks are all refused, without a rule for any of them.
-/

namespace GraphSession.Thumbnail

/-- Taking a front off a text succeeds if the text begins with it. -/
theorem after?_eq_some_iff {front cs rest : List Char} :
    after? front cs = some rest ↔ cs = front ++ rest := by
  induction front generalizing cs with
  | nil => exact Option.some_inj
  | cons h front ih =>
    cases cs with
    | nil => exact iff_of_false nofun nofun
    | cons c cs =>
      rw [after?, List.cons_append, List.cons.injEq, ← ih]
      split_ifs with hc
      · exact (and_iff_right hc.symm).symm
      · exact iff_of_false nofun fun h ↦ hc h.1.symm

/-- An image is read off a data URL exactly if the rest is the image in base 64. -/
theorem ofUrl?_ofList {cs : List Char} {png : List UInt8} :
    ofUrl? (String.ofList cs) = some png ↔ cs = head ++ Base64.encode png := by
  rw [ofUrl?, String.toList_ofList, Option.bind_eq_some_iff]
  constructor
  · rintro ⟨rest, hrest, hpng⟩
    rw [after?_eq_some_iff.1 hrest, Base64.decode?_eq_some_iff.1 hpng]
  · rintro rfl
    exact ⟨Base64.encode png, after?_eq_some_iff.2 rfl, Base64.decode?_encode png⟩

/-- **An image has one URL**, and only that is read as the image: the head, and the canonical form
of its bytes in base 64. -/
theorem ofUrl?_eq_some_iff (s : String) (png : List UInt8) :
    (ofUrl? s = some png ↔ s = url png) ∧
      (s = url png ↔ ∃ cs, s = "data:image/png;base64," ++ String.ofList cs ∧
        Base64.Spells cs png) := by
  constructor
  · obtain ⟨cs, rfl⟩ : ∃ cs, s = String.ofList cs := ⟨s.toList, String.ofList_toList.symm⟩
    rw [ofUrl?_ofList, url, String.ofList_inj]
  · have hhead : String.ofList head = "data:image/png;base64," := String.ofList_toList
    have hurl : url png = "data:image/png;base64," ++ String.ofList (Base64.encode png) := by
      rw [url, String.ofList_append, hhead]
    simp only [Base64.spells_iff, exists_eq_right, hurl]

/-- Padding that is missing and bits that are left over are refused. -/
example : ofUrl? "data:image/png;base64,QQ==" = some [65] ∧
    ofUrl? "data:image/png;base64,QQ=" = none ∧
    ofUrl? "data:image/png;base64,QR==" = none := by
  decide +kernel

end GraphSession.Thumbnail
