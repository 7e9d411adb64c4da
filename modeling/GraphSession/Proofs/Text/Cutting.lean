import Mathlib.Data.List.TakeDrop
import Mathlib.Data.List.TakeWhile
import Mathlib.Tactic.SplitIfs
import GraphSession.Text.Blank
import GraphSession.Text.Split

/-!
# Texts that are cut

What a reader cuts from a text is determined by what it is: the text without the blanks around it
(`Text.trim_eq_iff`), what stands before the first occurrence of a mark, and the pieces between
marks. So a text that was put together from parts without the mark falls into these parts again.
-/

namespace GraphSession.Text

/-! ### Runs of characters -/

/-- Taking characters while they satisfy a condition takes a front that does, and stops before the
rest. -/
theorem takeWhile_append_of_head? {p : Char → Bool} {front rest : List Char}
    (hfront : ∀ c ∈ front, p c = true) (hrest : ∀ c ∈ rest.head?, p c = false) :
    (front ++ rest).takeWhile p = front := by
  rw [List.takeWhile_append_of_pos hfront]
  cases rest with
  | nil => exact List.append_nil _
  | cons c rest => rw [List.takeWhile_cons, hrest c rfl, if_neg Bool.false_ne_true, List.append_nil]

/-- Dropping characters while they satisfy a condition drops a front that does, and no more. -/
theorem dropWhile_append_of_head? {p : Char → Bool} {front rest : List Char}
    (hfront : ∀ c ∈ front, p c = true) (hrest : ∀ c ∈ rest.head?, p c = false) :
    (front ++ rest).dropWhile p = rest := by
  rw [List.dropWhile_append_of_pos hfront]
  cases rest with
  | nil => rfl
  | cons c rest => rw [List.dropWhile_cons, hrest c rfl, if_neg Bool.false_ne_true]

theorem of_mem_head?_dropWhile {p : Char → Bool} {cs : List Char} {c : Char}
    (hc : c ∈ (cs.dropWhile p).head?) : p c = false := by
  have hhead := List.head?_dropWhile_not p cs
  rw [hc] at hhead
  exact hhead

/-! ### Trimming -/

/-- What is left of a text without the blanks around it. -/
structure IsTrimmed (text inner : List Char) : Prop where
  around : ∃ front back, text = front ++ inner ++ back ∧
    (∀ c ∈ front, isBlank c = true) ∧ ∀ c ∈ back, isBlank c = true
  first : ∀ c ∈ inner.head?, isBlank c = false
  last : ∀ c ∈ inner.getLast?, isBlank c = false

/-- What stands before the end of a text begins as the text does. -/
theorem mem_head?_of_append {cs back : List Char} {c : Char} (hc : c ∈ cs.head?) :
    c ∈ (cs ++ back).head? := by
  rw [List.head?_append, hc]
  rfl

/-- A trimmed text is what is left without the blanks at both ends. -/
theorem isTrimmed_trim (text : List Char) : IsTrimmed text (trim text) := by
  have hfront : text = text.takeWhile isBlank ++ trimStart text :=
    List.takeWhile_append_dropWhile.symm
  have hback : trimStart text = trim text ++
      ((trimStart text).reverse.takeWhile isBlank).reverse := by
    rw [trim, trimEnd, ← List.reverse_append, List.takeWhile_append_dropWhile, List.reverse_reverse]
  refine ⟨⟨text.takeWhile isBlank, ((trimStart text).reverse.takeWhile isBlank).reverse,
    hfront.trans ?_, fun c hc ↦ ?_, fun c hc ↦ ?_⟩, fun c hc ↦ ?_, fun c hc ↦ ?_⟩
  · rw [List.append_assoc, ← hback]
  · exact List.mem_takeWhile_imp hc
  · exact List.mem_takeWhile_imp (List.mem_reverse.1 hc)
  · have hstart : c ∈ (trimStart text).head? := hback ▸ mem_head?_of_append hc
    exact of_mem_head?_dropWhile hstart
  · rw [trim, trimEnd, List.getLast?_reverse] at hc
    exact of_mem_head?_dropWhile hc

/-- **Trimming leaves what is left without the blanks around it.** -/
theorem trim_eq_iff {text inner : List Char} : trim text = inner ↔ IsTrimmed text inner := by
  refine ⟨fun h ↦ h ▸ isTrimmed_trim text, ?_⟩
  rintro ⟨⟨front, back, rfl, hfront, hback⟩, hfirst, hlast⟩
  have hend : trimEnd (inner ++ back) = inner := by
    rw [trimEnd, List.reverse_append,
      dropWhile_append_of_head? (by simpa using hback) (by simpa using hlast), List.reverse_reverse]
  rw [trim, trimStart, List.append_assoc]
  cases inner with
  | nil =>
    -- all is blank, so the first trimming takes everything
    have hall : ∀ c ∈ front ++ ([] ++ back), isBlank c = true := fun c hc ↦
      (List.mem_append.1 hc).elim (hfront c) (hback c)
    rw [List.dropWhile_eq_nil_iff.2 hall]
    rfl
  | cons c inner =>
    have hstart : (front ++ (c :: inner ++ back)).dropWhile isBlank = c :: inner ++ back :=
      dropWhile_append_of_head? hfront hfirst
    rw [hstart, hend]

/-! ### Marks -/

/-- What stands before the first occurrence of a character. -/
theorem takeWhile_ne_append_cons {c : Char} {front : List Char} (h : c ∉ front) (rest : List Char) :
    (front ++ c :: rest).takeWhile (· ≠ c) = front :=
  takeWhile_append_of_head? (fun _ hc' ↦ decide_eq_true (ne_of_mem_of_not_mem hc' h)) (by simp)

/-- Two texts that go on with a mark each are the same up to it if they are the same with what goes
on. -/
theorem eq_of_append_marked {marks front front' back back' : List Char}
    (hfront : ∀ c ∈ front, c ∉ marks) (hfront' : ∀ c ∈ front', c ∉ marks)
    (hback : ∀ c ∈ back.head?, c ∈ marks) (hback' : ∀ c ∈ back'.head?, c ∈ marks)
    (h : front ++ back = front' ++ back') : front = front' := by
  have htake : ∀ {front back : List Char}, (∀ c ∈ front, c ∉ marks) →
      (∀ c ∈ back.head?, c ∈ marks) →
      (front ++ back).takeWhile (· ∉ marks) = front := fun hfront hback ↦
    takeWhile_append_of_head? (fun c hc ↦ decide_eq_true (hfront c hc))
      fun c hc ↦ decide_eq_false (not_not_intro (hback c hc))
  rw [← htake hfront hback, h, htake hfront' hback']

/-- A text is split at each separator. -/
theorem split_append_cons {isSeparator : Char → Bool} {sep : Char} (hsep : isSeparator sep = true)
    (front back : List Char) :
    split isSeparator (front ++ sep :: back) =
      split isSeparator front ++ split isSeparator back := by
  induction front with
  | nil => simp [split, hsep]
  | cons c front ih =>
    rw [List.cons_append, split, split, ih]
    cases hfront : split isSeparator front with
    | nil => exact absurd hfront (split_ne_nil isSeparator front)
    | cons piece pieces => cases isSeparator c <;> rfl

/-- A text without separators is its only part. -/
theorem split_of_forall {isSeparator : Char → Bool} {cs : List Char}
    (h : ∀ c ∈ cs, isSeparator c = false) :
    split isSeparator cs = [cs] := by
  induction cs with
  | nil => rfl
  | cons c cs ih =>
    rw [split, h c List.mem_cons_self, ih fun c' hc' ↦ h c' (List.mem_cons_of_mem c hc')]

/-- A text is cut at its first separator. -/
theorem cutAt_append_cons {sep : Char} {front : List Char} (h : sep ∉ front) (back : List Char) :
    cutAt sep (front ++ sep :: back) = (front, some back) := by
  have hfront : ∀ c ∈ front, (!decide (c = sep)) = true := fun c hc ↦ by
    simp [ne_of_mem_of_not_mem hc h]
  have hback : ∀ c ∈ (sep :: back).head?, (!decide (c = sep)) = false := by simp
  rw [cutAt, breakAt, List.span_eq_takeWhile_dropWhile, takeWhile_append_of_head? hfront hback,
    dropWhile_append_of_head? hfront hback]

end GraphSession.Text
