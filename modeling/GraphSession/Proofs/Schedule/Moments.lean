import Mathlib.Data.List.Basic

/-!
# Moments of a history

A history is a list of what has happened, and a moment of it is an entry with what came before. To
say that something was the case when something happened is to say that there is such a moment; the
last entry adds one moment to those there were (`exists_moment_concat`). Of two moments that differ
one comes first, and its entry is in the past of the other (`moment_cases`).
-/

namespace GraphSession

variable {τ : Type}

/-- **A moment of a history is its last one, or one of the history before.** -/
theorem exists_moment_concat {P : List τ → τ → Prop} {hs : List τ} {h : τ} :
    (∃ before x after, hs ++ [h] = before ++ x :: after ∧ P before x) ↔
      (∃ before x after, hs = before ++ x :: after ∧ P before x) ∨ P hs h := by
  constructor
  · rintro ⟨before, x, after, hsplit, hx⟩
    rcases List.eq_nil_or_concat after with rfl | ⟨after, last, rfl⟩
    · obtain ⟨rfl, hlast⟩ := List.append_inj' hsplit rfl
      obtain rfl := List.singleton_inj.1 hlast
      exact .inr hx
    · rw [List.concat_eq_append, ← List.cons_append, ← List.append_assoc] at hsplit
      obtain ⟨rfl, -⟩ := List.append_inj' hsplit rfl
      exact .inl ⟨before, x, after, rfl, hx⟩
  · rintro (⟨before, x, after, rfl, hx⟩ | hx)
    · exact ⟨before, x, after ++ [h], by simp, hx⟩
    · exact ⟨hs, h, [], rfl, hx⟩

/-- What holds at every moment of a history, and at the one that is added, holds at every moment. -/
theorem forall_moment_concat {P : List τ → τ → Prop} {hs : List τ} {h : τ}
    (hhs : ∀ before x after, hs = before ++ x :: after → P before x) (hh : P hs h) :
    ∀ before x after, hs ++ [h] = before ++ x :: after → P before x := by
  intro before x after hsplit
  by_contra hnot
  have hmoment := (exists_moment_concat (P := fun before x ↦ ¬ P before x)).1
    ⟨before, x, after, hsplit, hnot⟩
  rcases hmoment with ⟨b, y, a, hb, hy⟩ | hlast
  · exact hy (hhs b y a hb)
  · exact hlast hh

/-- **Two moments of a history** are the same, or one is in the past of the other. -/
theorem moment_cases {before before' after after' : List τ} {x x' : τ}
    (h : before ++ x :: after = before' ++ x' :: after') :
    (before = before' ∧ x = x' ∧ after = after') ∨ (x ∈ before' ∧ x' ∈ after) ∨
      (x' ∈ before ∧ x ∈ after') := by
  rcases List.append_eq_append_iff.1 h with ⟨between, hbefore, hafter⟩ | ⟨between, hbefore, hafter⟩
  · cases between with
    | nil =>
      obtain ⟨rfl, rfl⟩ := List.cons.inj hafter
      exact .inl ⟨by simpa using hbefore.symm, rfl, rfl⟩
    | cons y between =>
      obtain ⟨rfl, rfl⟩ := List.cons.inj hafter
      exact .inr (.inl ⟨by simp [hbefore], by simp⟩)
  · cases between with
    | nil =>
      obtain ⟨rfl, rfl⟩ := List.cons.inj hafter
      exact .inl ⟨by simpa using hbefore, rfl, rfl⟩
    | cons y between =>
      obtain ⟨rfl, rfl⟩ := List.cons.inj hafter
      exact .inr (.inr ⟨by simp [hbefore], by simp⟩)

end GraphSession
