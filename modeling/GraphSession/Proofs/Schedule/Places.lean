import Mathlib.Data.List.Basic
import Mathlib.Logic.Function.Basic

/-!
# The places of calls

Calls are kept in a list in the order they were made, and a call that has returned leaves its place
empty. So the place of a call is its number for good, and whatever happens to one call is an update
of `callAt?` at its number; what is read off the calls is updated with it (`bind_of_update`).
-/

namespace GraphSession

variable {κ : Type} {calls : List (Option κ)} {i : Nat}

/-- The call of a number, if it was made and has not returned. -/
def callAt? (calls : List (Option κ)) (i : Nat) : Option κ := calls[i]?.join

/-- Nobody is at a place that has not been taken. -/
theorem callAt?_of_length_le (hi : calls.length ≤ i) : callAt? calls i = none := by
  rw [callAt?, List.getElem?_eq_none hi]
  rfl

theorem lt_length_of_callAt? {c : κ} (hc : callAt? calls i = some c) : i < calls.length := by
  by_contra hi
  rw [callAt?_of_length_le (by omega)] at hc
  cases hc

/-- Another call is made. -/
theorem callAt?_concat (calls : List (Option κ)) (c : Option κ) :
    callAt? (calls ++ [c]) = Function.update (callAt? calls) calls.length c := by
  funext j
  rcases Nat.lt_trichotomy j calls.length with hj | rfl | hj
  · rw [Function.update_of_ne (by omega), callAt?, List.getElem?_append_left hj]
    rfl
  · rw [Function.update_self, callAt?, List.getElem?_concat_length]
    rfl
  · have hlength : (calls ++ [c]).length ≤ j := by
      rw [List.length_append, List.length_singleton]
      omega
    rw [Function.update_of_ne (by omega), callAt?_of_length_le hlength,
      callAt?_of_length_le (Nat.le_of_lt hj)]

/-- A call has got to another place, or has returned. -/
theorem callAt?_set {c : κ} (hc : callAt? calls i = some c) (c' : Option κ) :
    callAt? (calls.set i c') = Function.update (callAt? calls) i c' := by
  have hi := lt_length_of_callAt? hc
  funext j
  rcases eq_or_ne j i with rfl | hj
  · rw [Function.update_self, callAt?, List.getElem?_set_self hi]
    rfl
  · rw [Function.update_of_ne hj, callAt?, List.getElem?_set_ne hj.symm]
    rfl

/-- What somebody has after one place was changed. -/
theorem update_eq_some_iff {α : Type} {f : Nat → Option α} {j : Nat} {x : Option α} {y : α} :
    Function.update f i x j = some y ↔ j = i ∧ x = some y ∨ j ≠ i ∧ f j = some y := by
  rcases eq_or_ne j i with rfl | hj
  · simp
  · simp [hj]

/-- Only one place is not empty. -/
theorem update_none_eq_some_iff {α : Type} {j : Nat} {x : Option α} {y : α} :
    Function.update (fun _ ↦ none) i x j = some y ↔ j = i ∧ x = some y := by
  simp [update_eq_some_iff]

/-- What is read off the calls changes with the call that changes. -/
theorem bind_of_update {α β : Type} {f f' : Nat → Option α} {x : Option α}
    (h : f' = Function.update f i x) (read : α → Option β) :
    (fun j ↦ (f' j).bind read) = Function.update (fun j ↦ (f j).bind read) i (x.bind read) := by
  funext j
  rw [h]
  rcases eq_or_ne j i with rfl | hj
  · rw [Function.update_self, Function.update_self]
  · rw [Function.update_of_ne hj, Function.update_of_ne hj]

end GraphSession
