/-!
# Sets of names

Offending ports and referenced data handles are sets: no repetitions, and listed in ascending order
of code points wherever they show. A `NameSet` is that list, and its type says that the list
ascends, so two sets with the same members are equal.
-/

namespace GraphSession

/-- A set of names, as its ascending list. -/
structure NameSet where
  names : List String
  ascending : names.Pairwise (· < ·)
  deriving DecidableEq

namespace NameSet

/-- Puts a name where it belongs in an ascending list. -/
def place (s : String) : List String → List String
  | [] => [s]
  | t :: rest => if s < t then s :: t :: rest else if s = t then t :: rest else t :: place s rest

/-- Placing a name adds it and nothing else. -/
theorem mem_place {s t : String} {l : List String} : t ∈ place s l ↔ t = s ∨ t ∈ l := by
  induction l with
  | nil => simp [place]
  | cons u rest ih =>
    simp only [place]
    split
    · simp
    · split
      · rename_i h; subst h; simp
      · simp only [List.mem_cons, ih]
        constructor
        · rintro (h | h | h) <;> simp [h]
        · rintro (h | h | h) <;> simp [h]

/-- The order of names is total. -/
theorem lt_of_not_lt_of_ne {s t : String} (h : ¬s < t) (h' : s ≠ t) : t < s :=
  String.not_le.1 fun hle ↦ h' (String.le_antisymm hle (String.not_lt.1 h))

/-- Placing a name keeps a list in ascending order, each name once. -/
theorem pairwise_place {s : String} {l : List String} (h : l.Pairwise (· < ·)) :
    (place s l).Pairwise (· < ·) := by
  induction l with
  | nil => simp [place]
  | cons u rest ih =>
    rw [List.pairwise_cons] at h
    simp only [place]
    split
    · rename_i hlt
      refine List.pairwise_cons.2 ⟨fun v hv ↦ ?_, List.pairwise_cons.2 h⟩
      rcases List.mem_cons.1 hv with rfl | hv
      · exact hlt
      · exact String.lt_trans hlt (h.1 v hv)
    · split
      · exact List.pairwise_cons.2 h
      · rename_i hlt hne
        refine List.pairwise_cons.2 ⟨fun v hv ↦ ?_, ih h.2⟩
        rcases mem_place.1 hv with rfl | hv
        · exact lt_of_not_lt_of_ne hlt hne
        · exact h.1 v hv

/-- The set without names. -/
def empty : NameSet := ⟨[], .nil⟩

/-- The set without names is written as the empty collection. -/
instance : EmptyCollection NameSet := ⟨empty⟩

/-- Inhabited by the set without names. -/
instance : Inhabited NameSet := ⟨empty⟩

/-- The set with one more name, if it is not in there already. -/
def insert (s : String) (n : NameSet) : NameSet := ⟨place s n.names, pairwise_place n.ascending⟩

/-- The names of a list, each once and in ascending order. -/
def ofList (l : List String) : NameSet := l.foldr insert empty

/-- The names in ascending order. -/
def toList (n : NameSet) : List String := n.names

/-- Whether a name is in the set. -/
def contains (n : NameSet) (s : String) : Bool := n.names.contains s

/-- A name is in the set if it is among its names. -/
instance : Membership String NameSet := ⟨fun n s ↦ s ∈ n.names⟩

/-- Inserting a name adds it and nothing else. -/
theorem mem_insert {s t : String} {n : NameSet} : t ∈ n.insert s ↔ t = s ∨ t ∈ n :=
  mem_place

/-- A set built from a list has the members of the list. -/
theorem mem_ofList {s : String} {l : List String} : s ∈ ofList l ↔ s ∈ l := by
  induction l with
  | nil => exact Iff.rfl
  | cons t rest ih =>
    rw [ofList, List.foldr_cons, mem_insert, List.mem_cons]
    exact or_congr Iff.rfl ih

end NameSet

end GraphSession
