import GraphSession.Project.Wire
import GraphSession.Proofs.Json.Records
import GraphSession.Proofs.Project.WellFormed

/-!
# What is decoded is well-formed

A well-formed value is decoded to a well-formed part of a project, whichever way the value was
written: the floats of a node come from finite floats or from integers of 64 bits, and its free-form
values are parts of the value (`Node.wellFormed_of_decode`). A record is taken apart for that into
the parts that it was gathered from, and each of them is a part of the value.
-/

namespace GraphSession

open Record Gathered

namespace OrderedMap

universe u

variable {α : Type u} {m : OrderedMap α}

/-- What is found under the names is what the entries hold. -/
theorem forall_entries_iff {p : α → Prop} :
    (∀ e ∈ m.entries, p e.2) ↔ ∀ k a, m.get? k = some a → p a := by
  refine ⟨fun h k a hk ↦ h (k, a) (Entries.mem_of_lookup hk), fun h e he ↦ ?_⟩
  exact h e.1 e.2 ((Entries.lookup_eq_some_iff m.distinct).2 he)

end OrderedMap

namespace Tree

/-- The tree of a well-formed value. -/
def WellFormed (t : Tree) : Prop := ∃ j : Json, j.WellFormed ∧ ofJson j = t

variable {t : Tree} {label : String} {names : List String} {r : Record}

/-- The parts of a record are well-formed. -/
theorem wellFormed_of_record (ht : t.WellFormed) (h : record label names t = .ok r) :
    ∀ part ∈ r.parts, part.2.WellFormed := by
  obtain ⟨j, hj, rfl⟩ := ht
  cases hj with
  | null | bool | int | float | str => cases h
  | arr hitems =>
    cases h
    intro part hpart
    obtain ⟨j, hj, hpart⟩ : ∃ j, j ∈ _ ∧ ofJson j = part.2 := by
      simpa only [ofItems_eq, List.mem_map] using (List.of_mem_zip hpart).2
    exact ⟨j, hitems j hj, hpart⟩
  | obj distinct hfields =>
    rw [record_ofJson distinct] at h
    cases h
    intro part hpart
    rw [Record.ofJson, ofFields_eq, List.mem_map] at hpart
    obtain ⟨field, hfield, rfl⟩ := hpart
    exact ⟨field.2, hfields field hfield, rfl⟩

/-- The parts of a record are well formed when the tree is. -/
theorem wellFormed_of_lookup {name : String} (ht : t.WellFormed) (h : record label names t = .ok r)
    {part : Tree} (hpart : r.parts.lookup name = some part) : part.WellFormed :=
  wellFormed_of_record ht h _ (Entries.mem_of_lookup hpart)

/-- A number read from a well-formed tree is finite. -/
theorem isFinite_of_double {d : Double} (ht : t.WellFormed) (h : double t = .ok d) :
    d.isFinite = true := by
  obtain ⟨j, hj, rfl⟩ := ht
  cases hj with
  | int hn =>
    cases h
    exact Double.isFinite_ofInt hn
  | float hd =>
    cases h
    exact hd
  | null | bool | str | arr | obj => cases h

/-- The fields of a well-formed object are decoded to themselves. -/
theorem wellFormed_of_freeMap {m : OrderedMap Json} (ht : t.WellFormed)
    (h : map freeForm t = .ok m) :
    ∀ e ∈ m.entries, e.2.WellFormed := by
  obtain ⟨j, hj, rfl⟩ := ht
  cases hj with
  | obj distinct hfields =>
    have hrecovers := freeMap_recovers (m := ⟨_, distinct⟩) hfields
    rw [Recovers, Json.ofMap, h] at hrecovers
    cases hrecovers
    exact hfields
  | null | bool | int | float | str | arr => cases h

/-- What is not `null` is decoded as it is without a choice. -/
theorem of_optional {α : Type} {f : Decoder α} {o : Option α} (h : optional f t = .ok o) :
    ∀ a ∈ o, f t = .ok a := by
  by_cases hnull : t = .null
  · subst hnull
    cases h
    exact nofun
  · rw [optional_of_ne_null hnull] at h
    obtain ⟨a, ha, rfl⟩ := exists_of_map_eq_ok h
    intro b hb
    rw [ha, Option.some.inj hb]

end Tree

variable {t : Tree}

theorem Position.wellFormed_of_decode {p : Position} (ht : t.WellFormed) (h : decode t = .ok p) :
    p.WellFormed fun d ↦ d.isFinite = true := by
  obtain ⟨r, hr, hgather⟩ := gathered_of_decode h
  obtain ⟨g, y, hg, hy, rfl⟩ := seq_eq_value hgather
  obtain ⟨x, hx, rfl⟩ := map_eq_value hg
  obtain ⟨tx, hlookup, hx⟩ := required_eq_value hx
  obtain ⟨ty, hlookup', hy⟩ := required_eq_value hy
  exact ⟨Tree.isFinite_of_double (Tree.wellFormed_of_lookup ht hr hlookup) hx,
    Tree.isFinite_of_double (Tree.wellFormed_of_lookup ht hr hlookup') hy⟩

/-- **A node that is decoded is well-formed,** and its floats are finite. -/
theorem Node.wellFormed_of_decode {n : Node} (ht : t.WellFormed) (h : decode t = .ok n) :
    n.WellFormed fun d ↦ d.isFinite = true := by
  -- the fields are gathered one after the other, the last one outermost
  obtain ⟨r, hr, hgather⟩ := gathered_of_decode h
  obtain ⟨_, fault, h₁, -, rfl⟩ := seq_eq_value hgather
  obtain ⟨_, dataOut, h₂, -, rfl⟩ := seq_eq_value h₁
  obtain ⟨_, schemaOut, h₃, hschemaOut, rfl⟩ := seq_eq_value h₂
  obtain ⟨_, runtime, h₄, hruntime, rfl⟩ := seq_eq_value h₃
  obtain ⟨_, param, h₅, hparam, rfl⟩ := seq_eq_value h₄
  obtain ⟨_, position, h₆, hposition, rfl⟩ := seq_eq_value h₅
  obtain ⟨_, kind, h₇, -, rfl⟩ := seq_eq_value h₆
  obtain ⟨id, -, rfl⟩ := map_eq_value h₇
  have hpart {name : String} {part : Tree} (hpart : r.parts.lookup name = some part) :
      part.WellFormed :=
    Tree.wellFormed_of_lookup ht hr hpart
  refine ⟨?position, ?param, ?runtime, ?schemaOut⟩
  case position =>
    obtain ⟨part, hlookup, hdecode⟩ := required_eq_value hposition
    exact Position.wellFormed_of_decode (hpart hlookup) hdecode
  case param =>
    rcases withDefault_eq_value hparam with rfl | ⟨part, hlookup, hdecode⟩
    · exact List.forall_mem_nil _
    · exact Tree.wellFormed_of_freeMap (hpart hlookup) hdecode
  case runtime =>
    rcases withDefault_eq_value hruntime with rfl | ⟨part, hlookup, hdecode⟩
    · exact nofun
    · exact fun d hd ↦ Tree.isFinite_of_double (hpart hlookup) (Tree.of_optional hdecode d hd)
  case schemaOut =>
    rcases withDefault_eq_value hschemaOut with rfl | ⟨part, hlookup, hdecode⟩
    · exact nofun
    · exact fun m hm ↦ Tree.wellFormed_of_freeMap (hpart hlookup) (Tree.of_optional hdecode m hm)

end GraphSession
