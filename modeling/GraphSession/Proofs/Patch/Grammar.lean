import GraphSession.Patch.Path

/-!
# The paths that can be written

A path names a place of a project if it has one of four shapes, and then it names that place and no
other (`PatchPath.Names`). Two more shapes name what a node never changes (`PatchPath.NamesFixed`);
they are refused for that reason, and every other path because there is nothing that it names.
Reading a path decides between the three (`PatchTarget.ofPath_eq_ok_iff`,
`PatchTarget.ofPath_eq_error_iff`).

**Segments are not words.** Only the names of the shapes have to be keys. A selector may be an index
or a key, and the two are different selectors even if they read the same. The last segment of an
entry may be either as well, but there an index is only another way to write a key. So a place has
one path, or two if it is an entry whose key is a number (`PatchPath.SamePlace`).
-/

namespace GraphSession

/-- Looking a name up finds what has the name, if names are not shared. -/
theorem find?_name_eq_some_iff {α : Type} {all : List α} {name : α → String} (hall : ∀ a, a ∈ all)
    (hname : Function.Injective name) {s : String} {a : α} :
    (all.find? fun a ↦ name a = s) = some a ↔ name a = s := by
  constructor
  · intro h
    have hs := List.find?_some h
    exact of_decide_eq_true hs
  · rintro rfl
    have hsome : (all.find? fun b ↦ name b = name a).isSome :=
      List.find?_isSome.2 ⟨a, hall a, decide_eq_true rfl⟩
    obtain ⟨b, hb⟩ := Option.isSome_iff_exists.1 hsome
    have hsame := List.find?_some hb
    rw [hb, hname (of_decide_eq_true hsame)]

namespace NodeField

/-- How a field of a node is called in a path. -/
inductive IsNamed : NodeField → String → Prop
  | position : IsNamed .position "position"
  | param : IsNamed .param "param"
  | runtime : IsNamed .runtime "runtime"
  | schemaOut : IsNamed .schemaOut "schema_out"
  | dataOut : IsNamed .dataOut "data_out"
  | fault : IsNamed .fault "error"

variable {f : NodeField} {name : String}

theorem isNamed_iff : f.IsNamed name ↔ f.name = name := by
  constructor
  · rintro ⟨⟩ <;> rfl
  · rintro rfl
    cases f <;> constructor

/-- A node field is found by name exactly when it is so named. -/
theorem ofName?_eq_some_iff : ofName? name = some f ↔ f.IsNamed name := by
  rw [isNamed_iff]
  refine find?_name_eq_some_iff (fun f ↦ by cases f <;> decide) fun f g h ↦ ?_
  revert h
  cases f <;> cases g <;> decide

end NodeField

namespace MapField

/-- How a field whose entries can be written is called in a path. -/
inductive IsNamed : MapField → String → Prop
  | param : IsNamed .param "param"
  | schemaOut : IsNamed .schemaOut "schema_out"
  | dataOut : IsNamed .dataOut "data_out"

variable {f : MapField} {name : String}

theorem isNamed_iff : f.IsNamed name ↔ f.name = name := by
  constructor
  · rintro ⟨⟩ <;> rfl
  · rintro rfl
    cases f <;> constructor

/-- A free-form map is found by name exactly when it is so named. -/
theorem ofName?_eq_some_iff : ofName? name = some f ↔ f.IsNamed name := by
  rw [isNamed_iff]
  refine find?_name_eq_some_iff (fun f ↦ by cases f <;> decide) fun f g h ↦ ?_
  revert h
  cases f <;> cases g <;> decide

end MapField

/-- The first segment after `nodes` tells which node is meant: an index and an identifier are never
confused. -/
theorem NodeSelector.ofSegment_injective : Function.Injective NodeSelector.ofSegment := by
  rintro (_ | _) (_ | _) h <;> cases h <;> rfl

namespace PatchPath

/-- The shapes of the paths that name a place, and the place that they name. -/
inductive Names : PatchPath → PatchTarget → Prop
  | workflowError : Names [.key "workflow", .key "error"] .workflowError
  | node (sel : Segment) : Names [.key "workflow", .key "nodes", sel] (.node (.ofSegment sel))
  | field (sel : Segment) {f : NodeField} {name : String} (h : f.IsNamed name) :
    Names [.key "workflow", .key "nodes", sel, .key name] (.field (.ofSegment sel) f)
  | entry (sel : Segment) {f : MapField} {name : String} (h : f.IsNamed name) (last : Segment) :
    Names [.key "workflow", .key "nodes", sel, .key name, last]
    (.entry (.ofSegment sel) f last.text)

/-- The shapes of the paths that name what never changes. -/
inductive NamesFixed : PatchPath → Prop
  | id (sel : Segment) : NamesFixed [.key "workflow", .key "nodes", sel, .key "id"]
  | kind (sel : Segment) : NamesFixed [.key "workflow", .key "nodes", sel, .key "type"]

/-- Two paths are the same, or they are paths of one entry and the key is an index in one of them
and the decimal digits of that index in the other. -/
inductive SamePlace : PatchPath → PatchPath → Prop
  | same (path : PatchPath) : SamePlace path path
  | spelled (sel field : Segment) (n : Nat) :
    SamePlace [.key "workflow", .key "nodes", sel, field, .index n]
      [.key "workflow", .key "nodes", sel, field, .key (Segment.index n).text]
  | counted (sel field : Segment) (n : Nat) :
    SamePlace [.key "workflow", .key "nodes", sel, field, .key (Segment.index n).text]
      [.key "workflow", .key "nodes", sel, field, .index n]

end PatchPath

namespace PatchTarget

open PatchPath

variable {path other : PatchPath} {target : PatchTarget} {e : PatchFault}

/-- A path that names a target is read as that target. -/
theorem ofPath_of_names (h : Names path target) : ofPath path = .ok target := by
  cases h with
  | workflowError => rfl
  | node sel => rfl
  | field sel h => cases h <;> rfl
  | entry sel h last => cases h <;> rfl

/-- A path that names a fixed part of the project is refused as immutable. -/
theorem ofPath_of_namesFixed (h : NamesFixed path) :
    ofPath path = .error (.immutable path.text) := by
  cases h <;> rfl

/-- What reading a path can give. -/
inductive Reading (path : PatchPath) : Except PatchFault PatchTarget → Prop
  | place {target : PatchTarget} (h : Names path target) : Reading path (.ok target)
  | fixed (h : NamesFixed path) : Reading path (.error (.immutable path.text))
  | unknown : Reading path (.error (.unknownPath path.text))

/-- **Reading follows the shapes.** -/
theorem reading_ofPath (path : PatchPath) : Reading path (ofPath path) := by
  unfold ofPath
  split
  case h_1 => exact .place .workflowError
  case h_2 sel rest =>
    unfold ofNodePath
    split
    case h_1 => exact .place (.node sel)
    case h_2 name =>
      split
      case h_1 f hf => exact .place (.field sel (NodeField.ofName?_eq_some_iff.1 hf))
      case h_2 =>
        split
        case isTrue hname =>
          -- the names of the fixed parts are the identifier and the kind
          rcases List.mem_cons.1 hname with rfl | hname
          · exact .fixed (.id sel)
          · obtain rfl := List.mem_singleton.1 hname
            exact .fixed (.kind sel)
        case isFalse => exact .unknown
    case h_3 name last =>
      split
      case h_1 f hf => exact .place (.entry sel (MapField.ofName?_eq_some_iff.1 hf) last)
      case h_2 => exact .unknown
    case h_4 => exact .unknown
  case h_3 => exact .unknown

/-- Reading a path is sound and complete for the grammar. -/
theorem ofPath_eq_ok_iff : ofPath path = .ok target ↔ Names path target := by
  refine ⟨fun h ↦ ?_, ofPath_of_names⟩
  have hreading := reading_ofPath path
  rw [h] at hreading
  cases hreading with
  | place hnames => exact hnames

/-- A path is refused as immutable when it names a fixed part, and as unknown when it names nothing
at all. -/
theorem ofPath_eq_error_iff : ofPath path = .error e ↔
    NamesFixed path ∧ e = .immutable path.text ∨
      (¬ NamesFixed path ∧ ∀ target, ¬ Names path target) ∧ e = .unknownPath path.text := by
  have hreading := reading_ofPath path
  constructor
  · intro h
    have hplace (target : PatchTarget) : ¬ Names path target := fun hnames ↦ by
      rw [ofPath_of_names hnames] at h
      cases h
    rw [h] at hreading
    cases hreading with
    | fixed hfixed => exact .inl ⟨hfixed, rfl⟩
    | unknown =>
      refine .inr ⟨⟨fun hfixed ↦ ?_, hplace⟩, rfl⟩
      rw [ofPath_of_namesFixed hfixed] at h
      cases h
  · rintro (⟨hfixed, rfl⟩ | ⟨⟨hfixed, hplace⟩, rfl⟩)
    · exact ofPath_of_namesFixed hfixed
    · generalize ofPath path = r at hreading
      cases hreading with
      | place hnames => exact absurd hnames (hplace _)
      | fixed h => exact absurd h hfixed
      | unknown => rfl

/-! ### Two paths of one place -/

/-- Decimal digits determine the number. -/
theorem index_of_text {m n : Nat} (h : (Segment.index m).text = (Segment.index n).text) :
    m = n := by
  have hdigits : Nat.toDigits 10 m = Nat.toDigits 10 n := String.ofList_injective h
  calc m = Nat.ofDigitChars 10 (Nat.toDigits 10 m) 0 := Nat.ofDigitChars_ten_toDigits.symm
    _ = Nat.ofDigitChars 10 (Nat.toDigits 10 n) 0 := by rw [hdigits]
    _ = n := Nat.ofDigitChars_ten_toDigits

/-- Two paths that differ only in how the last segment spells the same map key are the same place.
-/
theorem samePlace_of_text {sel field last last' : Segment} (h : last'.text = last.text) :
    SamePlace [.key "workflow", .key "nodes", sel, field, last]
      [.key "workflow", .key "nodes", sel, field, last'] := by
  cases last with
  | index m =>
    cases last' with
    | index n =>
      obtain rfl := index_of_text h
      exact .same _
    | key k =>
      obtain rfl : k = (Segment.index m).text := h
      exact .spelled sel field m
  | key k =>
    cases last' with
    | index n =>
      obtain rfl : (Segment.index n).text = k := h
      exact .counted sel field n
    | key k' =>
      obtain rfl : k' = k := h
      exact .same _

/-- **Paths of one place** differ at most in how they write the key of an entry. -/
theorem samePlace_of_names (h : Names path target) (h' : Names other target) :
    SamePlace path other := by
  cases h with
  | workflowError =>
    cases h'
    exact .same _
  -- The selectors of the two paths are equal as selectors, not yet as segments.
  | node sel =>
    generalize hsel : NodeSelector.ofSegment sel = s at h'
    cases h' with
    | node sel' =>
      obtain rfl := NodeSelector.ofSegment_injective hsel
      exact .same _
  | field sel hname =>
    generalize hsel : NodeSelector.ofSegment sel = s at h'
    cases h' with
    | field sel' hname' =>
      obtain rfl := NodeSelector.ofSegment_injective hsel
      rw [← NodeField.isNamed_iff.1 hname, ← NodeField.isNamed_iff.1 hname']
      exact .same _
  | entry sel hname last =>
    generalize hsel : NodeSelector.ofSegment sel = s at h'
    generalize hkey : last.text = key at h'
    cases h' with
    | entry sel' hname' last' =>
      obtain rfl := NodeSelector.ofSegment_injective hsel
      rw [← MapField.isNamed_iff.1 hname, ← MapField.isNamed_iff.1 hname']
      exact samePlace_of_text hkey.symm

/-- Only the text of the last segment of an entry matters. -/
theorem names_of_text {sel field last last' : Segment} (htext : last'.text = last.text)
    (h : Names [.key "workflow", .key "nodes", sel, field, last] target) :
    Names [.key "workflow", .key "nodes", sel, field, last'] target := by
  generalize hpath : [Segment.key "workflow", .key "nodes", sel, field, last] = path at h
  cases h with
  | workflowError | node | field => simp at hpath
  | entry sel hname last =>
    cases hpath
    rw [← htext]
    exact .entry sel hname last'

/-- The same place is the same target. -/
theorem names_of_samePlace (h : Names path target) (hsame : SamePlace path other) :
    Names other target := by
  cases hsame with
  | same => exact h
  | spelled | counted =>
    refine names_of_text ?_ h
    rfl

/-- **The grammar of paths.** A path is read as a place if and only if it has the shape of a path to
that place, it is refused as fixed if and only if it leads to the id or the kind of a node, and it
is unknown if and only if it does neither. Two paths lead to the same place if and only if they are
the same up to a number for the key of an entry. -/
theorem reads_grammar :
    (∀ (path : PatchPath) (target : PatchTarget), ofPath path = .ok target ↔ path.Names target) ∧
      (∀ path : PatchPath, ofPath path = .error (.immutable path.text) ↔ path.NamesFixed) ∧
      (∀ path : PatchPath, ofPath path = .error (.unknownPath path.text) ↔
        ¬ path.NamesFixed ∧ ∀ target, ¬ path.Names target) ∧
      ∀ (path other : PatchPath) (target : PatchTarget), ofPath path = .ok target →
        (ofPath other = .ok target ↔ path.SamePlace other) := by
  refine ⟨fun path target ↦ ofPath_eq_ok_iff, fun path ↦ ?_, fun path ↦ ?_,
    fun path other target h ↦ ?_⟩
  · simp [ofPath_eq_error_iff]
  · simp [ofPath_eq_error_iff]
  · rw [ofPath_eq_ok_iff] at h ⊢
    exact ⟨samePlace_of_names h, names_of_samePlace h⟩

/-- The path of a parameter of the second node. -/
def paramPath (last : Segment) : PatchPath :=
  [.key "workflow", .key "nodes", .index 1, .key "param", last]

/-- A parameter `7` has two paths; a node `1` is not the second node. -/
theorem reads_grammar_digits :
    ofPath (paramPath (.index 7)) = .ok (.entry (.index 1) .param "7") ∧
      (ofPath (paramPath (.key "7")) = .ok (.entry (.index 1) .param "7") ↔
        (paramPath (.index 7)).SamePlace (paramPath (.key "7"))) ∧
      (paramPath (.index 7)).SamePlace (paramPath (.key "7")) ∧
      ¬ (paramPath (.index 7)).SamePlace
        [.key "workflow", .key "nodes", .key "1", .key "param", .index 7] := by
  have hseven : ofPath (paramPath (.index 7)) = .ok (.entry (.index 1) .param "7") := by rfl
  obtain ⟨-, -, -, hplaces⟩ := reads_grammar
  have hiff := hplaces _ (paramPath (.key "7")) _ hseven
  refine ⟨hseven, hiff, hiff.1 (by rfl), fun hsame ↦ ?_⟩
  have hother := (hplaces _ _ _ hseven).2 hsame
  cases hother

end PatchTarget

end GraphSession
