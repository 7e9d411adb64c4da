import Mathlib.Data.List.Forall2
import GraphSession.Patch.Frame
import GraphSession.Proofs.Json.Records

/-!
# One bad part does not spoil a frame

A text is a frame if it is an object with an array under `patch`, or with no such field
(`FrameOutline.IsHeldBy`). Nothing is asked of the entries of the array or of the other two parts
but that they have a value, and nothing at all of fields with other names. Such a text always has a
frame, and what that frame is can be read off the parts (`Frame.Sorts`): every entry decodes as a
patch on its own or is malformed, and counts once.

**Entries do not touch one another.** Which of them decode is asked of each alone, so the message of
a frame depends on the entries that decode and on nothing else. A malformed entry may come or go
anywhere, and all that changes is the list of rejections (`Frame.sorts_parts`).
-/

namespace GraphSession

open Record

/-! ### Free-form parts -/

namespace Tree

/-- Items that have values are decoded as these values. -/
theorem items_freeForm {ts : List Tree} {js : List Json} (h : itemsToJson? ts = some js) :
    items freeForm ts = .ok js := by
  induction ts generalizing js with
  | nil => exact congrArg Except.ok (Option.some.inj h)
  | cons t ts ih =>
    cases hjs : itemsToJson? ts with
    | none => simp [itemsToJson?, hjs] at h
    | some tail =>
      cases hj : t.toJson? with
      | none => simp [itemsToJson?, hj] at h
      | some j =>
        simp only [itemsToJson?, hj, hjs, Option.some.injEq] at h
        rw [items, freeForm, hj, ih hjs, ← h]
        rfl

/-- Only `null` has the value `null`. -/
theorem eq_null_of_toJson? {t : Tree} (h : t.toJson? = some .null) : t = .null := by
  cases t with
  | null => rfl
  | arr ts => simp [toJson?] at h
  | obj fields => simp [toJson?, Json.ofMap] at h
  | bool | int | float | str | unusable => simp [toJson?] at h

/-- A part that may be `null` is there with any other value. -/
theorem optional_freeForm {t : Tree} {j : Json} (h : t.toJson? = some j) :
    optional freeForm t = .ok (if j.isNull then none else some j) := by
  by_cases ht : t = .null
  · subst ht
    obtain rfl : Json.null = j := Option.some.inj h
    rfl
  · have hj : j.isNull = false := by
      cases j with
      | null => exact absurd (eq_null_of_toJson? h) ht
      | bool | int | float | str | arr | obj => rfl
    rw [optional_of_ne_null ht, freeForm, h, hj]
    rfl

theorem toJson?_of_mem {fields : List (String × Tree)} {js : List (String × Json)}
    (h : fieldsToJson? fields = some js) : ∀ f ∈ fields, ∃ j, f.2.toJson? = some j := by
  induction fields generalizing js with
  | nil => exact List.forall_mem_nil _
  | cons f fields ih =>
    obtain ⟨name, t⟩ := f
    cases hj : t.toJson? with
    | none => simp [fieldsToJson?, hj] at h
    | some j =>
      cases hjs : fieldsToJson? fields with
      | none => simp [fieldsToJson?, hjs] at h
      | some tail => exact List.forall_mem_cons.2 ⟨⟨j, hj⟩, ih hjs⟩

/-- Every field of a usable object has a value. -/
theorem toJson?_of_lookup {fields : List (String × Tree)} {name : String} {t : Tree}
    (h : (obj fields).usable = true) (ht : fields.lookup name = some t) :
    ∃ j, t.toJson? = some j := by
  rw [usable, toJson?, Option.isSome_map, Option.isSome_iff_exists] at h
  obtain ⟨js, hjs⟩ := h
  obtain ⟨front, back, rfl, -⟩ := List.lookup_eq_some_iff.1 ht
  exact toJson?_of_mem hjs (name, t) (List.mem_append_right _ List.mem_cons_self)

end Tree

/-! ### Directives -/

/-- A choice is its name, or an object with that name and `null`. -/
theorem Tree.choice_eq_ok {α : Type} {ofName? : String → Option α} {known : List String} {t : Tree}
    {a : α} : choice ofName? known t = .ok a ↔
      ∃ name, ofName? name = some a ∧ (t = .str name ∨ t = .obj [(name, .null)]) := by
  -- a name alone stands for the name with `null`, so both forms come down to the payload
  have hchoice {name : String} {payload : Tree} (h : choiceName t = .ok (name, payload)) :
      choice ofName? known t = .ok a ↔ ofName? name = some a ∧ payload = .null := by
    cases hof : ofName? name with
    | none => simp [choice, h, hof]
    | some b => cases payload <;> simp [choice, h, hof]
  constructor
  · intro h
    cases hname : choiceName t with
    | error e => simp [choice, hname] at h
    | ok named =>
      obtain ⟨name, payload⟩ := named
      obtain ⟨ha, rfl⟩ := (hchoice hname).1 h
      refine ⟨name, ha, ?_⟩
      unfold choiceName at hname
      split at hname <;> simp_all
  · rintro ⟨name, ha, rfl | rfl⟩ <;> exact (hchoice rfl).2 ⟨ha, rfl⟩

namespace TimerDirective

/-- The two ways to write a directive. -/
def IsWritten (d : TimerDirective) (j : Json) : Prop := j = .str d.name ∨ j = .obj [(d.name, .null)]

/-- A timer directive is found by its name. -/
theorem ofName?_eq_some {d : TimerDirective} {s : String} : ofName? s = some d ↔ s = d.name := by
  constructor
  · intro h
    have hname := List.find?_some h
    exact (of_decide_eq_true hname).symm
  · rintro rfl
    cases d <;> decide

/-- A timer directive is decoded exactly from a text that names it. -/
theorem decode_eq_ok {d : TimerDirective} {j : Json} :
    decode (Tree.ofJson j) = .ok d ↔ d.IsWritten j := by
  rw [decode, Tree.choice_eq_ok]
  simp only [ofName?_eq_some, exists_eq_left]
  refine or_congr ?_ ?_
  · cases j <;> simp [Tree.ofJson]
  · rcases j with _ | _ | _ | _ | _ | _ | (_ | ⟨⟨k, v⟩, _ | _⟩)
    case obj.cons.nil => cases v <;> simp [Tree.ofJson, Tree.ofFields]
    all_goals simp [Tree.ofJson, Tree.ofFields]

end TimerDirective

/-! ### Entries -/

/-- An entry as a patch, decoded on its own. -/
def PatchOp.ofEntry? (j : Json) : Option PatchOp := (decode (Tree.ofJson j)).toOption

namespace Frame

/-- An entry that is no patch. -/
def IsMalformed (j : Json) : Prop := PatchOp.ofEntry? j = none

/-- Whether an entry is malformed is decided by trying to read it. -/
instance : DecidablePred IsMalformed := fun j ↦
  decidable_of_iff ((PatchOp.ofEntry? j).isNone = true) Option.isNone_iff_eq_none

/-- The fault that is kept for an entry: under its key, if it has one, and with the reason why it
does not decode. -/
def Rejects (j : Json) (e : PatchFault) : Prop :=
  ∃ m, PatchOp.decode (Tree.ofJson j) = .error m ∧
    e = .malformed (keyText (j.field? "key")) m.message

/-- The operations a list of entries is sorted into are the ones that can be read, in order. -/
theorem sortPatches_fst (js : List Json) : (sortPatches js).1 = js.filterMap PatchOp.ofEntry? := by
  induction js with
  | nil => rfl
  | cons j js ih =>
    rw [sortPatches, List.filterMap_cons, patchOf, PatchOp.ofEntry?]
    cases PatchOp.decode (Tree.ofJson j) with
    | ok op => exact congrArg (op :: ·) ih
    | error m => exact ih

/-- **A fault for each entry that is no patch,** in order. -/
theorem forall₂_sortPatches (js : List Json) :
    List.Forall₂ Rejects (js.filter fun j ↦ IsMalformed j) (sortPatches js).2 := by
  induction js with
  | nil => exact .nil
  | cons j js ih =>
    rw [sortPatches, patchOf]
    cases hj : PatchOp.decode (Tree.ofJson j) with
    | ok op =>
      have hgood : ¬IsMalformed j := by simp [IsMalformed, PatchOp.ofEntry?, hj, Except.toOption]
      rw [List.filter_cons_of_neg (by simpa using hgood)]
      exact ih
    | error m =>
      have hbad : IsMalformed j := by simp [IsMalformed, PatchOp.ofEntry?, hj, Except.toOption]
      rw [List.filter_cons_of_pos (by simpa using hbad)]
      exact .cons ⟨m, hj, rfl⟩ ih

end Frame

/-! ### The parts of a text -/

namespace FrameOutline

/-- The names of the parts. -/
def fieldNames : List String := ["patch", "timer", "node_id"]

/-- The parts that the fields of an object make: the entries of an array, or none if there is no
such field, and what is there under the other two names, whatever it is. -/
structure PartsOf (o : FrameOutline) (fields : List (String × Tree)) : Prop where
  once : ∀ name ∈ fieldNames, (Entries.keys fields).count name ≤ 1
  patch : (fields.lookup "patch" = none ∧ o.patch = []) ∨
    ∃ ts, fields.lookup "patch" = some (.arr ts) ∧ Tree.itemsToJson? ts = some o.patch
  timer : (fields.lookup "timer").map Tree.toJson? = o.timer.map some
  nodeId : (fields.lookup "node_id").map Tree.toJson? = o.nodeId.map some

/-- A text is an object with these parts. -/
def IsHeldBy (o : FrameOutline) (text : String) : Prop :=
  ∃ fields, Tree.ofText? text = some (.obj fields) ∧ o.PartsOf fields

/-- A part that is there and is not `null`. -/
def given (part : Option Json) : Option Json := part.filter fun j ↦ !j.isNull

theorem optional_eq_given {label name : String} {names : List String}
    {fields : List (String × Tree)} {part : Option Json}
    (h : (fields.lookup name).map Tree.toJson? = part.map some) :
    (ofTrees label names fields).optional name Tree.freeForm = .value (given part) := by
  cases part with
  | none => exact fieldOr_of_lookup_eq_none (Option.map_eq_none_iff.1 h)
  | some j =>
    obtain ⟨t, ht, hj⟩ := Option.map_eq_some_iff.1 h
    refine fieldOr_of_lookup ht ?_
    rw [Tree.optional_freeForm hj, given, Option.filter_some]
    cases j.isNull <;> rfl

/-- An object with the parts of an outline is decoded as that outline, except that a `null` part
counts as absent. -/
theorem decode_of_partsOf {o : FrameOutline} {fields : List (String × Tree)}
    (h : o.PartsOf fields) :
    decode (.obj fields) = .ok ⟨o.patch, given o.timer, given o.nodeId⟩ := by
  refine Record.gathered (ofFields_eq h.once) (Gathered.seq_value (Gathered.seq_value
    (Gathered.map_value _ ?patch) ?timer) ?nodeId)
  case patch =>
    rcases h.patch with ⟨hnone, hnil⟩ | ⟨ts, hts, hentries⟩
    · rw [hnil]
      exact fieldOr_of_lookup_eq_none hnone
    · exact fieldOr_of_lookup hts (Tree.items_freeForm hentries)
  case timer => exact optional_eq_given h.timer
  case nodeId => exact optional_eq_given h.nodeId

/-- Whatever the fields of a usable object, they are the parts of a frame if there is an array of
entries or no such field. -/
theorem exists_partsOf {fields : List (String × Tree)} (husable : (Tree.obj fields).usable = true)
    (honce : ∀ name ∈ fieldNames, (Entries.keys fields).count name ≤ 1)
    (hpatch : ∀ t, fields.lookup "patch" = some t → ∃ ts, t = .arr ts) :
    ∃ o : FrameOutline, o.PartsOf fields := by
  have hpart (name : String) :
      ∃ part : Option Json, (fields.lookup name).map Tree.toJson? = part.map some := by
    cases ht : fields.lookup name with
    | none => exact ⟨none, rfl⟩
    | some t =>
      obtain ⟨j, hj⟩ := Tree.toJson?_of_lookup husable ht
      exact ⟨some j, congrArg some hj⟩
  obtain ⟨timer, htimer⟩ := hpart "timer"
  obtain ⟨nodeId, hnodeId⟩ := hpart "node_id"
  cases ht : fields.lookup "patch" with
  | none => exact ⟨⟨[], timer, nodeId⟩, honce, .inl ⟨ht, rfl⟩, htimer, hnodeId⟩
  | some t =>
    obtain ⟨ts, rfl⟩ := hpatch t ht
    obtain ⟨j, hj⟩ := Tree.toJson?_of_lookup husable ht
    obtain ⟨js, hjs, -⟩ := Option.map_eq_some_iff.1 hj
    exact ⟨⟨js, timer, nodeId⟩, honce, .inr ⟨ts, ht, hjs⟩, htimer, hnodeId⟩

end FrameOutline

namespace Frame

theorem sortTimer_given (timer : Option Json) :
    sortTimer (FrameOutline.given timer) = sortTimer timer := by
  rcases timer with _ | j
  · rfl
  · cases j <;> rfl

theorem nodeIdOf_given (nodeId : Option Json) :
    nodeIdOf (FrameOutline.given nodeId) = nodeIdOf nodeId := by
  rcases nodeId with _ | j
  · rfl
  · cases j <;> rfl

/-- **A text that has the parts of a frame has a frame,** and it is the one of its parts. -/
theorem ofText?_of_isHeldBy {o : FrameOutline} {text : String} (h : o.IsHeldBy text) :
    ofText? text = some (ofOutline o) := by
  obtain ⟨fields, htext, hparts⟩ := h
  rw [ofText?, htext]
  simp only [FrameOutline.decode_of_partsOf hparts, ofOutline, sortTimer_given, nodeIdOf_given]

/-- A timer part other than `null` is a directive or is kept aside as it came. -/
theorem sortTimer_of_ne_null {j : Json} (h : j ≠ .null) :
    sortTimer (some j) = match TimerDirective.decode (Tree.ofJson j) with
      | .ok d => (some d, none)
      | .error _ => (none, some j) := by
  cases j with
  | null => exact absurd rfl h
  | bool | int | float | str | arr | obj => rfl

/-- A part that writes a directive sorts as that directive. -/
theorem sortTimer_of_isWritten {j : Json} {d : TimerDirective} (h : d.IsWritten j) :
    sortTimer (some j) = (some d, none) := by
  have hnull : j ≠ .null := by
    rintro rfl
    rcases h with h | h <;> cases h
  simp only [sortTimer_of_ne_null hnull, TimerDirective.decode_eq_ok.2 h]

/-- A part that is neither `null` nor a directive is kept aside. -/
theorem sortTimer_of_not_isWritten {j : Json} (hnull : j ≠ .null)
    (h : ∀ d : TimerDirective, ¬d.IsWritten j) : sortTimer (some j) = (none, some j) := by
  rw [sortTimer_of_ne_null hnull]
  cases hd : TimerDirective.decode (Tree.ofJson j) with
  | ok d => exact absurd (TimerDirective.decode_eq_ok.1 hd) (h d)
  | error m => rfl

/-- Only a string is a node identifier. -/
theorem nodeIdOf_eq_some {part : Option Json} {id : String} :
    nodeIdOf part = some id ↔ part = some (.str id) := by
  rcases part with _ | j
  · simp [nodeIdOf]
  · cases j <;> simp [nodeIdOf]

/-! ### Sorting -/

/-- What a frame makes of its parts. -/
structure Sorts (o : FrameOutline) (f : Frame) : Prop where
  /-- Its patches are the entries that decode on their own, in order. -/
  patch : f.message.patch = o.patch.filterMap PatchOp.ofEntry?
  /-- For each of the other entries there is a fault, in order. -/
  rejected : List.Forall₂ Rejects (o.patch.filter fun j ↦ IsMalformed j) f.rejected
  total : f.message.patch.length + f.rejected.length = o.patch.length
  /-- No timer, or `null`, gives nothing. -/
  untimed : o.timer = none ∨ o.timer = some .null → f.message.timer = none ∧ f.invalidTimer = none
  /-- A directive is decoded. -/
  directed : ∀ (j : Json) (d : TimerDirective), o.timer = some j → d.IsWritten j →
    f.message.timer = some d ∧ f.invalidTimer = none
  /-- Anything else is kept as it is. -/
  mistimed : ∀ j, o.timer = some j → j ≠ .null → (∀ d : TimerDirective, ¬d.IsWritten j) →
    f.message.timer = none ∧ f.invalidTimer = some j
  nodeId : ∀ id, f.message.nodeId = some id ↔ o.nodeId = some (.str id)

/-- Every entry is a patch or is none. -/
theorem length_sortPatches (js : List Json) :
    (sortPatches js).1.length + (sortPatches js).2.length = js.length := by
  induction js with
  | nil => rfl
  | cons j rest ih =>
    rw [sortPatches]
    cases patchOf j <;> simp only [List.length_cons] <;> omega

/-- A frame read from an outline sorts its parts. -/
theorem sorts_ofOutline (o : FrameOutline) : Sorts o (ofOutline o) where
  patch := sortPatches_fst o.patch
  rejected := forall₂_sortPatches o.patch
  total := length_sortPatches o.patch
  untimed := by
    rintro (h | h) <;> exact Prod.mk.inj (congrArg sortTimer h)
  directed j d hj hd := Prod.mk.inj ((congrArg sortTimer hj).trans (sortTimer_of_isWritten hd))
  mistimed j hj hnull hnot :=
    Prod.mk.inj ((congrArg sortTimer hj).trans (sortTimer_of_not_isWritten hnull hnot))
  nodeId _ := nodeIdOf_eq_some

/-- A malformed entry is put in, is taken out, or gives way to another malformed one. -/
inductive Edit : List Json → List Json → Prop
  | insert (front back : List Json) {j : Json} (h : IsMalformed j) :
    Edit (front ++ back) (front ++ j :: back)
  | delete (front back : List Json) {j : Json} (h : IsMalformed j) :
    Edit (front ++ j :: back) (front ++ back)
  | replace (front back : List Json) {j k : Json} (hj : IsMalformed j) (hk : IsMalformed k) :
    Edit (front ++ j :: back) (front ++ k :: back)

/-- A malformed entry contributes no operation, wherever it stands. -/
theorem filterMap_of_isMalformed (front back : List Json) {j : Json} (h : IsMalformed j) :
    (front ++ j :: back).filterMap PatchOp.ofEntry? =
      (front ++ back).filterMap PatchOp.ofEntry? := by
  rw [List.filterMap_append, List.filterMap_append, List.filterMap_cons_none h]

/-- Inserting malformed entries, or taking them out, leaves the operations as they are. -/
theorem Edit.filterMap_eq {js ks : List Json} (h : Edit js ks) :
    ks.filterMap PatchOp.ofEntry? = js.filterMap PatchOp.ofEntry? := by
  cases h with
  | insert front back h => exact filterMap_of_isMalformed front back h
  | delete front back h => exact (filterMap_of_isMalformed front back h).symm
  | replace front back hj hk =>
    exact (filterMap_of_isMalformed front back hk).trans
      (filterMap_of_isMalformed front back hj).symm

/-- **A frame is sorted into what decodes and what does not.** Every text that is an object of
usable fields, with an array of entries or none, has the parts of a frame. A text with such parts
has a frame that sorts them. With the same timer and the same node, another text has the same
directive and node whatever its entries are, and the same frame but for the rejections if a
malformed entry was put in, taken out or replaced. -/
theorem sorts_parts :
    (∀ (text : String) (fields : List (String × Tree)), Tree.ofText? text = some (.obj fields) →
      (Tree.obj fields).usable = true →
      (∀ name ∈ FrameOutline.fieldNames, (Entries.keys fields).count name ≤ 1) →
      (∀ t, fields.lookup "patch" = some t → ∃ ts, t = .arr ts) →
      ∃ o : FrameOutline, o.IsHeldBy text) ∧
    ∀ (text : String) (o : FrameOutline), o.IsHeldBy text →
      ∃ f, ofText? text = some f ∧ Sorts o f ∧
        ∀ (text' : String) (o' : FrameOutline), o'.IsHeldBy text' →
          o'.timer = o.timer → o'.nodeId = o.nodeId →
          ∃ f', ofText? text' = some f' ∧ f'.message.timer = f.message.timer ∧
            f'.message.nodeId = f.message.nodeId ∧ f'.invalidTimer = f.invalidTimer ∧
            (Edit o.patch o'.patch → f' = { f with rejected := f'.rejected }) := by
  constructor
  · intro text fields htext husable honce hpatch
    obtain ⟨o, ho⟩ := FrameOutline.exists_partsOf husable honce hpatch
    exact ⟨o, fields, htext, ho⟩
  · intro text o ho
    refine ⟨ofOutline o, ofText?_of_isHeldBy ho, sorts_ofOutline o, ?_⟩
    intro text' o' ho' htimer hnodeId
    refine ⟨ofOutline o', ofText?_of_isHeldBy ho', ?_⟩
    simp only [ofOutline, htimer, hnodeId, true_and]
    intro hedit
    -- the message has what decodes and no more, and an edit keeps that
    rw [sortPatches_fst, sortPatches_fst, hedit.filterMap_eq]

/-! ### A frame with two bad entries -/

/-- A patch. -/
def late : Json := .obj [("key", .arr [.str "workflow", .str "error"]), ("value", .str "late")]

/-- An entry without a key. -/
def keyless : Json := .obj [("value", .int 3)]

/-- An entry whose key is no path. -/
def misled : Json := .obj [("key", .arr [.str "workflow", .bool true]), ("value", .int 1)]

/-- Some entries beside a timer that is no directive and a node that is no string. -/
def pausing (entries : List Json) : FrameOutline := ⟨entries, some (.str "pause"), some (.int 4)⟩

/-- The fields of an object with these parts and another field. -/
def pausingFields (entries : List Json) : List (String × Json) :=
  [("extra", .obj []), ("timer", .str "pause"), ("patch", .arr entries), ("node_id", .int 4)]

/-- The text of a frame that holds these entries, pauses the timer and names a node. -/
def pausingText (entries : List Json) : String := (Json.obj (pausingFields entries)).text

theorem durable_pausing {entries : List Json} (h : ∀ j ∈ entries, j.Durable) :
    (Json.obj (pausingFields entries)).Durable := by
  refine .obj (show ["extra", "timer", "patch", "node_id"].Nodup by decide) ?_
  simp only [pausingFields, List.forall_mem_cons]
  exact ⟨.obj .nil (List.forall_mem_nil _), .str _, .arr h, .int ⟨by decide, by decide⟩,
    List.forall_mem_nil _⟩

theorem durable_entries : ∀ j ∈ [keyless, late, misled], j.Durable := by
  have hkeyless : keyless.Durable := by
    refine .obj (by decide) ?_
    simp only [List.forall_mem_cons]
    exact ⟨.int ⟨by decide, by decide⟩, List.forall_mem_nil _⟩
  have hlate : late.Durable := by
    refine .obj (by decide) ?_
    simp only [List.forall_mem_cons]
    exact ⟨Json.durable_ofStrings ["workflow", "error"], .str _, List.forall_mem_nil _⟩
  have hmisled : misled.Durable := by
    refine .obj (by decide) ?_
    simp only [List.forall_mem_cons]
    refine ⟨.arr ?_, .int ⟨by decide, by decide⟩, List.forall_mem_nil _⟩
    simp only [List.forall_mem_cons]
    exact ⟨.str _, .bool _, List.forall_mem_nil _⟩
  simp only [List.forall_mem_cons]
  exact ⟨hkeyless, hlate, hmisled, List.forall_mem_nil _⟩

theorem count_pausing (entries : List Json) : ∀ name ∈ FrameOutline.fieldNames,
    (Entries.keys (Tree.ofFields (pausingFields entries))).count name ≤ 1 := by
  rw [Tree.keys_ofFields]
  exact show ∀ name ∈ FrameOutline.fieldNames,
    ["extra", "timer", "patch", "node_id"].count name ≤ 1 by decide

/-- The text of such a frame is read back as its fields. -/
theorem ofText?_pausingText {entries : List Json} (h : ∀ j ∈ entries, j.Durable)
    (hdepth : (Json.obj (pausingFields entries)).depth ≤ Tree.depthLimit) :
    Tree.ofText? (pausingText entries) = some (.obj (Tree.ofFields (pausingFields entries))) :=
  Json.ofText?_text (durable_pausing h) hdepth

/-- Such a text holds the outline it was written from. -/
theorem isHeldBy_pausingText {entries : List Json} (h : ∀ j ∈ entries, j.Durable)
    (hdepth : (Json.obj (pausingFields entries)).depth ≤ Tree.depthLimit) :
    (pausing entries).IsHeldBy (pausingText entries) := by
  have hentries : Tree.itemsToJson? (Tree.ofItems entries) = some entries :=
    Tree.itemsToJson?_ofItems fun j hj ↦ Tree.toJson?_ofJson (h j hj).wellFormed
  exact ⟨_, ofText?_pausingText h hdepth, count_pausing entries, .inr ⟨_, rfl, hentries⟩, rfl, rfl⟩

/-- A frame is sorted with two malformed entries, and nothing but a rejection goes with one of
them. -/
theorem sorts_parts_pausing :
    (∃ o : FrameOutline, o.IsHeldBy (pausingText [keyless, late, misled])) ∧
    (pausing [keyless, late, misled]).IsHeldBy (pausingText [keyless, late, misled]) ∧
    (pausing [keyless, late]).IsHeldBy (pausingText [keyless, late]) ∧
    Edit [keyless, late, misled] [keyless, late] ∧
    ∃ f, ofText? (pausingText [keyless, late, misled]) = some f ∧
      Sorts (pausing [keyless, late, misled]) f ∧
      ∃ f', ofText? (pausingText [keyless, late]) = some f' ∧
      f' = { f with rejected := f'.rejected } := by
  have hsome : ∃ o : FrameOutline, o.IsHeldBy (pausingText [keyless, late, misled]) := by
    refine sorts_parts.1 _ _ (ofText?_pausingText durable_entries (by decide))
      (Tree.usable_ofJson (.obj (pausingFields _))) (count_pausing _) ?_
    rintro t ⟨⟩
    exact ⟨_, rfl⟩
  have hheld := isHeldBy_pausingText durable_entries (by decide)
  have hfewer : (pausing [keyless, late]).IsHeldBy (pausingText [keyless, late]) :=
    isHeldBy_pausingText
    (fun j hj ↦ durable_entries j (List.mem_append_left [misled] hj)) (by decide)
  have hedit : Edit [keyless, late, misled] [keyless, late] :=
    .delete [keyless, late] [] (by decide)
  obtain ⟨f, hf, hsorts, hothers⟩ := sorts_parts.2 _ _ hheld
  obtain ⟨f', hf', -, -, -, hsame⟩ := hothers _ _ hfewer rfl rfl
  exact ⟨hsome, hheld, hfewer, hedit, f, hf, hsorts, f', hf', hsame hedit⟩

end Frame

end GraphSession
