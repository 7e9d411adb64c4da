import GraphSession.Project.Wire
import GraphSession.Proofs.Json.Records
import GraphSession.Proofs.Project.WellFormed

/-!
# Projects are recovered

Whatever a project has in it is recovered from its encoding (`Project.recovers`), and so are the
parts that are read on their own. What has to hold of a value for that (`Durable`) is said of its
leaves only: floats and times survive on their own, and integers are those of 64 bits.
-/

namespace GraphSession

open Record Gathered

/-! ### Leaves -/

/-- A time survives on its own if it is recovered, and only then. -/
theorem Moment.survives_iff {m : Moment} : Survives encode decode m ↔ Recovers encode decode m := by
  constructor
  · rintro ⟨t, ht, hm⟩
    rw [encode, Json.ofText?_text (.str m.text) (Nat.zero_le _)] at ht
    rw [Recovers, encode, Option.some.inj ht]
    exact hm
  · exact fun h ↦ survives_of_recovers h (.str m.text) (Nat.zero_le _)

theorem NodeKind.recovers (k : NodeKind) : Recovers encode decode k := by
  have hname : Tree.choice ofName? (all.map name) (.str k.name) = .ok k := by
    rw [Tree.choice, Tree.choiceName]
    simp only [ofName?_name]
  exact hname

namespace Position

/-- Both coordinates survive on their own. -/
structure Durable (p : Position) : Prop where
  x : Survives Json.ofDouble Tree.double p.x
  y : Survives Json.ofDouble Tree.double p.y

variable {p : Position}

theorem durable_encode (h : p.Durable) : p.encode.Durable := by
  refine Json.durable_obj (List.Sublist.refl ["x", "y"]) (by decide) ?_
  simp only [List.forall_mem_cons]
  exact ⟨Json.durable_ofDouble h.x, Json.durable_ofDouble h.y, nofun⟩

/-- A durable position has finite coordinates. -/
theorem Durable.wellFormed (h : p.Durable) : p.WellFormed fun d ↦ d.isFinite = true :=
  ⟨Json.isFinite_of_survives h.x, Json.isFinite_of_survives h.y⟩

/-- A position is recovered if its coordinates are finite. -/
theorem recovers (h : p.WellFormed fun d ↦ d.isFinite = true) : Recovers encode decode p := by
  have hdistinct : ["x", "y"].Nodup := by decide
  refine Record.recovered_of_distinct hdistinct (seq_value (map_value _ ?x) ?y)
  case x => exact required_of_lookup rfl (Tree.double_recovers h.x)
  case y => exact required_of_lookup rfl (Tree.double_recovers h.y)

end Position

/-! ### Faults -/

namespace NameSet

/-- A name that comes before all others is placed in front. -/
theorem place_of_forall_lt {s : String} {l : List String} (h : ∀ t ∈ l, s < t) :
    place s l = s :: l := by
  cases l with
  | nil => rfl
  | cons t l => exact if_pos (h t List.mem_cons_self)

/-- A set is built from its names. -/
theorem ofList_toList (n : NameSet) : ofList n.toList = n := by
  obtain ⟨names, ascending⟩ := n
  induction names with
  | nil => rfl
  | cons s names ih =>
    obtain ⟨hlt, hnames⟩ := List.pairwise_cons.1 ascending
    have hrest : ofList names = ⟨names, hnames⟩ := ih hnames
    have hcons : ofList (s :: names) = (ofList names).insert s := rfl
    rw [toList, hcons, hrest, insert]
    simp only [place_of_forall_lt hlt]

end NameSet

namespace NodeFault

theorem durable_encode (f : NodeFault) : f.encode.Durable := by
  cases f with
  | validation ports messages =>
    refine Json.durable_obj (List.Sublist.refl ["type", "ports", "messages"]) (by decide) ?_
    simp only [List.forall_mem_cons]
    exact ⟨.str _, Json.durable_ofStrings _, Json.durable_ofStrings _, nofun⟩
  | parameter messages | execution messages =>
    refine Json.durable_obj (List.Sublist.refl ["type", "messages"]) (by decide) ?_
    simp only [List.forall_mem_cons]
    exact ⟨.str _, Json.durable_ofStrings _, nofun⟩

/-- A fault is never written as `null`, so that it is told from its absence. -/
theorem encode_ne_null (f : NodeFault) : f.encode ≠ .null := by
  cases f <;> nofun

/-- A fault is decoded from the fields of its variant. -/
theorem decode_of_ofParts {variant : String} {fields : List (String × Json)} {f : NodeFault}
    (hvariant : variant ∈ variantNames) (h : (Json.obj (("type", .str variant) :: fields)).Durable)
    (hparts : ofParts variant (Record.ofJson "struct variant" (fieldsOf variant) fields) = .ok f) :
    decode (Tree.ofJson (.obj (("type", .str variant) :: fields))) = .ok f := by
  have husable := Tree.usable_ofJson (.obj (("type", .str variant) :: fields))
  cases h with
  | obj distinct hfields =>
    obtain ⟨hnot, hrest⟩ := List.nodup_cons.1 distinct
    -- the tag is found once, and the other fields are all others
    have hne : ∀ part ∈ Tree.ofFields fields, part.1 ≠ "type" := by
      rw [Tree.ofFields_eq]
      intro part hpart
      obtain ⟨field, hfield, rfl⟩ := List.mem_map.1 hpart
      intro htype
      have hkey : field.1 ∈ Entries.keys fields := List.mem_map_of_mem hfield
      rw [show field.1 = "type" from htype] at hkey
      exact hnot hkey
    have htags : ((("type", .str variant) :: Tree.ofFields fields).filter
        fun part ↦ part.1 = "type").length = 1 := by
      rw [List.filter_cons, if_pos (decide_eq_true rfl),
        List.filter_eq_nil_iff.2 (by simpa using hne)]
      rfl
    have hothers : (("type", .str variant) :: Tree.ofFields fields).filter
        (fun part ↦ part.1 ≠ "type") = Tree.ofFields fields := by
      rw [List.filter_cons, if_neg (by simp), List.filter_eq_self.2 (by simpa using hne)]
    have hrecord : Record.ofFields "struct variant" (fieldsOf variant) (Tree.ofFields fields) =
        .ok (Record.ofJson "struct variant" (fieldsOf variant) fields) :=
      Tree.record_ofJson hrest
    have htag : decodeVariant (.str variant) = .ok variant := if_pos hvariant
    unfold decode
    rw [if_pos husable]
    simp only [Tree.ofJson, Tree.ofFields, htags, Nat.lt_irrefl, if_false, List.lookup_cons_self,
      htag, hothers, bind, Except.bind, hrecord, hparts]

theorem strings_recovers (ss : List String) : Recovers .ofStrings (Tree.list Tree.string) ss :=
  Tree.list_recovers fun s _ ↦ Tree.string_recovers s

/-- A set of ports survives as the array of its names. -/
theorem ports_recovers (ports : NameSet) : Recovers (fun ports ↦ .ofStrings ports.toList)
    (fun t ↦ (Tree.list Tree.string t).map NameSet.ofList) ports := by
  have hnames := strings_recovers ports.toList
  rw [Recovers] at hnames ⊢
  rw [hnames, Except.map, NameSet.ofList_toList]

/-- Every fault survives. -/
theorem recovers (f : NodeFault) : Recovers encode decode f := by
  have hdurable := durable_encode f
  cases f with
  | validation ports messages =>
    refine decode_of_ofParts (by decide) hdurable ?_
    rw [ofParts, if_pos rfl]
    dsimp only
    rw [seq_value (map_value NodeFault.validation
      (withDefault_of_lookup rfl (ports_recovers ports)))
      (withDefault_of_lookup rfl (strings_recovers messages))]
    rfl
  | parameter messages =>
    refine decode_of_ofParts (by decide) hdurable ?_
    rw [ofParts, if_neg (by decide), if_pos rfl,
      map_value _ (withDefault_of_lookup rfl (strings_recovers messages))]
    rfl
  | execution messages =>
    refine decode_of_ofParts (by decide) hdurable ?_
    rw [ofParts, if_neg (by decide), if_neg (by decide), if_pos rfl,
      map_value _ (withDefault_of_lookup rfl (strings_recovers messages))]
    rfl

end NodeFault

/-! ### Nodes and edges -/

/-- Every map of handles survives. -/
theorem handles_recovers (m : OrderedMap DataHandle) : Recovers encodeHandles decodeHandles m :=
  Tree.map_recovers fun e _ ↦ Tree.string_recovers e.2

theorem durable_encodeHandles (m : OrderedMap DataHandle) : (encodeHandles m).Durable := by
  refine Json.durable_ofMap ?_
  rw [OrderedMap.map, List.forall_mem_map]
  exact fun e _ ↦ .str e.2

/-- A finite number is never written as `null`. -/
theorem Json.ofDouble_ne_null {d : Double} (h : d.isFinite = true) : ofDouble d ≠ .null := by
  rw [ofDouble, if_pos h]
  intro hnull
  cases hnull

namespace Node

/-- What a node holds of numbers survives on its own. -/
structure Durable (n : Node) : Prop where
  position : n.position.Durable
  param : ∀ e ∈ n.param.entries, e.2.Durable
  runtime : ∀ d ∈ n.runtime, Survives Json.ofDouble Tree.double d
  schemaOut : ∀ m ∈ n.schemaOut, ∀ e ∈ m.entries, e.2.Durable

variable {n : Node}

/-- The fields that a node is written with. -/
def fields (n : Node) : List (String × Json) :=
  [("id", .str n.id), ("type", n.kind.encode), ("position", n.position.encode),
    ("param", .ofMap n.param)] ++
  Json.fieldIfSome "runtime" .ofDouble n.runtime ++
  Json.fieldIfSome "schema_out" .ofMap n.schemaOut ++
  Json.fieldIfSome "data_out" encodeHandles n.dataOut ++
  Json.fieldIfSome "error" NodeFault.encode n.fault

/-- The fields of a node are in the order of the field names, each at most once. -/
theorem keys_fields (n : Node) : (Entries.keys n.fields).Sublist fieldNames := by
  simp only [fields, Entries.keys, List.map_append]
  exact ((((List.Sublist.refl ["id", "type", "position", "param"]).append
    (Json.keys_fieldIfSome _ _ _)).append (Json.keys_fieldIfSome _ _ _)).append
    (Json.keys_fieldIfSome _ _ _)).append (Json.keys_fieldIfSome _ _ _)

theorem durable_encode (h : n.Durable) : n.encode.Durable := by
  change (Json.obj n.fields).Durable
  refine Json.durable_obj n.keys_fields (by decide) ?_
  simp only [fields, List.forall_mem_append, List.forall_mem_cons, Json.forall_mem_fieldIfSome]
  exact ⟨⟨⟨⟨⟨.str _, .str _, Position.durable_encode h.position, Json.durable_ofMap h.param, nofun⟩,
    fun d hd ↦ Json.durable_ofDouble (h.runtime d hd)⟩,
    fun m hm ↦ Json.durable_ofMap (h.schemaOut m hm)⟩,
    fun m _ ↦ durable_encodeHandles m⟩, fun f _ ↦ NodeFault.durable_encode f⟩

/-- What is durable is well formed, with every number finite. -/
theorem Durable.wellFormed (h : n.Durable) : n.WellFormed fun d ↦ d.isFinite = true where
  position := h.position.wellFormed
  param e he := (h.param e he).wellFormed
  runtime d hd := Json.isFinite_of_survives (h.runtime d hd)
  schemaOut m hm e he := (h.schemaOut m hm e he).wellFormed

/-- A node is recovered if its floats are finite. -/
theorem recovers (h : n.WellFormed fun d ↦ d.isFinite = true) : Recovers encode decode n := by
  have hdistinct : (Entries.keys n.fields).Nodup := n.keys_fields.nodup (by decide)
  refine Record.recovered_of_distinct hdistinct
    (seq_value (seq_value (seq_value (seq_value (seq_value (seq_value (seq_value
      (map_value _ ?id) ?kind) ?position) ?param) ?runtime) ?schemaOut) ?dataOut) ?fault)
  case id => exact required_of_lookup rfl (Tree.string_recovers n.id)
  case kind => exact required_of_lookup rfl (NodeKind.recovers n.kind)
  case position => exact required_of_lookup rfl (Position.recovers h.position)
  case param => exact withDefault_of_lookup rfl (Tree.freeMap_recovers h.param)
  case runtime =>
    refine optional_of_lookup (fun d hd ↦ Tree.double_recovers (h.runtime d hd))
      (fun d hd ↦ Json.ofDouble_ne_null (h.runtime d hd)) ?_
    simp [List.lookup_append, List.lookup_cons]
  case schemaOut =>
    refine optional_of_lookup (fun m hm ↦ Tree.freeMap_recovers (h.schemaOut m hm))
      (fun _ _ ↦ nofun) ?_
    simp [List.lookup_append, List.lookup_cons]
  case dataOut =>
    refine optional_of_lookup (fun m _ ↦ handles_recovers m) (fun _ _ ↦ nofun) ?_
    simp [List.lookup_append, List.lookup_cons]
  case fault =>
    refine optional_of_lookup (fun f _ ↦ NodeFault.recovers f)
      (fun f _ ↦ NodeFault.encode_ne_null f) ?_
    simp [List.lookup_append, List.lookup_cons]

end Node

namespace Edge

theorem durable_encode (e : Edge) : e.encode.Durable := by
  refine Json.durable_obj (List.Sublist.refl ["id", "src", "src_port", "tar", "tar_port"])
    (by decide) ?_
  simp only [List.forall_mem_cons]
  exact ⟨.str _, .str _, .str _, .str _, .str _, nofun⟩

theorem recovers (e : Edge) : Recovers encode decode e := by
  refine Record.recovered (durable_encode e) (seq_value (seq_value (seq_value (seq_value
    (map_value _ ?id) ?source) ?sourcePort) ?target) ?targetPort)
  all_goals exact required_of_lookup rfl (Tree.string_recovers _)

end Edge

/-! ### Workflows and projects -/

namespace Workflow

/-- Everything that its nodes hold is. -/
def Durable (w : Workflow) : Prop := ∀ n ∈ w.nodes, n.Durable

variable {w : Workflow}

theorem durable_encode (h : w.Durable) : w.encode.Durable := by
  refine Json.durable_obj (?_ : (Entries.keys _).Sublist ["nodes", "edges", "error"]) (by decide) ?_
  · simp only [Entries.keys, List.map_append]
    exact (List.Sublist.refl ["nodes", "edges"]).append (Json.keys_fieldIfSome _ _ _)
  · simp only [List.forall_mem_append, List.forall_mem_cons, Json.forall_mem_fieldIfSome]
    exact ⟨⟨Json.durable_list fun n hn ↦ Node.durable_encode (h n hn),
      Json.durable_list fun e _ ↦ Edge.durable_encode e, nofun⟩, fun s _ ↦ .str s⟩

/-- A durable workflow survives. -/
theorem recovers (h : w.Durable) : Recovers encode decode w := by
  refine Record.recovered (durable_encode h)
    (seq_value (seq_value (map_value _ ?nodes) ?edges) ?error)
  case nodes =>
    exact withDefault_of_lookup rfl (Tree.list_recovers fun n hn ↦
      Node.recovers (h n hn).wellFormed)
  case edges => exact withDefault_of_lookup rfl (Tree.list_recovers fun e _ ↦ Edge.recovers e)
  case error =>
    refine optional_of_lookup (fun s _ ↦ Tree.string_recovers s) (fun _ _ ↦ nofun) ?_
    simp [List.lookup_cons]

end Workflow

namespace Project

/-- The numbers are those of 64 bits, the time survives on its own, and so does what the workflow
holds. -/
structure Durable (p : Project) : Prop where
  id : Tree.IsInt64 p.id
  owner : Tree.IsInt64 p.owner
  updatedAt : Survives Moment.encode Moment.decode p.updatedAt
  workflow : p.workflow.Durable

variable {p : Project}

theorem durable_encode (h : p.Durable) : p.encode.Durable := by
  refine Json.durable_obj
    (?_ : (Entries.keys _).Sublist ["id", "name", "owner", "updated_at", "thumb", "workflow"])
    (by decide) ?_
  · simp only [Entries.keys, List.map_append]
    exact ((List.Sublist.refl ["id", "name", "owner", "updated_at"]).append
      (Json.keys_fieldIfSome _ _ _)).append (List.Sublist.refl ["workflow"])
  · simp only [List.forall_mem_append, List.forall_mem_cons, Json.forall_mem_fieldIfSome]
    exact ⟨⟨⟨Json.durable_int64 h.id, .str _, Json.durable_int64 h.owner, .str _, nofun⟩,
      fun s _ ↦ .str s⟩, Workflow.durable_encode h.workflow, nofun⟩

/-- A durable project survives. -/
theorem recovers (h : p.Durable) : Recovers encode decode p := by
  refine Record.recovered (durable_encode h) (seq_value (seq_value (seq_value (seq_value (seq_value
    (map_value _ ?id) ?name) ?owner) ?updatedAt) ?thumbnail) ?workflow)
  case id => exact required_of_lookup rfl (Tree.int64_recovers h.id)
  case name => exact required_of_lookup rfl (Tree.string_recovers p.name)
  case owner => exact required_of_lookup rfl (Tree.int64_recovers h.owner)
  case updatedAt => exact required_of_lookup rfl (Moment.survives_iff.1 h.updatedAt)
  case thumbnail =>
    refine optional_of_lookup (fun s _ ↦ Tree.string_recovers s) (fun _ _ ↦ nofun) ?_
    simp [List.lookup_append, List.lookup_cons]
  case workflow =>
    refine withDefault_of_lookup ?_ (Workflow.recovers h.workflow)
    simp [List.lookup_append, List.lookup_cons]

end Project

namespace ProjectSummary

/-- The number is one of 64 bits, and the time survives on its own. -/
structure Durable (p : ProjectSummary) : Prop where
  id : Tree.IsInt64 p.id
  updatedAt : Survives Moment.encode Moment.decode p.updatedAt

variable {p : ProjectSummary}

theorem durable_encode (h : p.Durable) : p.encode.Durable := by
  refine Json.durable_obj (?_ : (Entries.keys _).Sublist ["id", "name", "updated_at", "thumb"])
    (by decide) ?_
  · simp only [Entries.keys, List.map_append]
    exact (List.Sublist.refl ["id", "name", "updated_at"]).append (Json.keys_fieldIfSome _ _ _)
  · simp only [List.forall_mem_append, List.forall_mem_cons, Json.forall_mem_fieldIfSome]
    exact ⟨⟨Json.durable_int64 h.id, .str _, .str _, nofun⟩, fun s _ ↦ .str s⟩

/-- Reading what a durable value was written as gives the value. -/
theorem recovers (h : p.Durable) : Recovers encode decode p := by
  refine Record.recovered (durable_encode h)
    (seq_value (seq_value (seq_value (map_value _ ?id) ?name) ?updatedAt) ?thumbnail)
  case id => exact required_of_lookup rfl (Tree.int64_recovers h.id)
  case name => exact required_of_lookup rfl (Tree.string_recovers p.name)
  case updatedAt => exact required_of_lookup rfl (Moment.survives_iff.1 h.updatedAt)
  case thumbnail =>
    refine optional_of_lookup (fun s _ ↦ Tree.string_recovers s) (fun _ _ ↦ nofun) ?_
    simp [List.lookup_cons]

end ProjectSummary

end GraphSession
