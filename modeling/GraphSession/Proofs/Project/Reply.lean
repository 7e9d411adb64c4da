import GraphSession.Project.Submission
import GraphSession.Proofs.Patch.Survival

/-!
# Unions without tags are not confused

Two types are written without a word on which of their shapes it is. The answer to a submission is a
task or a project, and a segment of a path is an index or a key. Reading tries the shapes in order,
so what has to be shown is that nothing of the second shape passes for the first
(`SubmitReply.told_apart`).

**A task is known by its id,** whatever else stands beside it: an object is a task exactly if its
`task_id` is a string (`SubmitReply.decodeTask_eq_some_iff`). No project is written with such a
field. So a project is never taken for a task, and an object that is no task is the answer that it
is as a project, or none.
-/

namespace GraphSession

open Record

namespace SubmitReply

/-- An object is a task by the string under `task_id`. -/
theorem decodeTask_eq_some_iff {fields : List (String × Tree)} (h : (Entries.keys fields).Nodup)
    {id : String} :
    decodeTask (.obj fields) = some id ↔ fields.lookup "task_id" = some (.str id) := by
  have honce : ∀ name ∈ ["task_id"], (Entries.keys fields).count name ≤ 1 := fun name _ ↦
    List.nodup_iff_count_le_one.1 h name
  rw [decodeTask, ofFields_eq honce]
  generalize hr : ofTrees "struct variant SubmitResponse::Task" ["task_id"] fields = r
  have hparts : r.parts = fields := hr ▸ rfl
  have hsurplus : r.surplus = 0 := hr ▸ rfl
  -- other fields are let pass, so the record ends as its only field does
  have hvalue {id : String} (hid : r.required "task_id" Tree.string = .value id) :
      r.finish (r.required "task_id" Tree.string) = .ok id := by
    rw [hid, finish, if_pos hsurplus]
  have hfault {m : Mismatch} (hm : ∃ place, r.required "task_id" Tree.string = .fault place m) :
      r.finish (r.required "task_id" Tree.string) = .error m := by
    obtain ⟨place, hplace⟩ := hm
    rw [hplace, finish]
  rw [← hparts]
  cases hlookup : r.parts.lookup "task_id" with
  | none => simp [hfault ⟨_, fieldOr_of_lookup_eq_none hlookup⟩]
  | some t =>
    cases t with
    | str id' => simp [hvalue (fieldOr_of_lookup hlookup rfl)]
    | null | bool | int | float | arr | obj | unusable =>
      simp [hfault (fieldOr_of_lookup_error hlookup rfl)]

/-- How an object is read: as a task if it has an id, else as the project that it is, and else not
at all. -/
structure Reads (fields : List (String × Tree)) : Prop where
  task : ∀ id, fields.lookup "task_id" = some (.str id) → decode (.obj fields) = .ok (.task id)
  project : (∀ id, fields.lookup "task_id" ≠ some (.str id)) → ∀ p,
    decode (.obj fields) = .ok (.done p) ↔ Project.decode (.obj fields) = .ok p
  neither : (∀ id, fields.lookup "task_id" ≠ some (.str id)) →
    (∀ p, Project.decode (.obj fields) ≠ .ok p) → ∃ m, decode (.obj fields) = .error m

/-- What is no task is decoded as a project. -/
theorem decode_of_decodeTask_eq_none {t : Tree} (husable : t.usable = true)
    (h : decodeTask t = none) :
    decode t = match Project.decode t with
      | .ok p => .ok (.done p)
      | .error _ => .error (.noAlternative "SubmitResponse") := by
  cases hproject : Project.decode t <;> simp only [decode, if_pos husable, h, hproject]

/-- **Every usable object is read as one of the two or as neither.** -/
theorem reads_of_usable {fields : List (String × Tree)} (husable : (Tree.obj fields).usable = true)
    (h : (Entries.keys fields).Nodup) : Reads fields := by
  have hother (hnot : ∀ id, fields.lookup "task_id" ≠ some (.str id)) :=
    decode_of_decodeTask_eq_none husable <| Option.eq_none_iff_forall_ne_some.2 fun id hid ↦
      hnot id ((decodeTask_eq_some_iff h).1 hid)
  constructor
  case task =>
    intro id hid
    rw [decode, if_pos husable, (decodeTask_eq_some_iff h).2 hid]
  case project =>
    intro hnot p
    rw [hother hnot]
    cases Project.decode (.obj fields) <;> simp
  case neither =>
    intro hnot hproject
    rw [hother hnot]
    cases hp : Project.decode (.obj fields) with
    | ok p => exact absurd hp (hproject p)
    | error m => exact ⟨_, rfl⟩

/-- An object that is written is usable. -/
theorem reads_ofFields {fields : List (String × Json)} (h : (Entries.keys fields).Nodup) :
    Reads (Tree.ofFields fields) :=
  reads_of_usable (Tree.usable_ofJson (.obj fields)) (by rwa [Tree.keys_ofFields])

/-- Any id will do for a task; a project is durable on its own account. -/
def Durable : SubmitReply → Prop
  | task _ => True
  | done p => p.Durable

variable {r : SubmitReply}

/-- A durable reply is written as durable JSON. -/
theorem durable_encode (h : r.Durable) : r.encode.Durable := by
  cases r with
  | task id =>
    refine Json.durable_obj (List.Sublist.refl ["task_id"]) (by decide) ?_
    exact List.forall_mem_singleton.2 (.str id)
  | done p => exact Project.durable_encode h

/-- No project has an id of a task. -/
theorem exists_encode_project (p : Project) :
    ∃ fields, p.encode = .obj fields ∧ fields.lookup "task_id" = none := by
  refine ⟨_, rfl, ?_⟩
  simp [List.lookup_append, List.lookup_cons]

/-- Reading what a durable reply was written as gives the reply. -/
theorem recovers (h : r.Durable) : Recovers encode decode r := by
  cases r with
  | task id =>
    have hkeys : (Entries.keys [("task_id", Json.str id)]).Nodup := List.nodup_singleton "task_id"
    exact (reads_ofFields hkeys).task id rfl
  | done p =>
    obtain ⟨fields, hfields, hlookup⟩ := exists_encode_project p
    -- the project reads back, but only after it was not taken for a task
    have hproject : Project.decode (Tree.ofJson p.encode) = .ok p := Project.recovers h
    have hdurable := Project.durable_encode h
    rw [Recovers, encode, hfields]
    rw [hfields] at hproject hdurable
    cases hdurable with
    | obj distinct _ =>
      have hnot (id : String) : (Tree.ofFields fields).lookup "task_id" ≠ some (.str id) := by
        simp [Tree.lookup_ofFields, hlookup]
      exact ((reads_ofFields distinct).project hnot p).2 hproject

end SubmitReply

end GraphSession
