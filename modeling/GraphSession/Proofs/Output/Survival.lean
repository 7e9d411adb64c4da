import GraphSession.Output.Wire
import GraphSession.Proofs.Json.Records

/-!
# Outputs are recovered

A view is recovered from its kind and its content (`OutputView.recovers`). The kind is written
first, so the content is decoded as what it was encoded from; a table has its rows and a file its
size even if there are none, and only the number of all rows may be left out.
-/

namespace GraphSession

open Record Gathered

namespace Table

/-- The cells survive, and the number of rows is one of 64 bits. -/
structure Durable (t : Table) : Prop where
  rows : ∀ row ∈ t.rows, ∀ j ∈ row, j.Durable
  totalRows : ∀ n ∈ t.totalRows, n < Nat.pow 2 64

variable {t : Table}

theorem durable_encode (h : t.Durable) : t.encode.Durable := by
  refine Json.durable_obj (?_ : (Entries.keys _).Sublist ["columns", "rows", "total_rows"])
    (by decide) ?_
  · simp only [Entries.keys, List.map_append]
    exact (List.Sublist.refl ["columns", "rows"]).append (Json.keys_fieldIfSome _ _ _)
  · simp only [List.forall_mem_append, List.forall_mem_cons, Json.forall_mem_fieldIfSome]
    exact ⟨⟨Json.durable_ofStrings t.columns, Json.durable_list fun row hrow ↦
      .arr (h.rows row hrow), nofun⟩, fun n hn ↦ Json.durable_ofNat (h.totalRows n hn)⟩

/-- A row of durable values is read back as it was. -/
theorem row_recovers {row : List Json} (h : ∀ j ∈ row, j.Durable) :
    Recovers .arr (Tree.list Tree.freeForm) row := by
  have hrecovers := Tree.list_recovers fun j hj ↦ Tree.freeForm_recovers (h j hj).wellFormed
  rw [Recovers, List.map_id] at hrecovers
  exact hrecovers

/-- A durable table is read back as it was. -/
theorem recovers (h : t.Durable) : Recovers encode decode t := by
  refine Record.recovered (durable_encode h) (seq_value (seq_value (map_value _ ?columns) ?rows)
    ?totalRows)
  case columns =>
    exact required_of_lookup rfl (Tree.list_recovers fun s _ ↦ Tree.string_recovers s)
  case rows =>
    exact withDefault_of_lookup rfl (Tree.list_recovers fun row hrow ↦
      row_recovers (h.rows row hrow))
  case totalRows =>
    refine optional_of_lookup (fun n hn ↦ Tree.nat64_recovers (h.totalRows n hn)) (fun _ _ ↦ nofun)
      ?_
    simp [List.lookup_cons]

end Table

namespace FileRef

/-- The size is one of 64 bits. -/
def Durable (f : FileRef) : Prop := f.size < Nat.pow 2 64

variable {f : FileRef}

theorem durable_encode (h : f.Durable) : f.encode.Durable := by
  refine Json.durable_obj (List.Sublist.refl ["key", "filename", "size"]) (by decide) ?_
  simp only [List.forall_mem_cons]
  exact ⟨.str _, .str _, Json.durable_ofNat h, nofun⟩

/-- A durable stored file is read back as it was. -/
theorem recovers (h : f.Durable) : Recovers encode decode f := by
  refine Record.recovered (durable_encode h)
    (seq_value (seq_value (map_value _ ?key) ?filename) ?size)
  case key => exact required_of_lookup rfl (Tree.string_recovers f.key)
  case filename => exact required_of_lookup rfl (Tree.string_recovers f.filename)
  case size => exact withDefault_of_lookup rfl (Tree.nat64_recovers h)

end FileRef

namespace OutputView

/-- An integer is one of 64 bits, a float survives, and so does what a table or a file holds. -/
def Durable : OutputView → Prop
  | int n => Tree.IsInt64 n
  | float d => Survives Json.ofDouble Tree.double d
  | str _ | bool _ => True
  | table t => t.Durable
  | file f => f.Durable

variable {v : OutputView}

/-- What a durable view shows is written as a durable value. -/
theorem durable_encodeContent (h : v.Durable) : v.encodeContent.Durable := by
  cases v with
  | int n => exact Json.durable_int64 h
  | float d => exact Json.durable_ofDouble h
  | str s => exact .str s
  | bool b => exact .bool b
  | table t => exact Table.durable_encode h
  | file f => exact FileRef.durable_encode h

/-- A durable view is written as a durable value. -/
theorem durable_encode (h : v.Durable) : v.encode.Durable := by
  refine Json.durable_obj (List.Sublist.refl ["type", "value"]) (by decide) ?_
  simp only [List.forall_mem_cons]
  exact ⟨.str _, durable_encodeContent h, nofun⟩

/-- A content is recovered by its kind. -/
theorem content_recovers (h : v.Durable) : Recovers encodeContent (decodeContent v.kindName) v := by
  cases v with
  | int n =>
    have hn : Tree.int64 (.int n) = .ok n := Tree.int64_recovers h
    exact congrArg (Except.map OutputView.int) hn
  | float d =>
    have hd : Tree.double (Tree.ofJson (.ofDouble d)) = .ok d :=
      Tree.double_recovers (Json.isFinite_of_survives h)
    exact congrArg (Except.map OutputView.float) hd
  | str s => rfl
  | bool b => rfl
  | table t =>
    have ht : Table.decode (Tree.ofJson t.encode) = .ok t := Table.recovers h
    exact congrArg (Except.map OutputView.table) ht
  | file f =>
    have hf : FileRef.decode (Tree.ofJson f.encode) = .ok f := FileRef.recovers h
    exact congrArg (Except.map OutputView.file) hf

/-- A durable view is read back as it was, by its kind and its content. -/
theorem recovers (h : v.Durable) : Recovers encode decode v := by
  have hkind : decodeKind (.str v.kindName) = .ok v.kindName := by cases v <;> rfl
  have hdecode : decode (Tree.ofJson v.encode) = (do
      let kind ← decodeKind (.str v.kindName)
      decodeContent kind (Tree.ofJson v.encodeContent)) := rfl
  rw [Recovers, hdecode, hkind]
  exact content_recovers h

end OutputView

end GraphSession
