import GraphSession.Proofs.Text.Cutting
import GraphSession.Proofs.Text.Percent
import GraphSession.Url.Basic

/-!
# Pairs of a query

A query is read as the pairs of a form (`Url.pairs`): pieces between ampersands, each one cut at its
first equals sign, and what is empty is no piece. A pair that is added comes last and is read back
as it was (`Url.pairs_addPair`), since neither mark stands for itself in a value; what was there
before stays as it is.
-/

namespace GraphSession

/-! ### Reading a form -/

/-- The text that a value of a form stands for. -/
def formText (cs : List Char) : String :=
  String.ofList (Utf8.decodeLossy (Percent.decode ((Utf8.encode cs).map Percent.unplus)))

/-- The pair in a piece of a form; without an equals sign the value is empty. -/
def formPair (piece : List Char) : String × String :=
  let r := Text.cutAt '=' piece
  (formText r.1, formText (r.2.getD []))

/-- The pairs of a form, in order. -/
def formPairs (cs : List Char) : List (String × String) :=
  ((Text.splitAt '&' cs).filter (· ≠ [])).map formPair

/-- The pairs of the query. -/
def Url.pairs (u : Url) : List (String × String) := formPairs (u.query.getD "").toList

/-- A value that is written into a form is read back from it. -/
theorem formText_formValue (s : String) : formText (Percent.formValue s) = s := by
  rw [formText, Percent.decode_formValue, Utf8.bytesOf, Utf8.decodeLossy_encode,
    String.ofList_toList]

/-- A pair as it is written into a form. -/
def writtenPair (name value : String) : List Char :=
  Percent.formValue name ++ '=' :: Percent.formValue value

/-- A pair that is written into a form is read back from it. -/
theorem formPair_writtenPair (name value : String) :
    formPair (writtenPair name value) = (name, value) := by
  have hname : '=' ∉ Percent.formValue name := fun h ↦ Percent.not_mem_formValue h (by decide)
  rw [formPair, writtenPair, Text.cutAt_append_cons hname]
  dsimp only
  rw [formText_formValue, Option.getD_some, formText_formValue]

theorem ampersand_not_mem_writtenPair (name value : String) : '&' ∉ writtenPair name value := by
  rw [writtenPair, List.mem_append, List.mem_cons]
  rintro (h | h | h)
  · exact Percent.not_mem_formValue h (by decide)
  · exact absurd h (by decide)
  · exact Percent.not_mem_formValue h (by decide)

/-- Pairs are read between the ampersands. -/
theorem formPairs_append (cs cs' : List Char) :
    formPairs (cs ++ '&' :: cs') = formPairs cs ++ formPairs cs' := by
  rw [formPairs, Text.splitAt, Text.split_append_cons (decide_eq_true rfl), List.filter_append,
    List.map_append]
  rfl

/-- A pair that is written alone is read back alone. -/
theorem formPairs_writtenPair (name value : String) :
    formPairs (writtenPair name value) = [(name, value)] := by
  have hpiece : Text.splitAt '&' (writtenPair name value) = [writtenPair name value] :=
    Text.split_of_forall fun c hc ↦ decide_eq_false
      (ne_of_mem_of_not_mem hc (ampersand_not_mem_writtenPair name value))
  have hne : writtenPair name value ≠ [] :=
    List.append_ne_nil_of_right_ne_nil _ (List.cons_ne_nil _ _)
  rw [formPairs, hpiece, List.filter_singleton, decide_eq_true hne]
  exact congrArg ([·]) (formPair_writtenPair name value)

/-- What the query is after a pair has been added. -/
theorem Url.query_addPair (u : Url) (name value : String) :
    ((u.addPair name value).query.getD "").toList =
      if u.query.getD "" = "" then writtenPair name value
      else (u.query.getD "").toList ++ '&' :: writtenPair name value := by
  rw [addPair]
  cases hquery : u.query with
  | none => exact String.toList_ofList
  | some q =>
    dsimp only [Option.getD_some]
    by_cases hempty : q = ""
    · rw [if_pos hempty, if_pos (String.isEmpty_iff.2 hempty)]
      exact String.toList_ofList
    · rw [if_neg hempty, if_neg (mt String.isEmpty_iff.1 hempty), String.toList_append,
        String.toList_append, List.append_assoc]
      exact congrArg (q.toList ++ '&' :: ·) String.toList_ofList

/-- **A pair that is added comes last**, and is read back as it was. -/
theorem Url.pairs_addPair (u : Url) (name value : String) :
    (u.addPair name value).pairs = u.pairs ++ [(name, value)] := by
  rw [pairs, query_addPair, pairs]
  split_ifs with hempty
  · rw [formPairs_writtenPair, hempty]
    rfl
  · rw [formPairs_append, formPairs_writtenPair]

/-- What was in the query before stays in front. -/
theorem Url.query_prefix_addPair (u : Url) (name value : String) :
    (u.query.getD "").toList <+: ((u.addPair name value).query.getD "").toList := by
  rw [query_addPair]
  split_ifs with hempty
  · rw [hempty]
    exact List.nil_prefix
  · exact List.prefix_append _ _

end GraphSession
