import GraphSession.Proofs.Json.Floats
import GraphSession.Proofs.Json.Strings

/-!
# Values are read as they were written

The text of a value is read as that value (`ofText?_text`), if it is not nested too deeply and its
numbers can be read at all (`Durable`). What is read has the same parts in the same order, down to
the last field.

**A value ends where its text ends,** whatever may follow it there (`ReadsBack`). That is what
carries the induction: an item of an array is followed by a comma or by the closing bracket, and is
read as if it stood alone.
-/

namespace GraphSession

namespace Json

/-- What a text can hold of a value: integers of 64 bits, floats that survive on their own, and
objects in which no name repeats. -/
inductive Durable : Json → Prop
  | null : Durable .null
  | bool (b : Bool) : Durable (.bool b)
  | int {n : Int} (h : InReach n) : Durable (.int n)
  | float {d : Double} (h : Survives ofDouble Tree.double d) : Durable (.float d)
  | str (s : String) : Durable (.str s)
  | arr {items : List Json} (h : ∀ j ∈ items, Durable j) : Durable (.arr items)
  | obj {fields : List (String × Json)} (distinct : (Entries.keys fields).Nodup)
      (h : ∀ f ∈ fields, Durable f.2) : Durable (.obj fields)

/-- A value is read as it was written, whatever may follow it in a text. -/
def ReadsBack (j : Json) : Prop :=
  ∀ ⦃fuel depth rest⦄, 2 * j.write.length ≤ fuel → depth + j.depth ≤ Tree.depthLimit → Stops rest →
    Tree.readValue fuel depth (j.write ++ rest) = some (Tree.ofJson j, rest)

variable {cs rest : List Char} {fuel depth : Nat}

/-! ### Scalars -/

/-- A number begins with a digit, or with a sign. -/
theorem head_of_readNumeral {r : Numeral × List Char} (h : readNumeral cs = some r) :
    ∃ c cs', cs = c :: cs' ∧ (c = '-' ∨ c.isDigit = true) := by
  rcases cs with _ | ⟨c, cs⟩
  · cases h
  refine ⟨c, cs, rfl, ?_⟩
  by_contra hnot
  obtain ⟨hminus, hdigit⟩ := not_or.1 hnot
  have hwhole : readWhole (c :: cs) = none := by
    rw [readWhole, readDigits_cons, if_neg hdigit]
  rw [readNumeral, readUnsigned, hwhole] at h
  · cases h
  · rintro rest ⟨⟩
    exact hminus rfl

end Json

namespace Tree

variable {cs rest : List Char} {fuel depth : Nat}

/-- A number is read as a value. -/
theorem readValue_of_numeral {n : Numeral} (h : Json.readNumeral cs = some (n, rest)) :
    readValue (fuel + 1) depth cs = some (ofNumeral n, rest) := by
  obtain ⟨c, cs, rfl, hc⟩ := Json.head_of_readNumeral h
  have hgap : Json.isGap c = false := by
    rcases hc with rfl | hc
    · rfl
    · exact Json.isGap_of_isDigit hc
  unfold readValue
  rw [Json.skipGap_eq_self (by simpa using hgap)]
  -- no other value begins like a number
  split
  case h_7 => rw [h, Option.map_some]
  all_goals
    rename_i heq
    obtain ⟨rfl, -⟩ := List.cons.inj heq
    simp at hc

/-- After a quote a string is read. -/
theorem readValue_quote (cs : List Char) : readValue (fuel + 1) depth ('\x22' :: cs) =
    (Json.readString cs).map fun r ↦ (ofString? r.1, r.2) := rfl

/-- After a bracket items are read, if there are any. -/
theorem readValue_bracket (h : ∀ rest, Json.skipGap cs ≠ ']' :: rest) :
    readValue (fuel + 1) depth ('[' :: cs) =
      (readItems fuel (depth + 1) cs).map fun r ↦ (arrayAt depth r.1, r.2) := by
  have hbracket : Json.skipGap ('[' :: cs) = '[' :: cs := rfl
  simp only [readValue, hbracket]

/-- After a brace fields are read, if there are any. -/
theorem readValue_brace (h : ∀ rest, Json.skipGap cs ≠ '\x7d' :: rest) :
    readValue (fuel + 1) depth ('\x7b' :: cs) =
      (readFields fuel (depth + 1) cs).map fun r ↦ (objectAt depth r.1, r.2) := by
  have hbrace : Json.skipGap ('\x7b' :: cs) = '\x7b' :: cs := rfl
  simp only [readValue, hbrace]

/-- After a comma another element is read. -/
theorem readItems_of_comma {t : Tree} (h : readValue fuel depth cs = some (t, ',' :: rest)) :
    readItems (fuel + 1) depth cs = (readItems fuel depth rest).map fun r ↦ (t :: r.1, r.2) := by
  rw [readItems, h]
  rfl

/-- A bracket ends a list. -/
theorem readItems_of_close {t : Tree} (h : readValue fuel depth cs = some (t, ']' :: rest)) :
    readItems (fuel + 1) depth cs = some ([t], rest) := by
  rw [readItems, h]
  rfl

/-- After a comma another field is read. -/
theorem readFields_of_comma {name : Option String} {t : Tree} {tail : List Char}
    (hname : Json.readString cs = some (name, ':' :: tail))
    (h : readValue fuel depth tail = some (t, ',' :: rest)) :
    readFields (fuel + 1) depth ('\x22' :: cs) =
      (readFields fuel depth rest).map fun r ↦ ((name, t) :: r.1, r.2) := by
  have hquote : Json.skipGap ('\x22' :: cs) = '\x22' :: cs := rfl
  have hcolon : Json.skipGap (':' :: tail) = ':' :: tail := rfl
  have hcomma : Json.skipGap (',' :: rest) = ',' :: rest := rfl
  simp only [readFields, hquote, hname, hcolon, h, hcomma]

/-- A brace ends an object. -/
theorem readFields_of_close {name : Option String} {t : Tree} {tail : List Char}
    (hname : Json.readString cs = some (name, ':' :: tail))
    (h : readValue fuel depth tail = some (t, '\x7d' :: rest)) :
    readFields (fuel + 1) depth ('\x22' :: cs) = some ([(name, t)], rest) := by
  have hquote : Json.skipGap ('\x22' :: cs) = '\x22' :: cs := rfl
  have hcolon : Json.skipGap (':' :: tail) = ':' :: tail := rfl
  have hclose : Json.skipGap ('\x7d' :: rest) = '\x7d' :: rest := rfl
  simp only [readFields, hquote, hname, hcolon, h, hclose]

/-- No value begins with a closing bracket. -/
theorem readValue_of_close (h : Json.skipGap cs = ']' :: rest) :
    readValue fuel depth cs = none := by
  cases fuel with
  | zero => rfl
  | succ fuel =>
    unfold readValue
    rw [h]
    rfl

/-- No value is written as something that nobody can use. -/
theorem isUnusable_ofJson (j : Json) : (ofJson j).isUnusable = false := by
  cases j <;> rfl

theorem ofItems_eq (items : List Json) : ofItems items = items.map ofJson := by
  induction items with
  | nil => rfl
  | cons j rest ih => rw [ofItems, ih, List.map_cons]

theorem ofFields_eq (fields : List (String × Json)) :
    ofFields fields = fields.map fun f ↦ (f.1, ofJson f.2) := by
  induction fields with
  | nil => rfl
  | cons f rest ih => rw [ofFields, ih, List.map_cons]

/-- Elements within reach are gathered to a list. -/
theorem arrayAt_ofItems (hdepth : depth < depthLimit) (items : List Json) :
    arrayAt depth (ofItems items) = .arr (ofItems items) := by
  have hany : (ofItems items).any isUnusable = false := by
    rw [ofItems_eq, List.any_map, List.any_eq_false]
    exact fun j _ ↦ by simp [isUnusable_ofJson]
  rw [arrayAt, if_pos ⟨hdepth, by rw [hany]; rfl⟩]

/-- Fields whose names could be read are fields. -/
theorem namedFields_ofFields (fields : List (String × Tree)) :
    namedFields? (fields.map fun f ↦ (some f.1, f.2)) = some fields := by
  induction fields with
  | nil => rfl
  | cons f rest ih => rw [List.map_cons, namedFields?, ih, Option.map_some]

/-- Fields within reach are gathered to an object. -/
theorem objectAt_ofFields (hdepth : depth < depthLimit) (fields : List (String × Tree)) :
    objectAt depth (fields.map fun f ↦ (some f.1, f.2)) = .obj fields := by
  rw [objectAt, namedFields_ofFields]
  exact if_pos hdepth

end Tree

namespace Json

/-- A float survives on its own if its text is a numeral that means it, and only then. -/
theorem survives_double_iff {d : Double} : Survives ofDouble Tree.double d ↔
    d.isFinite = true ∧ ∃ n, readNumeral d.text = some (n, []) ∧ Tree.ofNumeral n = .float d := by
  refine ⟨readNumeral_text, ?_⟩
  rintro ⟨hfinite, n, hread, hn⟩
  refine ⟨.float d, ?_, rfl⟩
  rw [ofDouble, if_pos hfinite, text, write, Tree.ofText?, String.toList_ofList, Tree.ofChars?,
    Tree.readValue_of_numeral hread, hn]
  rfl

/-- A value is read back if it is a text that is read as it, whatever follows. -/
theorem readsBack_scalar {j : Json} {c : Char} {tail : List Char} (hwrite : j.write = c :: tail)
    (h : ∀ {fuel depth rest}, Stops rest →
      Tree.readValue (fuel + 1) depth (c :: tail ++ rest) = some (Tree.ofJson j, rest)) :
      ReadsBack j := by
  intro fuel depth rest hfuel hdepth hrest
  rw [hwrite] at hfuel ⊢
  obtain ⟨fuel, rfl⟩ := Nat.exists_eq_succ_of_ne_zero (show fuel ≠ 0 by simp at hfuel; omega)
  exact h hrest

/-- A numeral is read back as what it stands for. -/
theorem readsBack_numeral {j : Json} {n : Numeral} (h : readNumeral j.write = some (n, []))
    (hn : Tree.ofNumeral n = Tree.ofJson j) : ReadsBack j := by
  obtain ⟨c, tail, hwrite, -⟩ := head_of_readNumeral h
  refine readsBack_scalar hwrite fun hrest ↦ ?_
  rw [← hwrite, ← hn]
  exact Tree.readValue_of_numeral ((forward_readNumeral h).2 _ hrest)

theorem readsBack_null : ReadsBack .null := readsBack_scalar rfl fun _ ↦ rfl

theorem readsBack_bool (b : Bool) : ReadsBack (.bool b) := by
  cases b <;> exact readsBack_scalar rfl fun _ ↦ rfl

/-- An integer is read back if it is within reach. -/
theorem readsBack_int {n : Int} (hn : InReach n) : ReadsBack (.int n) :=
  readsBack_numeral (readNumeral_writeInt n) (ofNumeral_of_inReach hn)

/-- A float is read back if its digits are read as that float. -/
theorem readsBack_float {d : Double} (hd : Survives ofDouble Tree.double d) :
    ReadsBack (.float d) := by
  obtain ⟨-, n, hread, hn⟩ := readNumeral_text hd
  exact readsBack_numeral hread hn

/-- A text is read back, whatever characters it has. -/
theorem readsBack_str (s : String) : ReadsBack (.str s) := by
  refine readsBack_scalar rfl fun {fuel depth rest} _ ↦ ?_
  rw [List.cons_append, List.append_assoc, Tree.readValue_quote]
  simp only [List.cons_append, List.nil_append, readString_writeString, Option.map_some]
  rfl

/-! ### Arrays -/

/-- Between elements there is what stops a numeral. -/
theorem stops_writeMoreItems (items : List Json) (rest : List Char) :
    Stops (writeMoreItems items ++ rest) := by
  cases items with
  | nil => exact stops_cons (by decide) _
  | cons j items => exact stops_cons (by decide) _

/-- An item is not nested deeper than its array. -/
theorem depth_le_depthOfItems {items : List Json} {j : Json} (hj : j ∈ items) :
    j.depth ≤ depthOfItems items := by
  induction items with
  | nil => cases hj
  | cons i items ih =>
    rw [depthOfItems]
    rcases List.mem_cons.1 hj with rfl | hj
    · exact Nat.le_max_left _ _
    · exact Nat.le_trans (ih hj) (Nat.le_max_right _ _)

/-- The items of an array are read one after the other. -/
theorem readItems_write {level : Nat} {j : Json} {items : List Json}
    (hread : ∀ i ∈ j :: items, ReadsBack i)
    (hfuel : 2 * (j.write ++ writeMoreItems items).length ≤ fuel)
    (hlevel : level + depthOfItems (j :: items) ≤ Tree.depthLimit) :
    Tree.readItems fuel level (j.write ++ (writeMoreItems items ++ rest)) =
      some (Tree.ofItems (j :: items), rest) := by
  induction items generalizing j fuel with
  | nil =>
    rw [List.length_append, writeMoreItems, List.length_singleton] at hfuel
    obtain ⟨fuel, rfl⟩ := Nat.exists_eq_succ_of_ne_zero (show fuel ≠ 0 by omega)
    have hdepth := depth_le_depthOfItems (List.mem_singleton_self j)
    have hfirst := hread j List.mem_cons_self (show 2 * j.write.length ≤ fuel by omega)
      (show level + j.depth ≤ _ by omega) (stops_writeMoreItems [] rest)
    exact Tree.readItems_of_close hfirst
  | cons i items ih =>
    rw [List.length_append, writeMoreItems, List.length_cons] at hfuel
    obtain ⟨fuel, rfl⟩ := Nat.exists_eq_succ_of_ne_zero (show fuel ≠ 0 by omega)
    rw [depthOfItems] at hlevel
    have hfirst := hread j List.mem_cons_self (show 2 * j.write.length ≤ fuel by omega)
      (show level + j.depth ≤ _ by omega) (stops_writeMoreItems (i :: items) rest)
    have hrest := ih (fun k hk ↦ hread k (List.mem_cons_of_mem _ hk))
      (show 2 * (i.write ++ writeMoreItems items).length ≤ fuel by omega) (by omega)
    have hmore : writeMoreItems (i :: items) ++ rest =
        ',' :: (i.write ++ (writeMoreItems items ++ rest)) := by
      rw [writeMoreItems, List.cons_append, List.append_assoc]
    rw [hmore] at hfirst ⊢
    rw [Tree.readItems_of_comma hfirst, hrest]
    rfl

/-- A list is read back if its elements are. -/
theorem readsBack_arr {items : List Json} (h : ∀ j ∈ items, ReadsBack j) :
    ReadsBack (.arr items) := by
  intro fuel level rest hfuel hlevel hrest
  rw [write, List.length_cons] at hfuel
  obtain ⟨fuel, rfl⟩ := Nat.exists_eq_succ_of_ne_zero (show fuel ≠ 0 by omega)
  rw [depth] at hlevel
  cases items with
  | nil =>
    rw [write, writeItems, Tree.ofJson, ← Tree.arrayAt_ofItems (show level < _ by omega)]
    rfl
  | cons j items =>
    rw [writeItems] at hfuel
    have hitems : Tree.readItems fuel (level + 1) (j.write ++ (writeMoreItems items ++ rest)) =
        some (Tree.ofItems (j :: items), rest) := readItems_write h (by omega) (by omega)
    rw [write, writeItems, List.cons_append, List.append_assoc, Tree.readValue_bracket, hitems]
    · simp only [Option.map_some, Tree.ofJson, Tree.arrayAt_ofItems (show level < _ by omega)]
    · -- the first item is a value
      intro tail hclose
      have hdepth : j.depth ≤ depthOfItems (j :: items) := depth_le_depthOfItems List.mem_cons_self
      have hfirst := h j List.mem_cons_self (Nat.le_refl _) (show 0 + j.depth ≤ _ by omega)
        (stops_writeMoreItems items rest)
      rw [Tree.readValue_of_close hclose] at hfirst
      cases hfirst

/-! ### Objects -/

/-- Between fields there is what stops a numeral. -/
theorem stops_writeMoreFields (fields : List (String × Json)) (rest : List Char) :
    Stops (writeMoreFields fields ++ rest) := by
  cases fields with
  | nil => exact stops_cons (by decide) _
  | cons f fields => exact stops_cons (by decide) _

/-- The text of an object, field by field. -/
theorem writeFields_append (k : String) (j : Json) (fields : List (String × Json))
    (rest : List Char) :
    writeFields ((k, j) :: fields) ++ rest = '\x22' :: (k.toList.flatMap writeChar ++
      '\x22' :: ':' :: (j.write ++ (writeMoreFields fields ++ rest))) := by
  simp [writeFields, writeString]

/-- There is fuel for every field, as its text is part of the whole. -/
theorem length_writeFields (k : String) (j : Json) (fields : List (String × Json)) :
    j.write.length + (writeMoreFields fields).length < (writeFields ((k, j) :: fields)).length := by
  have hlength := congrArg List.length (writeFields_append k j fields [])
  simp only [List.append_nil, List.length_append, List.length_cons] at hlength
  omega

/-- The fields of an object are read one after the other. -/
theorem readFields_write {level : Nat} {k : String} {j : Json} {fields : List (String × Json)}
    (hread : ∀ f ∈ (k, j) :: fields, ReadsBack f.2)
    (hfuel : 2 * (writeFields ((k, j) :: fields)).length ≤ fuel)
    (hlevel : level + depthOfFields ((k, j) :: fields) ≤ Tree.depthLimit) :
    Tree.readFields fuel level (writeFields ((k, j) :: fields) ++ rest) =
      some ((Tree.ofFields ((k, j) :: fields)).map fun f ↦ (some f.1, f.2), rest) := by
  induction fields generalizing k j fuel with
  | nil =>
    have hlength := length_writeFields k j []
    obtain ⟨fuel, rfl⟩ := Nat.exists_eq_succ_of_ne_zero (show fuel ≠ 0 by omega)
    rw [depthOfFields] at hlevel
    -- what follows the last field closes the object
    have hfirst := hread (k, j) List.mem_cons_self (show 2 * j.write.length ≤ fuel by omega)
      (show level + j.depth ≤ _ by omega) (stops_writeMoreFields [] rest)
    rw [writeFields_append]
    exact Tree.readFields_of_close (readString_writeString k _) hfirst
  | cons f fields ih =>
    obtain ⟨k', j'⟩ := f
    have hlength := length_writeFields k j ((k', j') :: fields)
    obtain ⟨fuel, rfl⟩ := Nat.exists_eq_succ_of_ne_zero (show fuel ≠ 0 by omega)
    rw [depthOfFields] at hlevel
    have hmore : writeMoreFields ((k', j') :: fields) = ',' :: writeFields ((k', j') :: fields) :=
      rfl
    -- what follows any other field is a comma
    have hfirst := hread (k, j) List.mem_cons_self (show 2 * j.write.length ≤ fuel by omega)
      (show level + j.depth ≤ _ by omega) (stops_writeMoreFields ((k', j') :: fields) rest)
    rw [hmore, List.length_cons] at hlength
    have hrest := ih (fun f hf ↦ hread f (List.mem_cons_of_mem _ hf))
      (show 2 * (writeFields ((k', j') :: fields)).length ≤ fuel by omega) (by omega)
    rw [hmore, List.cons_append] at hfirst
    rw [writeFields_append, hmore, List.cons_append,
      Tree.readFields_of_comma (readString_writeString k _) hfirst, hrest]
    rfl

/-- An object is read back if the values of its fields are. -/
theorem readsBack_obj {fields : List (String × Json)} (h : ∀ f ∈ fields, ReadsBack f.2) :
    ReadsBack (.obj fields) := by
  intro fuel level rest hfuel hlevel hrest
  rw [write, List.length_cons] at hfuel
  obtain ⟨fuel, rfl⟩ := Nat.exists_eq_succ_of_ne_zero (show fuel ≠ 0 by omega)
  rw [depth] at hlevel
  have hobject := Tree.objectAt_ofFields (show level < _ by omega) (Tree.ofFields fields)
  cases fields with
  | nil =>
    rw [write, writeFields, Tree.ofJson, ← hobject]
    rfl
  | cons f fields =>
    obtain ⟨k, j⟩ := f
    have hfields : Tree.readFields fuel (level + 1) (writeFields ((k, j) :: fields) ++ rest) =
        some ((Tree.ofFields ((k, j) :: fields)).map fun f ↦ (some f.1, f.2), rest) :=
      readFields_write h (by omega) (by omega)
    rw [write, List.cons_append, Tree.readValue_brace, hfields]
    · simp only [Option.map_some, Tree.ofJson, hobject]
    · intro _ hclosed
      cases hclosed

/-! ### Whole texts -/

/-- A durable value is read back, by induction on how it is built. -/
theorem Durable.readsBack {j : Json} (h : Durable j) : ReadsBack j := by
  induction h with
  | null => exact readsBack_null
  | bool b => exact readsBack_bool b
  | int hn => exact readsBack_int hn
  | float hd => exact readsBack_float hd
  | str s => exact readsBack_str s
  | arr h ih => exact readsBack_arr ih
  | obj distinct h ih => exact readsBack_obj ih

/-- **A value is read as it was written.** -/
theorem ofText?_text {j : Json} (h : Durable j) (hdepth : j.depth ≤ Tree.depthLimit) :
    Tree.ofText? j.text = some (Tree.ofJson j) := by
  have hread := h.readsBack (show 2 * j.write.length ≤ 2 * j.write.length + 2 by omega)
    (show 0 + j.depth ≤ _ by omega) stops_nil
  rw [List.append_nil] at hread
  rw [Tree.ofText?, text, String.toList_ofList, Tree.ofChars?, hread]
  rfl

end Json

end GraphSession
