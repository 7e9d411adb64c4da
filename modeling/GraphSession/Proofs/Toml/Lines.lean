import Mathlib.Data.List.Nodup
import GraphSession.Proofs.Json.Numerals
import GraphSession.Proofs.Maps.Entries
import GraphSession.Proofs.Toml.Texts
import GraphSession.Toml.Reader

/-!
# A document binds what was written in it

A document of bindings, a bare name and a value on each line, is read as the table of these bindings
in their order, if no name is bound twice (`ofText?_flatMap_text`). The values that can be written
are texts, whatever characters they have, and whole numbers in reach (`writes_writeText`,
`writes_writeNat`).

**The end of a line** is all that separates a value from the next name. So reading a value is stated
with a line break behind it, and it has to leave the break where it is.
-/

namespace GraphSession.Toml

/-! ### Numbers -/

section Numbers

variable {n : Nat} {c d : Char}

theorem ne_of_isDigit (hc : c.isDigit = true) (hd : d.isDigit = false) : c ≠ d := by
  rintro rfl
  exact Bool.false_ne_true (hd.symm.trans hc)

theorem ne_of_mem_toDigits (hc : c ∈ Nat.toDigits 10 n) (hd : d.isDigit = false) : c ≠ d :=
  ne_of_isDigit (Json.isDigit_of_mem hc) hd

theorem value?_of_isDigit (hc : c.isDigit = true) : Hexadecimal.value? c = some (c.toNat - 48) :=
  if_pos (by simpa [Char.isDigit, Char.le_def] using hc)

/-- The decimal digits of a number are read as the number. -/
theorem naturalOf_toDigits (n : Nat) : naturalOf 10 (Nat.toDigits 10 n) = n := by
  have hstep : ∀ m, ∀ c ∈ Nat.toDigits 10 n,
      10 * m + (Hexadecimal.value? c).getD 0 = 10 * m + (c.toNat - '0'.toNat) := by
    intro m c hc
    rw [value?_of_isDigit (Json.isDigit_of_mem hc)]
    rfl
  rw [naturalOf, List.foldl_ext _ _ _ hstep]
  exact Nat.ofDigitChars_toDigits (by decide) (by decide)

/-- A number without a needless zero in front is its own digits. -/
theorem decimalDigits?_toDigits (n : Nat) :
    decimalDigits? (Nat.toDigits 10 n) = some (Nat.toDigits 10 n) := by
  have hgroups : Text.splitAt '_' (Nat.toDigits 10 n) = [Nat.toDigits 10 n] :=
    Text.split_of_forall fun c hc ↦ decide_eq_false (ne_of_mem_toDigits hc rfl)
  have hdigits : ungroup? Char.isDigit (Nat.toDigits 10 n) = some (Nat.toDigits 10 n) := by
    have hall : (Nat.toDigits 10 n).all Char.isDigit = true :=
      List.all_eq_true.2 fun c ↦ Json.isDigit_of_mem
    have hsome : (Nat.toDigits 10 n).isEmpty = false := by simp
    rw [ungroup?, hgroups]
    simp [hall, hsome]
  rw [decimalDigits?, hdigits]
  rcases hn : Nat.toDigits 10 n with _ | ⟨c, cs⟩
  · rfl
  · by_cases hc : c = '0'
    · obtain rfl := Json.eq_nil_of_toDigits (hc ▸ hn)
      rw [hc]
      rfl
    · split
      · rename_i h
        exact absurd (List.cons.inj (Option.some.inj h)).1 hc
      · rename_i h
        exact absurd (List.cons.inj (Option.some.inj h)).1 hc
      · rfl

theorem integer?_toDigits (n : Nat) : integer? (Nat.toDigits 10 n) = some n := by
  have hsign : splitSign (Nat.toDigits 10 n) = (false, Nat.toDigits 10 n) := by
    rw [splitSign]
    · intro cs hcs
      exact ne_of_mem_toDigits (c := '+') (hcs ▸ List.mem_cons_self) rfl rfl
    · intro cs hcs
      exact ne_of_mem_toDigits (hcs ▸ List.mem_cons_self) rfl rfl
  have hmark : ∀ d : Char, d.isDigit = false → ∀ cs, Nat.toDigits 10 n ≠ '0' :: d :: cs := by
    intro d hd cs hcs
    exact ne_of_mem_toDigits (hcs ▸ List.mem_cons_of_mem _ List.mem_cons_self) hd rfl
  rw [integer?, hsign]
  · show (decimalDigits? (Nat.toDigits 10 n)).map _ = _
    rw [decimalDigits?_toDigits, Option.map_some, naturalOf_toDigits]
    rfl
  · exact hmark 'x' rfl
  · exact hmark 'o' rfl
  · exact hmark 'b' rfl

/-- A number of at most 128 bits is a scalar. -/
theorem scalar?_toDigits (hn : n < Nat.pow 2 128) :
    scalar? (Nat.toDigits 10 n) = some (.integer n) := by
  have hword : ∀ d cs, d.isDigit = false → Nat.toDigits 10 n ≠ d :: cs := by
    intro d cs hd hcs
    exact ne_of_mem_toDigits (hcs ▸ List.mem_cons_self) hd rfl
  have hreach : isInReach n = true := decide_eq_true hn
  rw [scalar?, if_neg (hword 't' _ rfl), if_neg (hword 'f' _ rfl), integer?_toDigits]
  exact if_pos hreach

end Numbers

/-! ### Values -/

/-- What is read as a value where the line ends after it. -/
structure Writes (cs : List Char) (v : TomlValue) : Prop where
  begins : ∀ c ∈ cs.head?, isSpace c = false
  reads : ∀ fuel depth rest,
    readValue (fuel + 1) depth (cs ++ '\n' :: rest) = some (v, '\n' :: rest)

/-- What does not begin with a bracket is a text or a plain value. -/
theorem readValue_of_head? {cs : List Char} (h : ∀ c ∈ cs.head?, c ≠ '[' ∧ c ≠ '\x7b')
    (fuel depth : Nat) :
    readValue (fuel + 1) depth cs =
      match readText? cs with
      | some r => r.map fun r ↦ (.text (String.ofList r.1), r.2)
      | none => readScalar cs := by
  have hitems : ∀ rest, cs ≠ '[' :: rest := by
    rintro rest rfl
    exact (h '[' rfl).1 rfl
  have hbindings : ∀ rest, cs ≠ '\x7b' :: rest := by
    rintro rest rfl
    exact (h '\x7b' rfl).2 rfl
  rw [readValue.eq_def]
  dsimp only
  cases readText? cs with
  | some r => rfl
  | none =>
    dsimp only
    split
    · exact absurd rfl (hitems _)
    · exact absurd rfl (hbindings _)
    · rfl

theorem readText?_of_head? {cs : List Char} (h : ∀ c ∈ cs.head?, c ≠ '\x22' ∧ c ≠ '\'') :
    readText? cs = none := by
  rw [readText?]
  · rintro rest rfl
    exact (h '\x22' rfl).1 rfl
  · rintro rest rfl
    exact (h '\x22' rfl).1 rfl
  · rintro rest rfl
    exact (h '\'' rfl).2 rfl
  · rintro rest rfl
    exact (h '\'' rfl).2 rfl

/-- A written text begins with a quote of some kind. -/
theorem head?_writeText (cs : List Char) :
    (writeText cs).head? = some '\x22' ∨ (writeText cs).head? = some '\'' := by
  rw [writeText]
  cases styleOf cs with
  | escaped => exact .inl rfl
  | raw => exact .inr rfl
  | longEscaped => exact .inl rfl
  | longRaw => exact .inr rfl

/-- **Any text can be written.** -/
theorem writes_writeText (s : String) : Writes (writeText s.toList) (.text s) where
  begins c hc := by
    rcases head?_writeText s.toList with h | h <;> cases h.symm.trans hc <;> rfl
  reads fuel depth rest := by
    have hquote : ∀ c ∈ (writeText s.toList ++ '\n' :: rest).head?, c ≠ '[' ∧ c ≠ '\x7b' := by
      intro c hc
      rcases head?_writeText s.toList with h | h <;> rw [List.head?_append, h] at hc <;> cases hc
        <;> decide
    have hrest : ∀ c ∈ ('\n' :: rest).head?, c ≠ '\x22' ∧ c ≠ '\'' := by
      rintro c ⟨⟩
      decide
    rw [readValue_of_head? hquote, readText?_writeText s.toList hrest]
    show some (TomlValue.text (String.ofList s.toList), '\n' :: rest) = _
    rw [String.ofList_toList]

theorem isScalarChar_of_isDigit {c : Char} (hc : c.isDigit = true) : isScalarChar c = true := by
  simp [isScalarChar, Char.isAlphanum, hc]

/-- A number is read up to the end of its line. -/
theorem readScalar_toDigits {n : Nat} (hn : n < Nat.pow 2 128) (rest : List Char) :
    readScalar (Nat.toDigits 10 n ++ '\n' :: rest) = some (.integer n, '\n' :: rest) := by
  have hdigits : ∀ c ∈ Nat.toDigits 10 n, isScalarChar c = true := fun c hc ↦
    isScalarChar_of_isDigit (Json.isDigit_of_mem hc)
  have hend : ∀ c ∈ ('\n' :: rest).head?, isScalarChar c = false := by
    rintro c ⟨⟩
    rfl
  have hspan : spanScalar (Nat.toDigits 10 n ++ '\n' :: rest) = (Nat.toDigits 10 n,
      '\n' :: rest) := by
    rw [spanScalar, List.span_eq_takeWhile_dropWhile, Text.takeWhile_append_of_head? hdigits hend,
      Text.dropWhile_append_of_head? hdigits hend]
    rfl
  rw [readScalar, hspan, scalar?_toDigits hn]
  rfl

/-- **A whole number in reach can be written.** -/
theorem writes_writeNat {n : Nat} (hn : n < Nat.pow 2 128) : Writes (writeNat n) (.integer n) where
  begins c hc := by
    have hdigit : c.isDigit = true := Json.isDigit_of_mem (List.mem_of_mem_head? hc)
    simp [isSpace, ne_of_isDigit hdigit]
  reads fuel depth rest := by
    have hdigit : ∀ c ∈ (writeNat n ++ '\n' :: rest).head?, c.isDigit = true := by
      intro c hc
      rw [List.head?_append_of_ne_nil (writeNat n) Nat.toDigits_ne_nil] at hc
      exact Json.isDigit_of_mem (List.mem_of_mem_head? hc)
    have htext : readText? (writeNat n ++ '\n' :: rest) = none :=
      readText?_of_head? fun c hc ↦ ⟨ne_of_isDigit (hdigit c hc) rfl,
        ne_of_isDigit (hdigit c hc) rfl⟩
    rw [readValue_of_head? (fun c hc ↦ ⟨ne_of_isDigit (hdigit c hc) rfl,
      ne_of_isDigit (hdigit c hc) rfl⟩), htext]
    exact readScalar_toDigits hn rest

/-! ### Lines -/

/-- A name that can be written without quotes. -/
structure IsBare (name : List Char) : Prop where
  ne_nil : name ≠ []
  isKeyChar : ∀ c ∈ name, isKeyChar c = true

theorem skipSpace_of_head? {cs : List Char} (h : ∀ c ∈ cs.head?, isSpace c = false) :
    skipSpace cs = cs :=
  show ([] ++ cs).dropWhile isSpace = cs from
    Text.dropWhile_append_of_head? (List.forall_mem_nil _) h

theorem ne_of_isKeyChar {c d : Char} (hc : isKeyChar c = true) (hd : isKeyChar d = false) :
    c ≠ d := by
  rintro rfl
  exact Bool.false_ne_true (hd.symm.trans hc)

theorem isSpace_of_isKeyChar {c : Char} (hc : isKeyChar c = true) : isSpace c = false := by
  simp [isSpace, ne_of_isKeyChar hc (show isKeyChar ' ' = false from rfl),
    ne_of_isKeyChar hc (show isKeyChar '\t' = false from rfl)]

theorem skipGaps_of_isKeyChar {c : Char} (hc : isKeyChar c = true) (cs : List Char) :
    skipGaps false (c :: cs) = some (c :: cs) := by
  rw [skipGaps, if_neg (ne_of_isKeyChar hc rfl), if_neg (ne_of_isKeyChar hc rfl),
    if_neg Bool.false_ne_true, isSpace_of_isKeyChar hc, if_neg Bool.false_ne_true,
    if_neg (ne_of_isKeyChar hc rfl)]

/-- No mark of the byte order is taken for the beginning of a name. -/
theorem dropMark_of_head? {cs : List Char} (h : ∀ c ∈ cs.head?, isKeyChar c = true) :
    dropMark cs = cs := by
  cases cs with
  | nil => rfl
  | cons c cs =>
    have hmark : c ≠ '\uFEFF' := ne_of_isKeyChar (h c rfl) rfl
    exact if_neg fun hc ↦ hmark (Char.toNat_inj.1 hc)

/-- A line of a document: a bare name, and a value as it is written. -/
structure Line where
  name : String
  written : List Char
  value : TomlValue
  isBare : IsBare name.toList
  writes : Writes written value

namespace Line

/-- The text of a line. -/
def text (l : Line) : List Char := writeBinding l.name l.written

variable (l : Line) (rest : List Char)

/-- What comes after the name. -/
def tail : List Char := ' ' :: '=' :: ' ' :: (l.written ++ '\n' :: rest)

/-- A line is its name and the rest. -/
theorem text_append : l.text ++ rest = l.name.toList ++ l.tail rest := by
  simp [text, writeBinding, tail]

/-- A line begins with a character of its name. -/
theorem head?_text (c : Char) (hc : c ∈ (l.text ++ rest).head?) : isKeyChar c = true := by
  rw [text_append, List.head?_append_of_ne_nil _ l.isBare.ne_nil] at hc
  exact l.isBare.isKeyChar c (List.mem_of_mem_head? hc)

/-- The name of a line is read first. -/
theorem readName_text : readName (l.text ++ rest) = some (l.name, l.tail rest) := by
  have hend : ∀ c ∈ (l.tail rest).head?, isKeyChar c = false := by
    rintro c ⟨⟩
    rfl
  have hspan : (l.text ++ rest).span isKeyChar = (l.name.toList, l.tail rest) := by
    rw [text_append, List.span_eq_takeWhile_dropWhile,
      Text.takeWhile_append_of_head? l.isBare.isKeyChar hend,
      Text.dropWhile_append_of_head? l.isBare.isKeyChar hend]
  rw [readName, hspan]
  · rcases hname : l.name.toList with _ | ⟨c, cs⟩
    · exact absurd hname l.isBare.ne_nil
    · show some (String.ofList (c :: cs), l.tail rest) = _
      rw [← hname, String.ofList_toList]
  · intro rest' h
    exact ne_of_isKeyChar (l.head?_text rest '\x22' (by rw [h]; rfl)) rfl rfl
  · intro rest' h
    exact ne_of_isKeyChar (l.head?_text rest '\'' (by rw [h]; rfl)) rfl rfl

/-- The key of a line is its name. -/
theorem readKey_text (fuel : Nat) : readKey (fuel + 1) (l.text ++ rest) =
    some ([l.name], '=' :: ' ' :: (l.written ++ '\n' :: rest)) := by
  have hstart : skipSpace (l.text ++ rest) = l.text ++ rest :=
    skipSpace_of_head? fun c hc ↦ isSpace_of_isKeyChar (l.head?_text rest c hc)
  rw [readKey, hstart, readName_text]
  rfl

/-- A line is read as the binding of its name to its value. -/
theorem readBinding_text (fuel depth : Nat) : readBinding (fuel + 2) depth (l.text ++ rest) =
    some (([l.name], l.value), '\n' :: rest) := by
  have hstart : skipSpace (' ' :: (l.written ++ '\n' :: rest)) = l.written ++ '\n' :: rest := by
    show skipSpace (l.written ++ '\n' :: rest) = _
    refine skipSpace_of_head? fun c hc ↦ ?_
    rw [List.head?_append, Option.mem_def, Option.or_eq_some_iff] at hc
    rcases hc with hc | ⟨-, hc⟩
    · exact l.writes.begins c hc
    · cases hc
      rfl
  rw [readBinding, readKey_text]
  show (readValue (fuel + 1) depth (skipSpace _)).map _ = _
  rw [hstart, l.writes.reads]
  rfl

/-- A line is read up to its end. -/
theorem readLine_text (fuel : Nat) : readLine (fuel + 2) (l.text ++ rest) =
    some (.binding [l.name] l.value, '\n' :: rest) := by
  have hbracket : ∀ cs, l.text ++ rest ≠ '[' :: cs := fun cs h ↦
    ne_of_isKeyChar (l.head?_text rest '[' (by rw [h]; rfl)) rfl rfl
  rw [readLine, readBinding_text]
  · rfl
  · exact fun cs ↦ hbracket _
  · exact fun cs ↦ hbracket _

/-- **One line is read** as its binding, and reading goes on after it. -/
theorem readLines_text (fuel : Nat) : readLines (fuel + 1) (l.text ++ rest) =
    (readLines fuel rest).map (.binding [l.name] l.value :: ·) := by
  have hline : readLine ((l.text ++ rest).length + 4) (l.text ++ rest) =
      some (.binding [l.name] l.value, '\n' :: rest) := l.readLine_text rest _
  have hhead := l.head?_text rest
  rcases hcs : l.text ++ rest with _ | ⟨c, cs⟩
  · exact absurd hcs (by simp [text_append, tail])
  · rw [hcs] at hline hhead
    rw [readLines, skipGaps_of_isKeyChar (hhead c rfl)]
    dsimp only
    rw [hline]
    rfl

end Line

/-! ### Documents -/

/-- The names that lines bind, with their values. -/
def table (ls : List Line) : TomlTable := ls.map fun l ↦ (l.name, l.value)

/-- Lines are read one after the other, if there is fuel for each. -/
theorem readLines_flatMap_text {ls : List Line} {fuel : Nat} (h : ls.length < fuel) :
    readLines fuel (ls.flatMap Line.text) = some (ls.map fun l ↦ .binding [l.name] l.value) := by
  induction ls generalizing fuel with
  | nil =>
    obtain ⟨fuel, rfl⟩ := Nat.exists_eq_add_one_of_ne_zero (Nat.ne_of_gt h)
    rfl
  | cons l ls ih =>
    obtain ⟨fuel, rfl⟩ := Nat.exists_eq_add_one_of_ne_zero (Nat.ne_of_gt (Nat.zero_lt_of_lt h))
    rw [List.flatMap_cons, l.readLines_text, ih (Nat.lt_of_succ_lt_succ h)]
    rfl

theorem length_le_flatMap_text (ls : List Line) : ls.length ≤ (ls.flatMap Line.text).length := by
  induction ls with
  | nil => exact Nat.le_refl 0
  | cons l ls ih =>
    have hpos : 0 < l.text.length := by
      simp only [Line.text, writeBinding, List.length_append, List.length_singleton]
      omega
    rw [List.flatMap_cons, List.length_append, List.length_cons]
    omega

/-- A new name at the top level is bound after the others. -/
theorem add?_binding {t : TomlTable} {k : String} (h : k ∉ Entries.keys t) (v : TomlValue) :
    (TomlDocument.mk t []).add? (.binding [k] v) = some ⟨t ++ [(k, v)], []⟩ := by
  show (TomlTable.bind? k v t).map _ = _
  rw [TomlTable.bind?, Entries.lookup_eq_none_of_not_mem h]
  show some (TomlDocument.mk (Entries.put k v t) []) = _
  rw [Entries.put_of_not_mem h]

/-- Lines with distinct names make up their table. -/
theorem foldl_add?_binding {ls : List Line} {t : TomlTable}
    (h : (Entries.keys (t ++ table ls)).Nodup) :
    (ls.map fun l ↦ TomlLine.binding [l.name] l.value).foldl (fun d l ↦ d.bind fun d ↦ d.add? l)
      (some (TomlDocument.mk t [])) = some ⟨t ++ table ls, []⟩ := by
  induction ls generalizing t with
  | nil => exact congrArg (fun t ↦ some (TomlDocument.mk t [])) (List.append_nil t).symm
  | cons l ls ih =>
    have hsplit : t ++ table (l :: ls) = (t ++ [(l.name, l.value)]) ++ table ls := by simp [table]
    have hnew : l.name ∉ Entries.keys t := by
      intro hmem
      rw [Entries.keys, List.map_append, List.nodup_append] at h
      exact h.2.2 _ hmem _ (by simp [table]) rfl
    rw [List.map_cons, List.foldl_cons, Option.bind_some, add?_binding hnew, ih (hsplit ▸ h),
      hsplit]

/-- **A document of lines is read as the table of their bindings,** if no name is bound twice. -/
theorem ofText?_flatMap_text {ls : List Line} (h : (ls.map Line.name).Nodup) :
    ofText? (String.ofList (ls.flatMap Line.text)) = some (table ls) := by
  have hmark : dropMark (ls.flatMap Line.text) = ls.flatMap Line.text := by
    refine dropMark_of_head? fun c hc ↦ ?_
    cases ls with
    | nil => cases hc
    | cons l ls => exact l.head?_text (ls.flatMap Line.text) c hc
  have hkeys : (Entries.keys ([] ++ table ls)).Nodup := by
    rw [List.nil_append, Entries.keys, table, List.map_map]
    exact h
  have hfuel : ls.length < (ls.flatMap Line.text).length + 1 :=
    Nat.lt_succ_of_le (length_le_flatMap_text ls)
  rw [ofText?, String.toList_ofList, hmark, readLines_flatMap_text hfuel, Option.bind_some,
    TomlDocument.ofLines?, TomlDocument.empty, foldl_add?_binding hkeys]
  rfl

end GraphSession.Toml
