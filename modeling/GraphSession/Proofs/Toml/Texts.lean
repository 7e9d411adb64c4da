import Mathlib.Data.List.Basic
import Mathlib.Tactic.SplitIfs
import GraphSession.Proofs.Json.Strings
import GraphSession.Proofs.Text.Cutting
import GraphSession.Toml.Writer

/-!
# Texts are read as they were written

Whatever characters a text has, it is read back from the style it was written in
(`readText?_writeText`), and what follows is left alone.

**Quotes.** Three quotes in a row close a text of several lines, and up to two more before them
belong to it. So what counts is that no three quotes come in a row before the end: between double
quotes every third one is escaped, and a text without escapes has no such run. Reading then goes on
quote by quote, except at the end, where the last quotes of the text are read together with the
closing ones.
-/

namespace GraphSession.Toml

/-- The characters that may stand as they are: tabs, and all others that are no controls. -/
theorem isPlain_iff {c : Char} : isPlain c = true ↔ c = '\t' ∨ 0x20 ≤ c.toNat ∧ c.toNat ≠ 0x7F := by
  simp [isPlain]

/-! ### One character between double quotes -/

/-- What one more character in front makes of a reading. -/
def before (c : Char) (r : Option (List Char × List Char)) : Option (List Char × List Char) :=
  r.map fun r ↦ (c :: r.1, r.2)

/-- A letter after a backslash is read as the character it stands for. -/
theorem readEscaped_letter {e c : Char} (he : e ≠ 'x' ∧ e ≠ 'u' ∧ e ≠ 'U')
    (hc : letterEscape? e = some c) (long : Bool) (cs : List Char) :
    readEscaped long ('\\' :: e :: cs) = before c (readEscaped long cs) := by
  rw [readEscaped.eq_8, hc]
  · rfl
  · rintro _ _ _ ⟨⟩
    exact he.1 rfl
  · rintro _ _ _ _ _ ⟨⟩
    exact he.2.1 rfl
  · rintro _ _ _ _ _ _ _ _ _ ⟨⟩
    exact he.2.2 rfl

/-- A digit of an escape is read as its value. -/
theorem value?_toUpper_digitChar {n : Nat} (hn : n < 16) :
    Hexadecimal.value? (Nat.digitChar n).toUpper = some n := by
  have hdigits : ∀ k : Fin 16, Hexadecimal.value? (Nat.digitChar k).toUpper = some k.val := by
    decide
  exact hdigits ⟨n, hn⟩

/-- Four hexadecimal digits are read as the character they were written for. -/
theorem readEscaped_fourHex {c : Char} (hc : c.toNat < 65536) (long : Bool) (cs : List Char) :
    readEscaped long ('\\' :: 'u' :: fourHex c.toNat ++ cs) = before c (readEscaped long cs) := by
  have hnumber : hexNumber? (fourHex c.toNat) = some c.toNat := by
    simp only [hexNumber?, fourHex, List.map_cons, List.map_nil, List.foldl_cons, List.foldl_nil,
      value?_toUpper_digitChar (Nat.mod_lt _ (Nat.succ_pos 15))]
    exact congrArg some (by omega)
  have hvalid : c.toNat.isValidChar := c.valid
  have hchar : numberEscape? (fourHex c.toNat) = some c := by
    rw [numberEscape?, hnumber]
    show (if c.toNat.isValidChar then _ else _) = _
    rw [if_pos hvalid, Char.ofNat_toNat]
  obtain ⟨d₁, d₂, d₃, d₄, hdigits⟩ : ∃ d₁ d₂ d₃ d₄, fourHex c.toNat = [d₁, d₂, d₃, d₄] :=
    ⟨_, _, _, _, rfl⟩
  rw [hdigits] at hchar ⊢
  show readEscaped long ('\\' :: 'u' :: d₁ :: d₂ :: d₃ :: d₄ :: cs) = _
  rw [readEscaped.eq_5, hchar]
  rfl

/-- A character that stands for itself. -/
theorem readEscaped_plain {long : Bool} {c : Char} {cs : List Char} (hquote : c ≠ '\x22')
    (hslash : c ≠ '\\') (hc : mayStand long c cs = true) :
    readEscaped long (c :: cs) = before c (readEscaped long cs) := by
  rw [readEscaped.eq_9, if_pos hc]
  · rfl
  · exact fun _ h _ ↦ hquote h
  · exact hquote
  · exact fun _ _ _ h _ ↦ hslash h
  · exact fun _ _ _ _ _ h _ ↦ hslash h
  · exact fun _ _ _ _ _ _ _ _ _ h _ ↦ hslash h
  · exact hslash

/-- **A character that is no quote is read as it was written.** -/
theorem readEscaped_escapeChar (long : Bool) {c : Char} (hquote : c ≠ '\x22') (cs : List Char) :
    readEscaped long (escapeChar long c ++ cs) = before c (readEscaped long cs) := by
  unfold escapeChar
  split_ifs with hslash hback htab hline hlong hfeed hreturn hplain
  · subst hslash
    exact readEscaped_letter (by decide) rfl long cs
  · subst hback
    exact readEscaped_letter (by decide) rfl long cs
  · subst htab
    exact readEscaped_letter (by decide) rfl long cs
  · -- a line break stands as it is in a text of several lines
    subst hline
    exact readEscaped_plain hquote hslash (by rw [hlong]; rfl)
  · subst hline
    exact readEscaped_letter (by decide) rfl long cs
  · subst hfeed
    exact readEscaped_letter (by decide) rfl long cs
  · subst hreturn
    exact readEscaped_letter (by decide) rfl long cs
  · -- a plain character stands as it is
    exact readEscaped_plain hquote hslash (by rw [mayStand, hplain]; rfl)
  · -- only controls are not plain
    have hcontrol : c.toNat < 65536 := by
      rw [isPlain_iff] at hplain
      omega
    exact readEscaped_fourHex hcontrol long cs

/-! ### Between double quotes on one line -/

theorem readEscaped_close (rest : List Char) :
    readEscaped false ('\x22' :: rest) = some ([], rest) := by
  by_cases h : ∃ rest', rest = '\x22' :: '\x22' :: rest'
  · obtain ⟨rest', rfl⟩ := h
    exact readEscaped.eq_2 false rest'
  · exact readEscaped.eq_3 false rest fun rest' hrest ↦ h ⟨rest', hrest⟩

/-- What is escaped is read back up to the closing quote. -/
theorem readEscaped_escapeFrom_short (quotes : Nat) (cs rest : List Char) :
    readEscaped false (escapeFrom false quotes cs ++ '\x22' :: rest) = some (cs, rest) := by
  induction cs generalizing quotes with
  | nil => exact readEscaped_close rest
  | cons c cs ih =>
    rw [escapeFrom]
    by_cases hquote : c = '\x22'
    · subst hquote
      rw [if_pos rfl, if_neg fun h ↦ Bool.false_ne_true h.1]
      show readEscaped false ('\\' :: '\x22' :: (escapeFrom false 0 cs ++ _)) = _
      rw [readEscaped_letter (by decide) rfl, ih]
      rfl
    · rw [if_neg hquote, List.append_assoc, readEscaped_escapeChar false hquote, ih]
      rfl

/-! ### Quotes of texts of several lines -/

/-- A reader of texts of several lines: three quotes close a text, and any other quote is a
character of it. -/
structure ReadsQuotes (q : Char) (read : List Char → Option (List Char × List Char)) : Prop where
  three : ∀ rest, read (q :: q :: q :: rest) = some (closing q rest)
  single : ∀ {cs}, (∀ rest, cs ≠ q :: q :: rest) → read (q :: cs) = before q (read cs)

/-- Between three double quotes, quotes are read as quotes. -/
theorem readsQuotes_readEscaped : ReadsQuotes '\x22' (readEscaped true) where
  three := readEscaped.eq_2 true
  single h := readEscaped.eq_3 true _ h

/-- Between three single quotes, quotes are read as quotes. -/
theorem readsQuotes_readRaw : ReadsQuotes '\'' (readRaw true) where
  three := readRaw.eq_2 true
  single h := readRaw.eq_3 true _ h

/-- What is left to read after a quote, and the characters it stands for: the quotes at the end of
the text are read with the closing ones, and before that no three quotes come in a row. -/
inductive AfterQuote (q : Char) (rest : List Char) : List Char → List Char → Prop
  | last : AfterQuote q rest (q :: q :: q :: rest) []
  | lastButOne : AfterQuote q rest (q :: q :: q :: q :: rest) [q]
  | inner {text cs : List Char} (h : ∀ rest', text ≠ q :: q :: rest') : AfterQuote q rest text cs

variable {q : Char} {read : List Char → Option (List Char × List Char)} {text cs rest : List Char}

theorem closing_of_head? (hrest : ∀ c ∈ rest.head?, c ≠ q) : closing q rest = ([], rest) := by
  rcases rest with _ | ⟨a, _ | ⟨b, rest⟩⟩
  · rfl
  · exact if_neg (hrest a rfl)
  · exact if_neg (hrest a rfl)

theorem closing_cons (hrest : ∀ c ∈ rest.head?, c ≠ q) : closing q (q :: rest) = ([q], rest) := by
  rcases rest with _ | ⟨a, rest⟩
  · exact if_pos rfl
  · rw [closing, if_pos rfl, if_neg (hrest a rfl)]

theorem closing_cons_cons (rest : List Char) : closing q (q :: q :: rest) = ([q, q], rest) := by
  rw [closing, if_pos rfl, if_pos rfl]

/-- **A quote that was written as it is belongs to the text.** -/
theorem ReadsQuotes.read_cons (h : ReadsQuotes q read) (hrest : ∀ c ∈ rest.head?, c ≠ q)
    (hafter : AfterQuote q rest text cs) (hread : read text = some (cs, rest)) :
    read (q :: text) = some (q :: cs, rest) := by
  rcases hafter with _ | _ | hinner
  · rw [h.three, closing_cons hrest]
  · rw [h.three, closing_cons_cons]
  · rw [h.single hinner, hread]
    rfl

/-! ### Between three double quotes -/

/-- What is written for a character that is no quote does not begin with one. -/
theorem head?_escapeChar {c : Char} (hquote : c ≠ '\x22') (long : Bool) (cs : List Char) :
    ∀ a ∈ (escapeChar long c ++ cs).head?, a ≠ '\x22' := by
  unfold escapeChar
  split_ifs <;> simp [hquote]

theorem ne_cons_of_head? (h : ∀ a ∈ text.head?, a ≠ q) (rest : List Char) : text ≠ q :: rest := by
  rintro rfl
  exact h q rfl rfl

/-- Where a quote would be escaped, what is written begins with none. -/
theorem head?_escapeFrom_escaped {long : Bool} {quotes : Nat} (h : ¬(long = true ∧ quotes < 2))
    (c : Char) (cs rest : List Char) :
    ∀ a ∈ (escapeFrom long quotes (c :: cs) ++ rest).head?, a ≠ '\x22' := by
  rw [escapeFrom]
  by_cases hquote : c = '\x22'
  · rw [if_pos hquote, if_neg h]
    rintro a ⟨⟩
    decide
  · rw [if_neg hquote, List.append_assoc]
    exact head?_escapeChar hquote long _

/-- What is escaped leaves no quote in the text that could close it. -/
theorem afterQuote_escapeFrom {quotes : Nat} (hquotes : quotes < 2) (cs rest : List Char) :
    AfterQuote '\x22' rest (escapeFrom true (quotes + 1) cs ++ threeDouble ++ rest) cs := by
  rcases cs with _ | ⟨c, cs⟩
  · exact .last
  rcases (by omega : quotes + 1 = 1 ∨ quotes + 1 = 2) with hone | htwo
  · rw [hone]
    by_cases hquote : c = '\x22'
    · subst hquote
      rcases cs with _ | ⟨d, cs⟩
      · exact .lastButOne
      · refine .inner fun rest' h ↦ ?_
        have htail : escapeFrom true 2 (d :: cs) ++ threeDouble ++ rest = '\x22' :: rest' :=
          (List.cons.inj h).2
        rw [List.append_assoc] at htail
        exact ne_cons_of_head? (head?_escapeFrom_escaped (by decide) d cs _) rest' htail
    · refine .inner fun rest' ↦ ne_cons_of_head? ?_ _
      rw [escapeFrom, if_neg hquote, List.append_assoc, List.append_assoc]
      exact head?_escapeChar hquote true _
  · rw [htwo, List.append_assoc]
    exact .inner fun rest' ↦ ne_cons_of_head? (head?_escapeFrom_escaped (by decide) c cs _) _

/-- What is escaped on several lines is read back up to the closing quotes. -/
theorem readEscaped_escapeFrom_long (quotes : Nat) (cs : List Char)
    (hrest : ∀ c ∈ rest.head?, c ≠ '\x22') :
    readEscaped true (escapeFrom true quotes cs ++ threeDouble ++ rest) = some (cs, rest) := by
  induction cs generalizing quotes with
  | nil =>
    refine (readsQuotes_readEscaped.three rest).trans ?_
    rw [closing_of_head? hrest]
  | cons c cs ih =>
    rw [escapeFrom]
    by_cases hquote : c = '\x22'
    · subst hquote
      by_cases hquotes : quotes < 2
      · rw [if_pos rfl, if_pos ⟨rfl, hquotes⟩]
        exact readsQuotes_readEscaped.read_cons hrest (afterQuote_escapeFrom hquotes cs rest) (ih _)
      · rw [if_pos rfl, if_neg fun h ↦ hquotes h.2]
        show readEscaped true ('\\' :: '\x22' :: (escapeFrom true 0 cs ++ threeDouble ++ rest)) = _
        rw [readEscaped_letter (by decide) rfl, ih]
        rfl
    · rw [if_neg hquote, List.append_assoc, List.append_assoc, readEscaped_escapeChar true hquote,
        ← List.append_assoc, ih]
      rfl

/-! ### Between single quotes -/

/-- No three quotes come in a row, after so many of them. -/
def Runs (q : Char) : Nat → List Char → Prop
  | _, [] => True
  | quotes, c :: cs => if c = q then quotes < 2 ∧ Runs q (quotes + 1) cs else Runs q 0 cs

theorem best_le_longestRun (q : Char) (now best : Nat) (cs : List Char) :
    best ≤ longestRun q now best cs := by
  induction cs generalizing now best with
  | nil => exact Nat.le_refl best
  | cons c cs ih =>
    rw [longestRun]
    split_ifs
    · exact (Nat.le_max_left _ _).trans (ih _ _)
    · exact ih _ _

/-- A longest run of two quotes leaves no three in a row. -/
theorem runs_of_longestRun {now best : Nat} (h : longestRun q now best cs ≤ 2) : Runs q now cs := by
  induction cs generalizing now best with
  | nil => trivial
  | cons c cs ih =>
    rw [longestRun] at h
    rw [Runs]
    split_ifs at h ⊢ with hc
    · have hnow : now + 1 ≤ 2 := (Nat.le_max_right _ _).trans ((best_le_longestRun _ _ _ _).trans h)
      exact ⟨hnow, ih h⟩
    · exact ih h

/-- A longest run of no quotes leaves none at all. -/
theorem not_mem_of_longestRun {now best : Nat} (h : longestRun q now best cs = 0) : q ∉ cs := by
  induction cs generalizing now best with
  | nil => exact List.not_mem_nil
  | cons c cs ih =>
    rw [longestRun] at h
    split_ifs at h with hc
    · have := best_le_longestRun q (now + 1) (max best (now + 1)) cs
      omega
    · exact List.not_mem_cons_of_ne_of_not_mem (Ne.symm hc) (ih h)

/-- Where no three quotes come in a row, no quote closes the text. -/
theorem afterQuote_of_runs {quotes : Nat} (h : Runs q (quotes + 1) cs) (rest : List Char) :
    AfterQuote q rest (cs ++ [q, q, q] ++ rest) cs := by
  rcases cs with _ | ⟨c, cs⟩
  · exact .last
  rw [Runs] at h
  by_cases hc : c = q
  · subst hc
    rw [if_pos rfl] at h
    rcases cs with _ | ⟨d, cs⟩
    · exact .lastButOne
    · refine .inner fun rest' htext ↦ ?_
      obtain ⟨rfl, -⟩ := List.cons.inj (List.cons.inj htext).2
      have hthird := h.2
      rw [Runs, if_pos rfl] at hthird
      omega
  · refine .inner fun rest' htext ↦ hc (List.cons.inj htext).1

theorem readRaw_plain {long : Bool} {c : Char} (hquote : c ≠ '\'')
    (hc : mayStand long c cs = true) :
    readRaw long (c :: cs) = before c (readRaw long cs) := by
  rw [readRaw.eq_4, if_pos hc]
  · rfl
  · exact fun _ h _ ↦ hquote h
  · exact hquote

theorem readRaw_close (rest : List Char) : readRaw false ('\'' :: rest) = some ([], rest) := by
  by_cases h : ∃ rest', rest = '\'' :: '\'' :: rest'
  · obtain ⟨rest', rfl⟩ := h
    exact readRaw.eq_2 false rest'
  · exact readRaw.eq_3 false rest fun rest' hrest ↦ h ⟨rest', hrest⟩

/-- A text on one line without single quotes is read back as it stands. -/
theorem readRaw_short (hquote : '\'' ∉ cs) (hplain : ∀ c ∈ cs, isPlain c = true)
    (rest : List Char) :
    readRaw false (cs ++ '\'' :: rest) = some (cs, rest) := by
  induction cs with
  | nil => exact readRaw_close rest
  | cons c cs ih =>
    obtain ⟨hc, hcs⟩ := List.forall_mem_cons.1 hplain
    have hne : c ≠ '\'' := fun h ↦ hquote (h ▸ List.mem_cons_self)
    rw [List.cons_append, readRaw_plain hne (by rw [mayStand, hc]; rfl),
      ih (fun h ↦ hquote (List.mem_cons_of_mem c h)) hcs]
    rfl

/-- A text on several lines without three single quotes in a row is read back as it stands. -/
theorem readRaw_long {quotes : Nat} (hruns : Runs '\'' quotes cs)
    (hplain : ∀ c ∈ cs, isPlain c = true ∨ c = '\n') (hrest : ∀ c ∈ rest.head?, c ≠ '\'') :
    readRaw true (cs ++ threeSingle ++ rest) = some (cs, rest) := by
  induction cs generalizing quotes with
  | nil =>
    refine (readsQuotes_readRaw.three rest).trans ?_
    rw [closing_of_head? hrest]
  | cons c cs ih =>
    obtain ⟨hc, hcs⟩ := List.forall_mem_cons.1 hplain
    rw [Runs] at hruns
    by_cases hquote : c = '\''
    · subst hquote
      rw [if_pos rfl] at hruns
      exact readsQuotes_readRaw.read_cons hrest (afterQuote_of_runs hruns.2 rest) (ih hruns.2 hcs)
    · rw [if_neg hquote] at hruns
      have hstand : mayStand true c (cs ++ threeSingle ++ rest) = true := by
        rcases hc with hc | rfl
        · rw [mayStand, hc]
          rfl
        · rfl
      show readRaw true (c :: (cs ++ threeSingle ++ rest)) = _
      rw [readRaw_plain hquote hstand, ih hruns hcs]
      rfl

/-! ### Every style -/

theorem afterBreak?_eq_none {body : List Char} (h : ∀ c ∈ body.head?, c ≠ '\n' ∧ c ≠ '\r') :
    afterBreak? body = none := by
  unfold afterBreak?
  split
  · exact absurd rfl (h '\n' rfl).1
  · exact absurd rfl (h '\r' rfl).2
  · rfl

/-- A line break at the beginning of a text is not lost: one more is written before it. -/
theorem dropBreak_leadingBreak {cs body : List Char}
    (hbody : '\n' ∉ cs → ∀ c ∈ body.head?, c ≠ '\n' ∧ c ≠ '\r') :
    dropBreak (leadingBreak cs ++ body) = body := by
  rw [leadingBreak]
  by_cases hcs : '\n' ∈ cs
  · rw [if_pos (List.contains_iff_mem.2 hcs)]
    rfl
  · rw [if_neg fun h ↦ hcs (List.contains_iff_mem.1 h), List.nil_append, dropBreak,
      afterBreak?_eq_none (hbody hcs)]
    rfl

/-- A text without control characters may stand as it is, line breaks aside. -/
theorem plain_of_hasControl {c : Char} (h : hasControl cs = false) (hc : c ∈ cs) :
    isPlain c = true ∨ c = '\n' := by
  have hno := List.any_eq_false.1 h c hc
  simpa [Bool.not_eq_true, or_iff_not_imp_left] using hno

/-- The plain style is chosen only for texts that it can hold. -/
theorem of_styleOf_eq_raw (h : styleOf cs = .raw) : '\'' ∉ cs ∧ ∀ c ∈ cs, isPlain c = true := by
  rw [styleOf] at h
  split_ifs at h with hescaped hraw
  simp only [Bool.and_eq_true, Bool.not_eq_true', decide_eq_true_eq] at hraw
  obtain ⟨⟨hcontrol, hquotes⟩, hlines⟩ := hraw
  refine ⟨not_mem_of_longestRun hquotes, fun c hc ↦
    (plain_of_hasControl hcontrol hc).resolve_right ?_⟩
  rintro rfl
  rw [List.contains_iff_mem.2 hc] at hlines
  cases hlines

/-- The plain style of several lines is chosen only for texts that it can hold. -/
theorem of_styleOf_eq_longRaw (h : styleOf cs = .longRaw) :
    Runs '\'' 0 cs ∧ ∀ c ∈ cs, isPlain c = true ∨ c = '\n' := by
  rw [styleOf] at h
  split_ifs at h with hescaped hraw hlong hlongRaw
  simp only [Bool.and_eq_true, Bool.not_eq_true', decide_eq_true_eq] at hlongRaw
  exact ⟨runs_of_longestRun hlongRaw.2, fun c ↦ plain_of_hasControl hlongRaw.1⟩

/-- Characters that stand for themselves begin with no line break if they have none. -/
theorem head?_long (hplain : ∀ c ∈ cs, isPlain c = true ∨ c = '\n') (hline : '\n' ∉ cs)
    (rest : List Char) :
    ∀ c ∈ (cs ++ threeSingle ++ rest).head?, c ≠ '\n' ∧ c ≠ '\r' := by
  rcases cs with _ | ⟨c, cs⟩
  · rintro c ⟨⟩
    decide
  · rintro a ⟨⟩
    refine ⟨fun hc ↦ hline (hc ▸ List.mem_cons_self), ?_⟩
    rintro rfl
    exact absurd (hplain '\r' List.mem_cons_self) (by decide)

/-- What is written for a character that breaks no line does not begin with a break. -/
theorem head?_escapeFrom (hline : '\n' ∉ cs) (rest : List Char) :
    ∀ c ∈ (escapeFrom true 0 cs ++ threeDouble ++ rest).head?, c ≠ '\n' ∧ c ≠ '\r' := by
  rcases cs with _ | ⟨c, cs⟩
  · rintro c ⟨⟩
    decide
  have hc : c ≠ '\n' := fun hc ↦ hline (hc ▸ List.mem_cons_self)
  rw [escapeFrom]
  by_cases hquote : c = '\x22'
  · rw [if_pos hquote]
    rintro a ⟨⟩
    decide
  · rw [if_neg hquote, escapeChar]
    split_ifs <;> simp_all

/-- **A text is read as it was written**, in whatever style, up to what follows it. -/
theorem readText?_writeText (cs : List Char) (hrest : ∀ c ∈ rest.head?, c ≠ '\x22' ∧ c ≠ '\'') :
    readText? (writeText cs ++ rest) = some (some (cs, rest)) := by
  have hdouble : ∀ c ∈ rest.head?, c ≠ '\x22' := fun c hc ↦ (hrest c hc).1
  have hsingle : ∀ c ∈ rest.head?, c ≠ '\'' := fun c hc ↦ (hrest c hc).2
  rw [writeText]
  cases hstyle : styleOf cs with
  | escaped =>
    -- a text that begins with a quote would be taken for one of several lines
    have hopen : ∀ rest', escapeFrom false 0 cs ++ '\x22' :: rest ≠ '\x22' :: '\x22' :: rest' := by
      rcases cs with _ | ⟨c, cs⟩
      · intro rest' h
        exact ne_cons_of_head? hdouble rest' (List.cons.inj h).2
      · exact fun rest' ↦ ne_cons_of_head? (head?_escapeFrom_escaped (by decide) c cs _) _
    show readText? ('\x22' :: (escapeFrom false 0 cs ++ ['\x22'] ++ rest)) = _
    rw [List.append_assoc, List.singleton_append, readText?.eq_2 _ hopen,
      readEscaped_escapeFrom_short]
  | raw =>
    obtain ⟨hquote, hplain⟩ := of_styleOf_eq_raw hstyle
    -- the same with single quotes
    have hopen : ∀ rest', cs ++ '\'' :: rest ≠ '\'' :: '\'' :: rest' := by
      rcases cs with _ | ⟨c, cs⟩
      · intro rest' h
        exact ne_cons_of_head? hsingle rest' (List.cons.inj h).2
      · intro rest' h
        obtain rfl := (List.cons.inj h).1
        exact hquote List.mem_cons_self
    show readText? ('\'' :: (cs ++ ['\''] ++ rest)) = _
    rw [List.append_assoc, List.singleton_append, readText?.eq_4 _ hopen,
      readRaw_short hquote hplain]
  | longEscaped =>
    show readText? ('\x22' :: '\x22' :: '\x22' ::
      (leadingBreak cs ++ escapeFrom true 0 cs ++ threeDouble ++ rest)) = _
    rw [readText?.eq_1, List.append_assoc, List.append_assoc, dropBreak_leadingBreak,
      ← List.append_assoc, readEscaped_escapeFrom_long 0 cs hdouble]
    rw [← List.append_assoc]
    exact fun hline ↦ head?_escapeFrom hline rest
  | longRaw =>
    obtain ⟨hruns, hplain⟩ := of_styleOf_eq_longRaw hstyle
    show readText? ('\'' :: '\'' :: '\'' :: (leadingBreak cs ++ cs ++ threeSingle ++ rest)) = _
    rw [readText?.eq_3, List.append_assoc, List.append_assoc, dropBreak_leadingBreak,
      ← List.append_assoc, readRaw_long hruns hplain hsingle]
    rw [← List.append_assoc]
    exact fun hline ↦ head?_long hplain hline rest

end GraphSession.Toml
