import Mathlib.Data.List.Induction
import Mathlib.Tactic.SplitIfs
import GraphSession.Proofs.Json.Numerals
import GraphSession.Proofs.Text.Cutting
import GraphSession.Settings.Variables

/-!
# The last variable that counts

Each setting is decided by itself: by the last variable that bears its name and has a value it can
use, or by its default (`Settings.ofVariables_lastCounts`). What counts is stated without the reader
of values: an address takes any text, a number takes its decimal digits with blanks around them,
zeros in front and a plus sign (`Settings.Spells`). Variables of other names and values that cannot
be used pass without a trace, and variables of different names can change places.
-/

namespace GraphSession.Settings

/-! ### Numbers in digits -/

/-- A number in decimal digits, with any zeros in front. -/
def InDigits (ds : List Char) (n : Nat) : Prop :=
  ∃ zeros, ds = List.replicate zeros '0' ++ Nat.toDigits 10 n

/-- A value spells a number of 64 bits: between blanks there are its digits, after a plus sign or
not. -/
def Spells (value : String) (n : Nat) : Prop :=
  n < Nat.pow 2 64 ∧ ∃ ds, InDigits ds n ∧
    (Text.IsTrimmed value.toList ds ∨ Text.IsTrimmed value.toList ('+' :: ds))

/-- The number of some digits. -/
def valueOf (ds : List Char) : Nat := Numeral.naturalOf (ds.map fun c ↦ c.toNat - 48)

/-- A digit at the end is worth itself, and makes the digits before it worth ten times as much. -/
theorem valueOf_append_singleton (ds : List Char) (c : Char) :
    valueOf (ds ++ [c]) = 10 * valueOf ds + (c.toNat - 48) := by
  simp [valueOf, Numeral.naturalOf]

theorem InDigits.isDigit {ds : List Char} {n : Nat} (h : InDigits ds n) :
    ∀ c ∈ ds, c.isDigit = true := by
  obtain ⟨zeros, rfl⟩ := h
  intro c hc
  rcases List.mem_append.1 hc with hzero | hdigit
  · rw [List.eq_of_mem_replicate hzero]
    rfl
  · exact Json.isDigit_of_mem hdigit

theorem InDigits.ne_nil {ds : List Char} {n : Nat} (h : InDigits ds n) : ds ≠ [] := by
  obtain ⟨zeros, rfl⟩ := h
  exact List.append_ne_nil_of_right_ne_nil _ Nat.toDigits_ne_nil

/-- The digits of a number are worth the number. -/
theorem InDigits.valueOf_eq {ds : List Char} {n : Nat} (h : InDigits ds n) : valueOf ds = n := by
  obtain ⟨zeros, rfl⟩ := h
  have hzeros : ((List.replicate zeros '0').map fun c ↦ c.toNat - 48).foldl
      (fun n d ↦ 10 * n + d) 0 = 0 := by
    induction zeros with
    | zero => rfl
    | succ zeros ih => rwa [List.replicate_succ, List.map_cons, List.foldl_cons]
  rw [valueOf, Numeral.naturalOf, List.map_append, List.foldl_append, hzeros]
  exact Json.naturalOf_valuesOf n

theorem digitChar_value {c : Char} (hc : c.isDigit = true) : Nat.digitChar (c.toNat - 48) = c := by
  have hdigit : ∀ d < 10, Nat.digitChar d = Char.ofNat (48 + d) := by decide
  obtain ⟨hlow, hhigh⟩ := Json.toNat_of_isDigit hc
  rw [hdigit _ (by omega), Nat.add_sub_cancel' hlow, Char.ofNat_toNat]

/-- One more digit at the end. -/
theorem InDigits.append_singleton {ds : List Char} {n : Nat} (h : InDigits ds n) {c : Char}
    (hc : c.isDigit = true) : InDigits (ds ++ [c]) (10 * n + (c.toNat - 48)) := by
  obtain ⟨zeros, rfl⟩ := h
  have hvalue : c.toNat - 48 < 10 := by
    have := Json.toNat_of_isDigit hc
    omega
  have hlast : Nat.toDigits 10 (c.toNat - 48) = [c] := by
    rw [Nat.toDigits_of_lt_base hvalue, digitChar_value hc]
  rcases Nat.eq_zero_or_pos n with rfl | hn
  · -- the digit of zero is one more zero in front
    refine ⟨zeros + 1, ?_⟩
    rw [Nat.mul_zero, Nat.zero_add, hlast, List.replicate_succ']
    rfl
  · refine ⟨zeros, ?_⟩
    rw [← Nat.toDigits_append_toDigits (by decide) hn hvalue, hlast, List.append_assoc]

/-- Digits are the digits of the number that they make. -/
theorem inDigits_valueOf {ds : List Char} (hne : ds ≠ []) (h : ∀ c ∈ ds, c.isDigit = true) :
    InDigits ds (valueOf ds) := by
  induction ds using List.reverseRecOn with
  | nil => exact absurd rfl hne
  | append_singleton ds c ih =>
    have hc : c.isDigit = true := h c (List.mem_append_right ds List.mem_cons_self)
    rw [valueOf_append_singleton]
    rcases eq_or_ne ds [] with rfl | hds
    · refine ⟨0, ?_⟩
      have hvalue : c.toNat - 48 < 10 := by
        have := Json.toNat_of_isDigit hc
        omega
      show [c] = Nat.toDigits 10 (0 + (c.toNat - 48))
      rw [Nat.zero_add, Nat.toDigits_of_lt_base hvalue, digitChar_value hc]
    · exact (ih hds fun c hc ↦ h c (List.mem_append_left _ hc)).append_singleton hc

/-- Digits are read as their number, if it fits into a word. -/
theorem digits?_eq_some_iff {ds : List Char} {n : Nat} :
    digits? ds = some n ↔ InDigits ds n ∧ n < Nat.pow 2 64 := by
  show (if _ then none else
    if valueOf ds < Nat.pow 2 64 then some (valueOf ds) else none) = some n ↔ _
  constructor
  · intro h
    split_ifs at h with hbad hsmall
    obtain rfl : valueOf ds = n := Option.some.inj h
    rw [Bool.or_eq_true, not_or, Bool.not_eq_true', Bool.not_eq_false, List.all_eq_true] at hbad
    exact ⟨inDigits_valueOf (fun hnil ↦ hbad.1 (List.isEmpty_iff.2 hnil)) hbad.2, hsmall⟩
  · rintro ⟨hds, hn⟩
    have hgood : (ds.isEmpty || !ds.all Char.isDigit) = false := by
      rw [List.all_eq_true.2 hds.isDigit, List.isEmpty_eq_false_iff.2 hds.ne_nil]
      rfl
    obtain rfl := hds.valueOf_eq
    rw [hgood, if_neg Bool.false_ne_true, if_pos hn]

theorem InDigits.ne_plus {ds cs : List Char} {n : Nat} (h : InDigits ds n) : ds ≠ '+' :: cs := by
  rintro rfl
  exact absurd (h.isDigit '+' List.mem_cons_self) (by decide)

/-- **A value is read as the number that it spells**, and no other is read. -/
theorem number?_eq_some_iff {value : String} {n : Nat} :
    number? value = some n ↔ Spells value n := by
  have htrim : ∀ ds, Text.IsTrimmed value.toList ds ↔ Text.trim value.toList = ds := fun ds ↦
    Text.trim_eq_iff.symm
  simp only [Spells, htrim]
  rw [number?]
  split
  · rename_i cs htext
    rw [htext, digits?_eq_some_iff]
    constructor
    · rintro ⟨hcs, hn⟩
      exact ⟨hn, cs, hcs, .inr rfl⟩
    · rintro ⟨hn, ds, hds, rfl | hplus⟩
      · exact absurd rfl hds.ne_plus
      · exact ⟨(List.cons.inj hplus).2 ▸ hds, hn⟩
  · rename_i hplain
    rw [digits?_eq_some_iff]
    constructor
    · rintro ⟨hds, hn⟩
      exact ⟨hn, _, hds, .inl rfl⟩
    · rintro ⟨hn, ds, hds, htext | htext⟩
      · exact ⟨htext ▸ hds, hn⟩
      · exact absurd htext (hplain ds)

/-! ### One setting after the other -/

/-- The settings, each with the kind of its values. -/
inductive Setting : Type → Type
  | apiUrl : Setting String
  | wsUrl : Setting String
  | taskTimeout : Setting Nat
  | requestTimeout : Setting Nat
  | fileCacheSize : Setting Nat
  | resultCacheSize : Setting Nat
  | resultBasicDuration : Setting Nat

namespace Setting

variable {α : Type}

/-- The name of the variable for a setting. -/
def variableName : Setting α → String
  | apiUrl => "FLOWSYNC_API_URL"
  | wsUrl => "FLOWSYNC_WS_URL"
  | taskTimeout => "FLOWSYNC_TASK_TIMEOUT_MS"
  | requestTimeout => "FLOWSYNC_REQUEST_TIMEOUT_MS"
  | fileCacheSize => "FLOWSYNC_FILE_CACHE_SIZE"
  | resultCacheSize => "FLOWSYNC_RESULT_CACHE_SIZE"
  | resultBasicDuration => "FLOWSYNC_RESULT_BASIC_DURATION_MS"

/-- The value of a setting. -/
def get (s : Settings) : Setting α → α
  | apiUrl => s.apiUrl
  | wsUrl => s.wsUrl
  | taskTimeout => s.taskTimeout
  | requestTimeout => s.requestTimeout
  | fileCacheSize => s.fileCacheSize
  | resultCacheSize => s.resultCacheSize
  | resultBasicDuration => s.resultBasicDuration

/-- What the value of a variable says for a setting. -/
def read? (value : String) : Setting α → Option α
  | apiUrl | wsUrl => some value
  | taskTimeout | requestTimeout | fileCacheSize | resultCacheSize | resultBasicDuration =>
      number? value

/-- What the value of a variable is for a setting: an address takes any text as it is. -/
def Takes (value : String) : (f : Setting α) → α → Prop
  | apiUrl, a | wsUrl, a => a = value
  | taskTimeout, n | requestTimeout, n | fileCacheSize, n | resultCacheSize, n
  | resultBasicDuration, n =>
    Spells value n

/-- A value is read for a setting exactly when the setting takes it. -/
theorem read?_eq_some_iff {f : Setting α} {value : String} {a : α} :
    f.read? value = some a ↔ f.Takes value a := by
  cases f with
  | apiUrl | wsUrl => exact Option.some_inj.trans eq_comm
  | taskTimeout | requestTimeout | fileCacheSize | resultCacheSize | resultBasicDuration =>
    exact number?_eq_some_iff

/-- Settings are known by each of them. -/
theorem ext_get {s s' : Settings} (h : ∀ {α} (f : Setting α), f.get s = f.get s') : s = s' := by
  cases s
  cases s'
  simp only [mk.injEq]
  exact ⟨h apiUrl, h wsUrl, h taskTimeout, h requestTimeout, h fileCacheSize, h resultCacheSize,
    h resultBasicDuration⟩

theorem variableNames : variableHead ++ "API_URL" = variableName apiUrl ∧
    variableHead ++ "WS_URL" = variableName wsUrl ∧
    variableHead ++ "TASK_TIMEOUT_MS" = variableName taskTimeout ∧
    variableHead ++ "REQUEST_TIMEOUT_MS" = variableName requestTimeout ∧
    variableHead ++ "FILE_CACHE_SIZE" = variableName fileCacheSize ∧
    variableHead ++ "RESULT_CACHE_SIZE" = variableName resultCacheSize ∧
    variableHead ++ "RESULT_BASIC_DURATION_MS" = variableName resultBasicDuration := by
  decide

/-- **A variable changes the setting of its name**, if it has a value for it, and no other. -/
theorem get_override (s : Settings) (name value : String) (f : Setting α) :
    get (s.override name value) f = if name = f.variableName then (f.read? value).getD (f.get s)
    else f.get s := by
  rcases variableNames with ⟨h1, h2, h3, h4, h5, h6, h7⟩
  rw [override, h1, h2, h3, h4, h5, h6, h7]
  by_cases hname : name = f.variableName
  · subst hname
    rw [if_pos rfl]
    cases hnumber : number? value <;> cases f <;> (simp only [read?, hnumber]; rfl)
  · rw [if_neg hname]
    cases f <;> split_ifs <;> rcases number? value with _ | n <;> rfl

/-- A variable counts for a setting: it bears the name, and has a value that the setting can use. -/
def Counts (f : Setting α) (v : String × String) : Prop := v.1 = f.variableName ∧ ∃ a, f.Takes v.2 a

/-- What variables make of a setting: the value of the last one that counts, or the default if none
does. -/
inductive Decides (vars : List (String × String)) (f : Setting α) : α → Prop
  | last {front back : List (String × String)} {value : String} {a : α}
    (split : vars = front ++ (f.variableName, value) :: back) (takes : f.Takes value a)
    (rest : ∀ v ∈ back, ¬f.Counts v) : Decides vars f a
  | default (none_counts : ∀ v ∈ vars, ¬f.Counts v) : Decides vars f (f.get Settings.default)

/-- The value that a variable has for a setting. -/
def valueIn? (f : Setting α) (v : String × String) : Option α :=
  if v.1 = f.variableName then f.read? v.2 else none

/-- A variable has a value for a setting when it bears the name and the setting takes its value. -/
theorem valueIn?_eq_some_iff {f : Setting α} {v : String × String} {a : α} :
    f.valueIn? v = some a ↔ v.1 = f.variableName ∧ f.Takes v.2 a := by
  rw [valueIn?, ← read?_eq_some_iff]
  split_ifs with hname
  · exact (and_iff_right hname).symm
  · exact iff_of_false nofun fun h ↦ hname h.1

/-- A variable has no value for a setting exactly when it does not count for it. -/
theorem valueIn?_eq_none_iff {f : Setting α} {v : String × String} :
    f.valueIn? v = none ↔ ¬f.Counts v := by
  rw [Option.eq_none_iff_forall_ne_some, Counts]
  simp only [ne_eq, valueIn?_eq_some_iff, ← exists_and_left, not_exists]

/-- A variable overrides the settings that it counts for, and no others. -/
theorem get_override_eq (s : Settings) (v : String × String) (f : Setting α) :
    f.get (s.override v.1 v.2) = (f.valueIn? v).getD (f.get s) := by
  rw [get_override, valueIn?]
  split_ifs <;> rfl

/-- One more variable decides the settings that it counts for. -/
theorem get_ofVariables_append_singleton (vars : List (String × String)) (v : String × String)
    (f : Setting α) :
    f.get (ofVariables (vars ++ [v])) = (f.valueIn? v).getD (f.get (ofVariables vars)) := by
  rw [ofVariables, List.foldl_append]
  exact get_override_eq _ v f

/-- A variable that does not count changes no decision. -/
theorem Decides.append_singleton {vars : List (String × String)} {f : Setting α} {a : α}
    (h : Decides vars f a) {v : String × String} (hv : ¬f.Counts v) :
    Decides (vars ++ [v]) f a := by
  rcases h with ⟨rfl, takes, rest⟩ | none_counts
  · refine .last (List.append_assoc _ _ _) takes ?_
    exact List.forall_mem_append.2 ⟨rest, List.forall_mem_singleton.2 hv⟩
  · exact .default (List.forall_mem_append.2 ⟨none_counts, List.forall_mem_singleton.2 hv⟩)

/-- **The last variable that counts decides.** -/
theorem decides_ofVariables (vars : List (String × String)) (f : Setting α) :
    Decides vars f (f.get (ofVariables vars)) := by
  induction vars using List.reverseRecOn with
  | nil => exact .default (List.forall_mem_nil _)
  | append_singleton vars v ih =>
    rw [get_ofVariables_append_singleton]
    rcases hvalue : f.valueIn? v with _ | a
    · exact ih.append_singleton (valueIn?_eq_none_iff.1 hvalue)
    · obtain ⟨hname, htakes⟩ := valueIn?_eq_some_iff.1 hvalue
      have hsplit : vars ++ [v] = vars ++ (f.variableName, v.2) :: [] := by rw [← hname]
      exact .last hsplit htakes (List.forall_mem_nil _)

/-- The values that variables have for a setting, in order. -/
def values (f : Setting α) (vars : List (String × String)) : List α := vars.filterMap f.valueIn?

/-- A setting depends on nothing but the values that there are for it. -/
theorem get_ofVariables (vars : List (String × String)) (f : Setting α) :
    f.get (ofVariables vars) = (f.values vars).getLast?.getD (f.get Settings.default) := by
  induction vars using List.reverseRecOn with
  | nil => rfl
  | append_singleton vars v ih =>
    rw [get_ofVariables_append_singleton, ih, values, values, List.filterMap_append,
      List.filterMap_cons]
    rcases f.valueIn? v with _ | a
    · rw [List.filterMap_nil, List.append_nil]
      rfl
    · rw [List.filterMap_nil, List.getLast?_concat]
      rfl

/-- Values come from the variables of the name. -/
theorem values_eq_filter (f : Setting α) (vars : List (String × String)) :
    f.values vars = f.values (vars.filter fun v ↦ v.1 = f.variableName) := by
  rw [values, values, List.filterMap_filter]
  refine congrArg (List.filterMap · vars) (funext fun v ↦ ?_)
  rw [valueIn?]
  simp only [decide_eq_true_eq]
  split_ifs <;> rfl

end Setting

/-- **The last variable that counts decides on a setting**, so a variable that counts for no setting
can be left out, and variables may change places with those of other names. -/
theorem ofVariables_lastCounts (vars : List (String × String)) :
    (∀ {α : Type} (f : Setting α), f.Decides vars (f.get (ofVariables vars))) ∧
      (∀ front v back, vars = front ++ v :: back → (∀ {α : Type} (f : Setting α), ¬f.Counts v) →
        ofVariables vars = ofVariables (front ++ back)) ∧
      ∀ vars', (∀ name, vars.filter (·.1 = name) = vars'.filter (·.1 = name)) →
        ofVariables vars = ofVariables vars' := by
  refine ⟨fun f ↦ f.decides_ofVariables vars, ?_, ?_⟩
  · rintro front v back rfl hv
    refine Setting.ext_get fun f ↦ ?_
    rw [f.get_ofVariables, f.get_ofVariables, Setting.values, Setting.values, List.filterMap_append,
      List.filterMap_append, List.filterMap_cons_none (Setting.valueIn?_eq_none_iff.2 (hv f))]
  · intro vars' hsame
    refine Setting.ext_get fun f ↦ ?_
    rw [f.get_ofVariables, f.get_ofVariables, f.values_eq_filter vars, f.values_eq_filter vars',
      hsame]

/-- The size of a cache is set to 7 and then to 8; a number of 65 bits and a foreign name do not
count. -/
def mixedVariables : List (String × String) :=
  [("FLOWSYNC_FILE_CACHE_SIZE", "7"), ("FLOWSYNC_FILE_CACHE_SIZE", " +08 "),
    ("FLOWSYNC_API_URL", "a"), ("FLOWSYNC_FILE_CACHE_SIZE", "18446744073709551616"),
    ("FILE_CACHE_SIZE", "9")]

/-- The same, with the address in front. -/
def reorderedVariables : List (String × String) :=
  ("FLOWSYNC_API_URL", "a") :: mixedVariables.eraseIdx 2

/-- Of three sizes the last usable one counts, wherever the address stands. -/
theorem lastCounts_mixedVariables :
    (∀ {α : Type} (f : Setting α), ¬f.Counts ("FILE_CACHE_SIZE", "9")) ∧
      ofVariables mixedVariables = ofVariables mixedVariables.dropLast ∧
      (∀ name, mixedVariables.filter (·.1 = name) = reorderedVariables.filter (·.1 = name)) ∧
      ofVariables mixedVariables = ofVariables reorderedVariables ∧
      (ofVariables mixedVariables).fileCacheSize = 8 := by
  have hforeign : ∀ {α : Type} (f : Setting α), ¬f.Counts ("FILE_CACHE_SIZE", "9") := fun f h ↦ by
    cases f <;> exact absurd h.1 (by decide)
  have hsame : ∀ name, mixedVariables.filter (·.1 = name) =
      reorderedVariables.filter (·.1 = name) := by
    intro name
    by_cases hname : name = "FLOWSYNC_API_URL"
    · subst hname
      decide
    · simp [mixedVariables, reorderedVariables, List.filter_cons, Ne.symm hname]
  obtain ⟨-, hleft, hmoved⟩ := ofVariables_lastCounts mixedVariables
  exact ⟨hforeign, hleft (mixedVariables.take 4) _ [] rfl hforeign, hsame,
    hmoved _ hsame, by decide +kernel⟩

end GraphSession.Settings
