import GraphSession.Proofs.Json.Records
import GraphSession.Proofs.Toml.Lines
import GraphSession.Settings.Document

/-!
# Settings come back from their document

The document of any settings is read, and gives the settings themselves or what is wrong with them
(`Settings.ofDocument_document`): the addresses are any texts, and the numbers all those of 64 bits.
No setting is lost on the way, so no default stands in for one.
-/

namespace GraphSession.Settings

open Gathered Record

/-- The numbers of the settings are of 64 bits. -/
structure FitsWords (s : Settings) : Prop where
  taskTimeout : s.taskTimeout < Nat.pow 2 64
  requestTimeout : s.requestTimeout < Nat.pow 2 64
  fileCacheSize : s.fileCacheSize < Nat.pow 2 64
  resultCacheSize : s.resultCacheSize < Nat.pow 2 64
  resultBasicDuration : s.resultBasicDuration < Nat.pow 2 64

/-- Every name of a setting can stand in a document without quotes. -/
theorem isBare_of_mem_names {name : String} (hname : name ∈ names) : Toml.IsBare name.toList := by
  have hnames : (names.all fun name ↦ !name.toList.isEmpty && name.toList.all Toml.isKeyChar) =
      true := by decide
  obtain ⟨hne, hchars⟩ := Bool.and_eq_true_iff.1 (List.all_eq_true.1 hnames name hname)
  exact ⟨by simpa using hne, List.all_eq_true.1 hchars⟩

/-- A line that binds an address. -/
def addressLine (name : String) (hname : name ∈ names) (url : String) : Toml.Line where
  name := name
  written := Toml.writeText url.toList
  value := .text url
  isBare := isBare_of_mem_names hname
  writes := Toml.writes_writeText url

/-- A line that binds a number. -/
def numberLine (name : String) (hname : name ∈ names) (n : Nat) (hn : n < Nat.pow 2 64) :
    Toml.Line where
  name := name
  written := Toml.writeNat n
  value := .integer n
  isBare := isBare_of_mem_names hname
  writes := Toml.writes_writeNat (Nat.lt_trans hn (by decide))

/-- The lines of a document. -/
def lines (s : Settings) (h : s.FitsWords) : List Toml.Line :=
  [addressLine "api_url" (by decide) s.apiUrl, addressLine "ws_url" (by decide) s.wsUrl,
    numberLine "task_timeout_ms" (by decide) s.taskTimeout h.taskTimeout,
    numberLine "request_timeout_ms" (by decide) s.requestTimeout h.requestTimeout,
    numberLine "file_cache_size" (by decide) s.fileCacheSize h.fileCacheSize,
    numberLine "result_cache_size" (by decide) s.resultCacheSize h.resultCacheSize,
    numberLine "result_basic_duration_ms" (by decide) s.resultBasicDuration h.resultBasicDuration]

section

variable {s : Settings} (h : s.FitsWords)
include h

/-- The document of settings is the text of its lines. -/
theorem document_eq : s.document = String.ofList ((s.lines h).flatMap Toml.Line.text) := by
  simp only [document, lines, addressLine, numberLine, Toml.Line.text, List.flatMap_cons,
    List.flatMap_nil, List.append_nil, List.append_assoc]

/-- **A document binds every setting,** to the value it has. -/
theorem ofText?_document : Toml.ofText? s.document = some (Toml.table (s.lines h)) := by
  have hnames : ((s.lines h).map Toml.Line.name).Nodup := by
    show names.Nodup
    decide
  rw [document_eq h, Toml.ofText?_flatMap_text hnames]

/-- Settings are recovered from their fields. -/
theorem recovers : Recovers encode decode s := by
  have hdistinct : names.Nodup := by decide
  refine Record.recovered_of_distinct hdistinct
    (seq_value (seq_value (seq_value (seq_value (seq_value (seq_value
      (map_value _ ?apiUrl) ?wsUrl) ?task) ?request) ?files) ?results) ?basic)
  case apiUrl => exact withDefault_of_lookup rfl (Tree.string_recovers s.apiUrl)
  case wsUrl => exact withDefault_of_lookup rfl (Tree.string_recovers s.wsUrl)
  case task => exact withDefault_of_lookup rfl (Tree.nat64_recovers h.taskTimeout)
  case request => exact withDefault_of_lookup rfl (Tree.nat64_recovers h.requestTimeout)
  case files => exact withDefault_of_lookup rfl (Tree.nat64_recovers h.fileCacheSize)
  case results => exact withDefault_of_lookup rfl (Tree.nat64_recovers h.resultCacheSize)
  case basic => exact withDefault_of_lookup rfl (Tree.nat64_recovers h.resultBasicDuration)

/-- The settings are read back from the table of their lines. -/
theorem ofTable?_table : ofTable? (Toml.table (s.lines h)) = some s := by
  have htree : Tree.obj ((Toml.table (s.lines h)).map fun e ↦ (e.1, e.2.asTree)) =
      Tree.ofJson s.encode := rfl
  have hdecode : decode (Tree.ofJson s.encode) = .ok s := recovers h
  rw [ofTable?, htree, hdecode]

end

/-- An address that is no address is reported as such, and never as an unreadable document. -/
theorem checkUrl_ne_unreadable (what url : String) : checkUrl what url ≠ .error unreadable := by
  rw [checkUrl]
  split
  · nofun
  · intro h
    have hreason := congrArg String.toList (Failure.settings.inj (Except.error.inj h))
    simp at hreason

/-- What is wrong with settings is never that a document cannot be read. -/
theorem validate_ne_unreadable (s : Settings) : s.validate ≠ .error unreadable := by
  rw [validate]
  split_ifs with hsize htime
  · exact fun h ↦ absurd (Failure.settings.inj (Except.error.inj h)) (by decide)
  · exact fun h ↦ absurd (Failure.settings.inj (Except.error.inj h)) (by decide)
  · split
    · rename_i e hurl
      rintro ⟨⟩
      exact checkUrl_ne_unreadable "api_url" s.apiUrl hurl
    · exact checkUrl_ne_unreadable "ws_url" s.wsUrl

/-- **Settings come back from their document,** or what is wrong with them does; that the document
cannot be read is never told. -/
theorem ofDocument_document {s : Settings} (h : s.FitsWords) :
    ofDocument s.document = (s.validate.map fun _ ↦ s) ∧
      ofDocument s.document ≠ .error unreadable := by
  have hread : (Toml.ofText? s.document).bind ofTable? = some s := by
    rw [ofText?_document h, Option.bind_some, ofTable?_table h]
  have hsame : ofDocument s.document = s.validate.map fun _ ↦ s := by
    rw [ofDocument, hread]
  refine ⟨hsame, fun hunreadable ↦ ?_⟩
  cases hs : s.validate with
  | error e =>
    rw [hsame, hs] at hunreadable
    cases hunreadable
    exact s.validate_ne_unreadable hs
  | ok _ =>
    rw [hsame, hs] at hunreadable
    cases hunreadable

/-- Settings at the limits, with quotes, a backslash, a line break and a control in an address. -/
def intricate (wsUrl : String) : Settings where
  apiUrl := "http://localhost/\"\"\"'''\\\n\x07"
  wsUrl := wsUrl
  taskTimeout := 18446744073709551615
  requestTimeout := 1
  fileCacheSize := 18446744073709551615
  resultCacheSize := 1
  resultBasicDuration := 0

/-- Settings with quotes and line breaks in them come back, and an empty address is reported. -/
theorem ofDocument_intricate : (∀ wsUrl, (intricate wsUrl).FitsWords) ∧
    ofDocument (intricate "ws://localhost").document = .ok (intricate "ws://localhost") ∧
    ofDocument (intricate "").document =
      .error (.settings "invalid ws_url : relative URL without a base") := by
  have hfits : ∀ wsUrl, (intricate wsUrl).FitsWords := by
    have hmost : 18446744073709551615 < Nat.pow 2 64 := by decide
    have hone : 1 < Nat.pow 2 64 := by decide
    exact fun wsUrl ↦ ⟨hmost, hone, hmost, hone, Nat.zero_lt_of_lt hone⟩
  obtain ⟨haccepted, -⟩ := ofDocument_document (hfits "ws://localhost")
  obtain ⟨hrejected, -⟩ := ofDocument_document (hfits "")
  exact ⟨hfits, haccepted.trans (by decide +kernel), hrejected.trans (by decide +kernel)⟩

end GraphSession.Settings
