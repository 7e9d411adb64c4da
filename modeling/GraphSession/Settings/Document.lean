import GraphSession.Settings.Basic
import GraphSession.Toml.Reader
import GraphSession.Toml.Writer

/-!
# Settings in a configuration document

A document binds settings at its top level; what it binds beyond them is passed over, and what it
leaves out has its default. Settings are texts and whole numbers, so any other value is as good as
unreadable where a setting is asked for.

Of a document that cannot be read only that is told; one that can is checked before it is accepted.
-/

namespace GraphSession

/-- What a setting can see of a value. -/
def TomlValue.asTree : TomlValue → Tree
  | .text s => .str s
  | .integer n => .int n
  | .flag b => .bool b
  | _ => .unusable

namespace Settings

/-- A document that is none. -/
def unreadable : Failure := .settings "TOML parse error"

/-- The settings of a table, before they are checked. -/
def ofTable? (t : TomlTable) : Option Settings :=
  match decode (.obj (t.map fun e ↦ (e.1, e.2.asTree))) with
  | .ok s => some s
  | .error _ => none

/-- The settings of a document. -/
def ofDocument (text : String) : Except Failure Settings :=
  match (Toml.ofText? text).bind ofTable? with
  | none => .error unreadable
  | some s => s.validate.map fun _ ↦ s

/-- The document that binds every setting. -/
def document (s : Settings) : String :=
  String.ofList <|
    Toml.writeBinding "api_url" (Toml.writeText s.apiUrl.toList) ++
    Toml.writeBinding "ws_url" (Toml.writeText s.wsUrl.toList) ++
    Toml.writeBinding "task_timeout_ms" (Toml.writeNat s.taskTimeout) ++
    Toml.writeBinding "request_timeout_ms" (Toml.writeNat s.requestTimeout) ++
    Toml.writeBinding "file_cache_size" (Toml.writeNat s.fileCacheSize) ++
    Toml.writeBinding "result_cache_size" (Toml.writeNat s.resultCacheSize) ++
    Toml.writeBinding "result_basic_duration_ms" (Toml.writeNat s.resultBasicDuration)

end Settings

end GraphSession
