import GraphSession.Failure.Basic
import GraphSession.Url.Reader

/-!
# Settings

The settings of a session: where the backend is, how long things may take, and how much is cached.
Every setting has a default. Settings can hold any values; `validate` says which of them make a
session, and names the first thing that is wrong with the others.
-/

namespace GraphSession

/-- What can be set for a session. -/
structure Settings where
  /-- Where the backend answers requests. -/
  apiUrl : String
  /-- Where the channels of tasks are opened. -/
  wsUrl : String
  /-- How long a task may take, in milliseconds. -/
  taskTimeout : Nat
  /-- How long a request may take, in milliseconds. -/
  requestTimeout : Nat
  fileCacheSize : Nat
  resultCacheSize : Nat
  /-- The basic duration of the result cache, in milliseconds. -/
  resultBasicDuration : Nat
  deriving DecidableEq

namespace Settings

/-- What is set if nobody says otherwise; the addresses are those of a backend on the same machine.
-/
def default : Settings where
  apiUrl := "http://localhost:8000"
  wsUrl := "ws://localhost:8000"
  taskTimeout := 600000
  requestTimeout := 30000
  fileCacheSize := 20
  resultCacheSize := 30
  resultBasicDuration := 60000

/-- Inhabited by the settings of one who says nothing. -/
instance : Inhabited Settings := ⟨default⟩

/-- The names of the settings, in order. -/
def names : List String :=
  ["api_url", "ws_url", "task_timeout_ms", "request_timeout_ms", "file_cache_size",
    "result_cache_size", "result_basic_duration_ms"]

/-- Settings as an object, under the names of their fields. -/
def encode (s : Settings) : Json :=
  .obj [("api_url", .str s.apiUrl), ("ws_url", .str s.wsUrl),
    ("task_timeout_ms", .ofNat s.taskTimeout), ("request_timeout_ms", .ofNat s.requestTimeout),
    ("file_cache_size", .ofNat s.fileCacheSize), ("result_cache_size", .ofNat s.resultCacheSize),
    ("result_basic_duration_ms", .ofNat s.resultBasicDuration)]

/-- Settings from an object or a list; what is missing is as by default. -/
def decode : Decoder Settings := fun t ↦ do
  let r ← t.record "struct Settings" names
  r.finish <|
    Settings.mk <$> r.withDefault "api_url" Tree.string default.apiUrl
      <*> r.withDefault "ws_url" Tree.string default.wsUrl
      <*> r.withDefault "task_timeout_ms" Tree.nat64 default.taskTimeout
      <*> r.withDefault "request_timeout_ms" Tree.nat64 default.requestTimeout
      <*> r.withDefault "file_cache_size" Tree.nat64 default.fileCacheSize
      <*> r.withDefault "result_cache_size" Tree.nat64 default.resultCacheSize
      <*> r.withDefault "result_basic_duration_ms" Tree.nat64 default.resultBasicDuration

/-- What is wrong with a URL of the settings. -/
def checkUrl (what url : String) : Except Failure Unit :=
  match Url.ofText url with
  | .ok _ => .ok ()
  | .error e => .error (.settings ("invalid " ++ what ++ " " ++ url ++ ": " ++ e.message))

/-- Whether the settings make a session; sizes are looked at before times and times before URLs. -/
def validate (s : Settings) : Except Failure Unit :=
  if s.fileCacheSize = 0 ∨ s.resultCacheSize = 0 then
    .error (.settings "cache sizes must be at least 1")
  else if s.taskTimeout = 0 ∨ s.requestTimeout = 0 then
    .error (.settings "timeouts must be positive")
  else
    match checkUrl "api_url" s.apiUrl with
    | .error e => .error e
    | .ok _ => checkUrl "ws_url" s.wsUrl

end Settings

end GraphSession
