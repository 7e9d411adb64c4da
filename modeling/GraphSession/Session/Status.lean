import GraphSession.Project.Wire

/-!
# The status of syncing

What a user sees of the syncs of a session: whether one is under way, the last problem, and when
results were last written back.
-/

namespace GraphSession

/-- What a session shows of its syncs. -/
structure SyncStatus where
  syncing : Bool
  /-- The last problem, until a later sync clears it. -/
  message : Option String
  lastSynced : Option Moment
  deriving DecidableEq

namespace SyncStatus

/-- Before the first sync. -/
def fresh : SyncStatus := ⟨false, none, none⟩

/-- Inhabited by the status of a session on which nothing was called for. -/
instance : Inhabited SyncStatus := ⟨fresh⟩

/-- A status as an object, with every field written, if only as null. -/
def encode (s : SyncStatus) : Json :=
  .obj [("syncing", .bool s.syncing), ("syncing_err_msg", .ofOption .str s.message),
    ("last_synced_at", .ofOption Moment.encode s.lastSynced)]

/-- A status from an object or a list, all of whose fields have to be there, if only as null. -/
def decode : Decoder SyncStatus := fun t ↦ do
  let r ← t.record "struct SyncStatus" ["syncing", "syncing_err_msg", "last_synced_at"]
  r.finish <|
    SyncStatus.mk <$> r.required "syncing" Tree.flag
      <*> r.nullable "syncing_err_msg" Tree.string
      <*> r.nullable "last_synced_at" Moment.decode

end SyncStatus

end GraphSession
