import GraphSession.Cache.Fetch
import GraphSession.Failure.Basic
import GraphSession.Output.Basic

/-!
# Cached files

File contents are cached under their storage keys. Reads go through the cache; an upload or a delete
that the store has acknowledged drops what was cached under its key. A failed one drops nothing, and
lists are not cached.
-/

namespace GraphSession

/-- A cache of file contents, by storage key. -/
abbrev FileCache := FrequencyCache FileContent

namespace FileCache

/-- After the store has answered an upload. -/
def afterUpload (c : FileCache) : Except Failure FileRef → FileCache
  | .ok file => c.remove file.key
  | .error _ => c

/-- After the store has answered the delete of a key. -/
def afterDelete (c : FileCache) (key : String) : Except Failure Unit → FileCache
  | .ok _ => c.remove key
  | .error _ => c

end FileCache

end GraphSession
