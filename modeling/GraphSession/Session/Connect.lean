import GraphSession.Remote.TaskAddress
import GraphSession.Session.Basic

/-!
# Connecting

A session over the backend and the channels that its settings name. Both addresses have to be URLs
before anything else about the settings is looked at. Nothing is sent yet.
-/

namespace GraphSession.Session

/-- A session with everybody at hand, if both addresses can be read and the settings hold. -/
def connect (settings : Settings) (p : Project) (clock : Moment) : Except Failure Session :=
  match Url.require settings.apiUrl, Url.require settings.wsUrl with
  | .error e, _ => .error e
  | .ok _, .error e => .error e
  | .ok _, .ok _ => build settings .all p clock

end GraphSession.Session
