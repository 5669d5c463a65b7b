import SimpleQuery.Session.Basic
import SimpleQuery.Settings.Environment

/-!
# Opening a session

A session can be opened in one call, which first finds its settings.

Model of `connect`.
-/

set_option autoImplicit false

namespace SimpleQuery

/-- What comes of opening a session. -/
inductive Opening where
  /-- There are no settings, and the link was not used. -/
  | unsettled (fault : SettingsFault)
  /-- The session could not be opened. The link is left. -/
  | failed (fault : Fault) (link : Link)
  | opened (session : Session)

/-- Opens a session on a link, with the settings that are given or else those of the environment, where
named values go first. -/
def Session.openOn (codecs : Codecs) (env : Environment) (given : Option Settings)
    (overrides : List (String × Value)) (handling : NoticeHandling) (link : Link) : Opening :=
  match Settings.forConnection codecs env given overrides with
  | .error fault => .unsettled fault
  | .ok settings =>
    match connect { settings, handling, phase := .fresh link } with
    | .ok () session => .opened session
    | .error fault session => .failed fault session.phase.link

end SimpleQuery
