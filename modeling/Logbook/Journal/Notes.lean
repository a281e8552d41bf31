import Logbook.Journal
import Logbook.Session.Notes

/-!
# Notes on a journal

What the operations on a journal leave to be noted, told from the journal before them.

- `Journal.ensureNotes`: on a session that is opened.
- `Journal.clearNotes`: on sessions that are dropped.
-/

namespace Logbook.Journal

/-- What is noted when the journal gets a session as its current one. -/
def ensureNotes (j : Journal) (info : SessionInfo) : List Note :=
  match j.current with
  | some s => if s.id = info.id then [] else [.sessionChanged j.device s.id info.id]
  | none => [.sessionOpened j.device info.id]

/-- What is noted when the journal loses its sessions. -/
def clearNotes (j : Journal) : List Note := [.journalCleared j.device j.sessions.length]

end Logbook.Journal
