import Logbook.Note
import Logbook.Session.Receive
import Logbook.Session.Request

/-!
# Notes on a session

What each operation on a session leaves to be noted, told from the session before it.

- `Session.requestNotes`: on a request, told from the session with the request out.
- `Session.bulkNotes`, `Session.cursorNotes`: on records from the two channels.
-/

namespace Logbook.Session

/-- What is noted when the session has a request for `span` out. -/
def requestNotes (s : Session) (span : Span) : List Note :=
  [.requestOut s.id span s.progress.expected]

/-- What is noted when a record comes from the bulk channel. -/
def bulkNotes (s : Session) (r : Record) : List Note :=
  if r.position.IsSet then
    if r.position ∈ s.store then [.bulkDuplicate s.id r.position] else []
  else [.bulkUnset s.id]

/-- What is noted when a record comes from the cursor channel. -/
def cursorNotes (s : Session) (r : Record) : List Note :=
  let expected := s.expectedCursor r.position
  if r.position.IsSet then
    if expected < r.position then [.cursorAhead s.id expected r.position]
    else if r.position < expected then [.cursorBehind s.id expected r.position]
    else []
  else [.cursorUnset s.id]

end Logbook.Session
