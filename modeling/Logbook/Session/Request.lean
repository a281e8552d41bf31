import Logbook.Session.Basic

/-!
# Requests on the bulk channel

A request asks for a span of positions. Records of the span that are already held are not
expected again, so a transfer that was cut short goes on where it stopped, and a request that is
made anew starts its accounts anew.

- `Session.request`: the session with a new request out, which must have its bounds in order.
- `Session.requestTransfer`, `Session.requestBackfill`: the two kinds of request, which differ in
  what the cursor channel is expected to bring next.
- `Session.finish`: the session with no request out.
-/

namespace Logbook

/-- Why a request cannot be made. -/
inductive RequestError
  /-- The bounds of the span are out of order. -/
  | disordered (span : Span)
deriving DecidableEq

namespace Session

/-- The session with a request for `span` out, of which `held` records are held already. -/
def withRequest (s : Session) (span : Span) (held : Nat) (nextCursor : Position) : Session :=
  { s with
    nextBulk := some span.first
    nextCursor := some nextCursor
    progress := ⟨0, .ofNat (span.size - held), .ofNat span.size⟩
    patience := s.tolerance.ticks }

/-- Makes a request for a span and sets what the cursor channel is expected to bring next. -/
def request (s : Session) (span : Span) (nextCursor : Position) : Except RequestError Session :=
  if h : span.first ≤ span.last then
    .ok (s.withRequest span (s.store.window span.first span.last h).length nextCursor)
  else .error (.disordered span)

/-- Makes a request for a transfer: the cursor channel goes on after the span, so that all of
the span is left to the bulk channel. -/
def requestTransfer (s : Session) (span : Span) : Except RequestError Session :=
  s.request span span.last.next

/-- Makes a request for a hole while the cursor channel stands at `cursor`, from where it goes
on. -/
def requestBackfill (s : Session) (span : Span) (cursor : Position) :
    Except RequestError Session :=
  s.request span cursor.next

/-- The session with no request out. -/
def finish (s : Session) : Session := { s with nextBulk := none }

/-- The session with no expectation of the cursor channel, so that the first record after a
break in the link is not taken for a hole. -/
def forgetCursor (s : Session) : Session := { s with nextCursor := none }

end Session

end Logbook
