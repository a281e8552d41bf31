import Logbook.Progress
import Logbook.Wire.Atoms

/-!
# Records and snapshots as structured values

Each is written as an object and read from an object or from a list of its fields in order.
Fields of an object that have no meaning are passed over, but a period has no others.
-/

namespace Logbook.Wire

instance : Codec Period where
  write p := .object [("secs", write p.seconds), ("nanos", .int p.nanos)]
  read v := do
    let fields ← v.named ["secs", "nanos"]
    if fields.all fun (name, _) => name = "secs" || name = "nanos" then
      let seconds : UInt64 ← required fields "secs"
      let nanos : UInt32 ← required fields "nanos"
      match Period.ofParts? seconds.toNat nanos.toNat with
      | some p => return p
      | none => .error .malformed
    else .error .malformed

instance : Codec SessionInfo where
  write i := .object [("id", write i.id), ("sample_period", write i.period)]
  read v := do
    let fields ← v.named ["id", "sample_period"]
    return ⟨← required fields "id", ← required fields "sample_period"⟩

instance : Codec Span where
  write s := .object [("min", write s.first), ("max", write s.last)]
  read v := do
    let fields ← v.named ["min", "max"]
    return ⟨← required fields "min", ← required fields "max"⟩

instance : Codec Record where
  write r := .object [("sequence", write r.position), ("payload", write r.payload)]
  read v := do
    let fields ← v.named ["sequence", "payload"]
    return ⟨← required fields "sequence", ← required fields "payload"⟩

instance : Codec Placed where
  write p :=
    .object [("session_id", write p.session), ("timestamp_ms", write p.time),
      ("point", write p.record)]
  read v := do
    let fields ← v.named ["session_id", "timestamp_ms", "point"]
    return ⟨← required fields "session_id", ← optional fields "timestamp_ms",
      ← required fields "point"⟩

instance : Codec Progress where
  write p :=
    .object [("transferred", write p.transferred), ("expected", write p.expected),
      ("requested", write p.requested)]
  read v := do
    let fields ← v.named ["transferred", "expected", "requested"]
    return ⟨← required fields "transferred", ← required fields "expected",
      ← required fields "requested"⟩

instance : Codec Status where
  write s :=
    .object [("session_id", write s.session), ("min_seq", write s.lowest),
      ("max_seq", write s.highest), ("record_count", write s.count)]
  read v := do
    let fields ← v.named ["session_id", "min_seq", "max_seq", "record_count"]
    return ⟨← required fields "session_id", ← optional fields "min_seq",
      ← optional fields "max_seq", ← required fields "record_count"⟩

end Logbook.Wire
