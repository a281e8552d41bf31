import Logbook.Message
import Logbook.Wire.Records

/-!
# Messages as structured values

An alternative without fields is its name, or an object with that one name and a null body. One
with fields is an object with that one name, whose body is the object of its fields.
-/

namespace Logbook.Wire

/-- An alternative with its fields. -/
def alternative (name : String) (fields : List (String × Value)) : Value :=
  .object [(name, .object fields)]

instance : Codec UploadState where
  write
    | .unavailable => .text "Unavailable"
    | .transferNeeded => .text "TransferNeeded"
    | .inProgress transferred requested =>
      alternative "InProgress"
        [("transferred", write transferred), ("requested", write requested)]
    | .complete lowest highest total =>
      alternative "Complete"
        [("min_seq", write lowest), ("max_seq", write highest), ("total", write total)]
  read v := do
    match ← v.variant with
    | ("Unavailable", .null) => return .unavailable
    | ("TransferNeeded", .null) => return .transferNeeded
    | ("InProgress", .object fields) =>
      return .inProgress (← required fields "transferred") (← required fields "requested")
    | ("Complete", .object fields) =>
      return .complete (← optional fields "min_seq") (← optional fields "max_seq")
        (← required fields "total")
    | _ => .error .malformed

instance : Codec Inbound where
  write m :=
    let device := ("device_id", write m.device)
    match m.event with
    | .link connected =>
      alternative "ConnectionStateChanged" [device, ("connected", write connected)]
    | .cursor record info =>
      alternative "CursorBroadcast"
        [device, ("sequence", write record.position), ("payload", write record.payload),
          ("session_info", write info)]
    | .bulk record =>
      alternative "BulkResponse"
        [device, ("sequence", write record.position), ("payload", write record.payload)]
    | .start first last info =>
      alternative "StartTransferRequested"
        [device, ("device_min", write first), ("device_max", write last),
          ("session_info", write info)]
    | .cancel => alternative "CancelTransfer" [device]
  read v := do
    match ← v.variant with
    | ("ConnectionStateChanged", .object fields) =>
      return ⟨← required fields "device_id", .link (← required fields "connected")⟩
    | ("CursorBroadcast", .object fields) =>
      return ⟨← required fields "device_id",
        .cursor ⟨← required fields "sequence", ← required fields "payload"⟩
          (← required fields "session_info")⟩
    | ("BulkResponse", .object fields) =>
      return ⟨← required fields "device_id",
        .bulk ⟨← required fields "sequence", ← required fields "payload"⟩⟩
    | ("StartTransferRequested", .object fields) =>
      return ⟨← required fields "device_id",
        .start (← required fields "device_min") (← required fields "device_max")
          (← required fields "session_info")⟩
    | ("CancelTransfer", .object fields) => return ⟨← required fields "device_id", .cancel⟩
    | _ => .error .malformed

instance : Codec Outbound where
  write m :=
    let device := ("device_id", write m.device)
    match m.report with
    | .request span => alternative "IssueBulkRequest" [device, ("range", write span)]
    | .state state => alternative "UploadStateChanged" [device, ("state", write state)]
  read v := do
    match ← v.variant with
    | ("IssueBulkRequest", .object fields) =>
      return ⟨← required fields "device_id", .request (← required fields "range")⟩
    | ("UploadStateChanged", .object fields) =>
      return ⟨← required fields "device_id", .state (← required fields "state")⟩
    | _ => .error .malformed

end Logbook.Wire
