import Logbook.Proofs.Wire.Spellings

/-!
# Messages and snapshots round trip

A structured value may spell a message in several ways. Only one of them is what the writer makes
of the message, but all of them read as the same message, and none as one with an unset position in
it.

- `Wire.Positioned`: the positions that stand in a value; `Wire.AllSet` says that they are set.
- `Wire.RoundTrips`: what has all positions set reads back, and nothing else is ever read.
- `Wire.roundTrips_inbound` and the like: each type of messages and snapshots.
- `Wire.messages_round_trip`: all of them.
-/

namespace Logbook.Wire

/-! ## The positions in a value -/

/-- The types whose values have positions in them. -/
class Positioned (α : Type) where
  /-- The positions that stand in a value. -/
  positions : α → List Position

export Positioned (positions)

instance : Positioned Position where
  positions p := [p]

instance {α : Type} [Positioned α] : Positioned (Option α) where
  positions
    | some a => positions a
    | none => []

instance : Positioned SessionInfo where
  positions _ := []

instance : Positioned Span where
  positions s := positions s.first ++ positions s.last

instance : Positioned Record where
  positions r := positions r.position

instance : Positioned Placed where
  positions p := positions p.record

instance : Positioned Progress where
  positions _ := []

instance : Positioned Status where
  positions s := positions s.lowest ++ positions s.highest

instance : Positioned UploadState where
  positions
    | .complete lowest highest _ => positions lowest ++ positions highest
    | .unavailable | .transferNeeded | .inProgress .. => []

instance : Positioned Inbound where
  positions m :=
    match m.event with
    | .cursor record _ | .bulk record => positions record
    | .start first last _ => positions first ++ positions last
    | .link _ | .cancel => []

instance : Positioned Outbound where
  positions m :=
    match m.report with
    | .request span => positions span
    | .state state => positions state

/-- No position in the value is the unset mark. -/
def AllSet {α : Type} [Positioned α] (a : α) : Prop := ∀ p ∈ positions a, p.IsSet

theorem allSet_position {p : Position} : AllSet p ↔ p.IsSet := List.forall_mem_singleton

theorem allSet_of_eq_nil {α : Type} [Positioned α] {a : α} (h : positions a = []) : AllSet a := by
  unfold AllSet
  rw [h]
  exact fun _ hp => absurd hp List.not_mem_nil

theorem allSet_span {s : Span} : AllSet s ↔ AllSet s.first ∧ AllSet s.last :=
  List.forall_mem_append

theorem allSet_status {s : Status} : AllSet s ↔ AllSet s.lowest ∧ AllSet s.highest :=
  List.forall_mem_append

theorem allSet_complete {lowest highest : Option Position} {total : UInt64} :
    AllSet (UploadState.complete lowest highest total) ↔ AllSet lowest ∧ AllSet highest :=
  List.forall_mem_append

theorem allSet_start {device : DeviceId} {first last : Position} {info : SessionInfo} :
    AllSet (⟨device, .start first last info⟩ : Inbound) ↔ AllSet first ∧ AllSet last :=
  List.forall_mem_append

/-! ## Reading and writing agree -/

/-- What has all its positions set reads back; and however a value is spelled that reads at all,
what it reads as has all its positions set. -/
structure RoundTrips (α : Type) [Codec α] [Positioned α] : Prop where
  readsBack : ∀ a : α, AllSet a → ReadsBack a
  allSet : ∀ (v : Value) (a : α), read v = .ok a → AllSet a
  /-- What is read is written and read as the same again, which follows from the other two. -/
  again : ∀ (v : Value) (a : α), read v = .ok a → ReadsBack a := fun v a ha =>
    readsBack a (allSet v a ha)

/-- A reading that goes on has read something. -/
theorem exists_of_bind {α β : Type} {x : Except ReadError α} {f : α → Except ReadError β} {b : β}
    (h : x >>= f = .ok b) : ∃ a, x = .ok a ∧ f a = .ok b := by
  cases x with
  | error => cases h
  | ok a => exact ⟨a, rfl, h⟩

section Fields

variable {α : Type} [Codec α] [Positioned α] {fields : List (String × Value)} {name : String}

namespace RoundTrips

/-- Types without positions in their values round trip if everything reads back. -/
theorem of_forall (hnone : ∀ a : α, positions a = []) (hall : ∀ a : α, ReadsBack a) :
    RoundTrips α where
  readsBack a _ := hall a
  allSet _ a _ := allSet_of_eq_nil (hnone a)

theorem required (h : RoundTrips α) {a : α} (ha : Wire.required fields name = .ok a) :
    AllSet a := by
  unfold Wire.required at ha
  split at ha
  · exact h.allSet _ a ha
  · cases ha

theorem optional (h : RoundTrips (Option α)) {a : Option α}
    (ha : Wire.optional fields name = .ok a) : AllSet a := by
  unfold Wire.optional at ha
  split at ha
  · exact h.allSet _ a ha
  · cases ha
    exact fun p hp => absurd hp List.not_mem_nil

/-- What may be missing round trips, if nothing that is there is written as if it were missing. -/
theorem option (h : RoundTrips α) (hnull : ∀ a : α, write a ≠ .null) :
    RoundTrips (Option α) where
  readsBack
    | none, _ => rfl
    | some a, hset => readsBack_some (h.readsBack a hset) (hnull a)
  allSet v o ho := by
    cases o with
    | none => exact allSet_of_eq_nil rfl
    | some a =>
      by_cases hv : v = .null
      · rw [hv] at ho
        cases ho
      · rw [read_option_of_ne_null hv] at ho
        cases hread : (read v : Except ReadError α) with
        | error e =>
          rw [hread] at ho
          cases ho
        | ok b =>
          rw [hread] at ho
          cases ho
          exact h.allSet v a hread

end RoundTrips

end Fields

/-! ## Records and snapshots -/

theorem roundTrips_position : RoundTrips Position where
  readsBack p hset := readsBack_position (allSet_position.mp hset)
  allSet v p hp := by
    obtain ⟨n, -, hp⟩ := exists_of_bind hp
    split at hp
    · split at hp
      · next hset =>
        cases hp
        exact allSet_position.mpr hset
      · cases hp
    · cases hp

theorem roundTrips_bound : RoundTrips (Option Position) :=
  roundTrips_position.option fun _ => Value.noConfusion

theorem roundTrips_info : RoundTrips SessionInfo := .of_forall (fun _ => rfl) readsBack_info

theorem roundTrips_progress : RoundTrips Progress := .of_forall (fun _ => rfl) readsBack_progress

theorem roundTrips_span : RoundTrips Span where
  readsBack s hset := by
    obtain ⟨hfirst, hlast⟩ := allSet_span.mp hset
    exact readsBack_span (allSet_position.mp hfirst) (allSet_position.mp hlast)
  allSet v s hs := by
    obtain ⟨fields, -, hs⟩ := exists_of_bind hs
    obtain ⟨first, hfirst, hs⟩ := exists_of_bind hs
    obtain ⟨last, hlast, hs⟩ := exists_of_bind hs
    cases hs
    exact allSet_span.mpr ⟨roundTrips_position.required hfirst, roundTrips_position.required hlast⟩

theorem read_record (fields : List (String × Value)) :
    (read (.object fields) : Except ReadError Record) = (do
      return ⟨← required fields "sequence", ← required fields "payload"⟩) := rfl

theorem roundTrips_record : RoundTrips Record where
  readsBack r hset := by
    show read (.object [("sequence", write r.position), ("payload", write r.payload)]) = _
    rw [read_record,
      required_of_lookup (a := r.position) rfl (roundTrips_position.readsBack _ hset),
      required_of_lookup (a := r.payload) rfl (readsBack_payload r.payload)]
    rfl
  allSet v r hr := by
    obtain ⟨fields, -, hr⟩ := exists_of_bind hr
    obtain ⟨position, hposition, hr⟩ := exists_of_bind hr
    obtain ⟨payload, -, hr⟩ := exists_of_bind hr
    cases hr
    exact roundTrips_position.required hposition

theorem read_placed (fields : List (String × Value)) :
    (read (.object fields) : Except ReadError Placed) = (do
      return ⟨← required fields "session_id", ← optional fields "timestamp_ms",
        ← required fields "point"⟩) := rfl

theorem roundTrips_placed : RoundTrips Placed where
  readsBack p hset := by
    show read (.object [("session_id", write p.session), ("timestamp_ms", write p.time),
      ("point", write p.record)]) = _
    rw [read_placed, required_of_lookup (a := p.session) rfl (readsBack_session p.session),
      optional_of_lookup (o := p.time) rfl (readsBack_time p.time),
      required_of_lookup (a := p.record) rfl (roundTrips_record.readsBack _ hset)]
    rfl
  allSet v p hp := by
    obtain ⟨fields, -, hp⟩ := exists_of_bind hp
    obtain ⟨session, -, hp⟩ := exists_of_bind hp
    obtain ⟨time, -, hp⟩ := exists_of_bind hp
    obtain ⟨record, hrecord, hp⟩ := exists_of_bind hp
    cases hp
    exact roundTrips_record.required hrecord

theorem read_status (fields : List (String × Value)) :
    (read (.object fields) : Except ReadError Status) = (do
      return ⟨← required fields "session_id", ← optional fields "min_seq",
        ← optional fields "max_seq", ← required fields "record_count"⟩) := rfl

theorem roundTrips_status : RoundTrips Status where
  readsBack s hset := by
    obtain ⟨hlowest, hhighest⟩ := allSet_status.mp hset
    show read (.object [("session_id", write s.session), ("min_seq", write s.lowest),
      ("max_seq", write s.highest), ("record_count", write s.count)]) = _
    rw [read_status, required_of_lookup (a := s.session) rfl (readsBack_session s.session),
      optional_of_lookup (o := s.lowest) rfl (roundTrips_bound.readsBack _ hlowest),
      optional_of_lookup (o := s.highest) rfl (roundTrips_bound.readsBack _ hhighest),
      required_of_lookup (a := s.count) rfl (readsBack_word64 s.count)]
    rfl
  allSet v s hs := by
    obtain ⟨fields, -, hs⟩ := exists_of_bind hs
    obtain ⟨session, -, hs⟩ := exists_of_bind hs
    obtain ⟨lowest, hlowest, hs⟩ := exists_of_bind hs
    obtain ⟨highest, hhighest, hs⟩ := exists_of_bind hs
    obtain ⟨count, -, hs⟩ := exists_of_bind hs
    cases hs
    exact allSet_status.mpr ⟨roundTrips_bound.optional hlowest, roundTrips_bound.optional hhighest⟩

/-! ## Messages -/

theorem roundTrips_state : RoundTrips UploadState where
  readsBack state hset := by
    refine readsBack_state fun lowest highest total hstate => ?_
    rw [hstate] at hset
    obtain ⟨hlowest, hhighest⟩ := allSet_complete.mp hset
    constructor
    · rintro p rfl
      exact allSet_position.mp hlowest
    · rintro p rfl
      exact allSet_position.mp hhighest
  allSet v state hstate := by
    obtain ⟨body, -, hstate⟩ := exists_of_bind hstate
    split at hstate
    · cases hstate
      exact allSet_of_eq_nil rfl
    · cases hstate
      exact allSet_of_eq_nil rfl
    · next fields =>
      obtain ⟨transferred, -, hstate⟩ := exists_of_bind hstate
      obtain ⟨requested, -, hstate⟩ := exists_of_bind hstate
      cases hstate
      exact allSet_of_eq_nil rfl
    · next fields =>
      obtain ⟨lowest, hlowest, hstate⟩ := exists_of_bind hstate
      obtain ⟨highest, hhighest, hstate⟩ := exists_of_bind hstate
      obtain ⟨total, -, hstate⟩ := exists_of_bind hstate
      cases hstate
      exact allSet_complete.mpr
        ⟨roundTrips_bound.optional hlowest, roundTrips_bound.optional hhighest⟩
    · cases hstate

theorem roundTrips_outbound : RoundTrips Outbound where
  readsBack m hset := by
    obtain ⟨device, report⟩ := m
    cases report with
    | request span => exact readsBack_request device (roundTrips_span.readsBack span hset)
    | state state => exact readsBack_update device (roundTrips_state.readsBack state hset)
  allSet v m hm := by
    obtain ⟨body, -, hm⟩ := exists_of_bind hm
    split at hm
    · obtain ⟨device, -, hm⟩ := exists_of_bind hm
      obtain ⟨span, hspan, hm⟩ := exists_of_bind hm
      cases hm
      exact roundTrips_span.required hspan
    · obtain ⟨device, -, hm⟩ := exists_of_bind hm
      obtain ⟨state, hstate, hm⟩ := exists_of_bind hm
      cases hm
      exact roundTrips_state.required hstate
    · cases hm

section Inbound

variable (fields : List (String × Value)) (device : DeviceId)

theorem read_link :
    (read (alternative "ConnectionStateChanged" fields) : Except ReadError Inbound) = (do
      return ⟨← required fields "device_id", .link (← required fields "connected")⟩) := rfl

theorem readsBack_link (connected : Bool) : ReadsBack (⟨device, .link connected⟩ : Inbound) := by
  show read (alternative "ConnectionStateChanged"
    [("device_id", write device), ("connected", write connected)]) = _
  rw [read_link, required_of_lookup (a := device) rfl (readsBack_device device),
    required_of_lookup (a := connected) rfl rfl]
  rfl

theorem read_cursor :
    (read (alternative "CursorBroadcast" fields) : Except ReadError Inbound) = (do
      return ⟨← required fields "device_id",
        .cursor ⟨← required fields "sequence", ← required fields "payload"⟩
          (← required fields "session_info")⟩) := rfl

theorem readsBack_cursor {record : Record} (hset : AllSet record) (info : SessionInfo) :
    ReadsBack (⟨device, .cursor record info⟩ : Inbound) := by
  show read (alternative "CursorBroadcast"
    [("device_id", write device), ("sequence", write record.position),
      ("payload", write record.payload), ("session_info", write info)]) = _
  rw [read_cursor, required_of_lookup (a := device) rfl (readsBack_device device),
    required_of_lookup (a := record.position) rfl (roundTrips_position.readsBack _ hset),
    required_of_lookup (a := record.payload) rfl (readsBack_payload record.payload),
    required_of_lookup (a := info) rfl (readsBack_info info)]
  rfl

theorem read_bulk :
    (read (alternative "BulkResponse" fields) : Except ReadError Inbound) = (do
      return ⟨← required fields "device_id",
        .bulk ⟨← required fields "sequence", ← required fields "payload"⟩⟩) := rfl

theorem readsBack_bulk {record : Record} (hset : AllSet record) :
    ReadsBack (⟨device, .bulk record⟩ : Inbound) := by
  show read (alternative "BulkResponse"
    [("device_id", write device), ("sequence", write record.position),
      ("payload", write record.payload)]) = _
  rw [read_bulk, required_of_lookup (a := device) rfl (readsBack_device device),
    required_of_lookup (a := record.position) rfl (roundTrips_position.readsBack _ hset),
    required_of_lookup (a := record.payload) rfl (readsBack_payload record.payload)]
  rfl

theorem read_start :
    (read (alternative "StartTransferRequested" fields) : Except ReadError Inbound) = (do
      return ⟨← required fields "device_id",
        .start (← required fields "device_min") (← required fields "device_max")
          (← required fields "session_info")⟩) := rfl

theorem readsBack_start {first last : Position} (hfirst : AllSet first) (hlast : AllSet last)
    (info : SessionInfo) : ReadsBack (⟨device, .start first last info⟩ : Inbound) := by
  show read (alternative "StartTransferRequested"
    [("device_id", write device), ("device_min", write first), ("device_max", write last),
      ("session_info", write info)]) = _
  rw [read_start, required_of_lookup (a := device) rfl (readsBack_device device),
    required_of_lookup (a := first) rfl (roundTrips_position.readsBack _ hfirst),
    required_of_lookup (a := last) rfl (roundTrips_position.readsBack _ hlast),
    required_of_lookup (a := info) rfl (readsBack_info info)]
  rfl

theorem read_cancel :
    (read (alternative "CancelTransfer" fields) : Except ReadError Inbound) = (do
      return ⟨← required fields "device_id", .cancel⟩) := rfl

theorem readsBack_cancel : ReadsBack (⟨device, .cancel⟩ : Inbound) := by
  show read (alternative "CancelTransfer" [("device_id", write device)]) = _
  rw [read_cancel, required_of_lookup (a := device) rfl (readsBack_device device)]
  rfl

end Inbound

theorem roundTrips_inbound : RoundTrips Inbound where
  readsBack m hset := by
    obtain ⟨device, event⟩ := m
    cases event with
    | link connected => exact readsBack_link device connected
    | cursor record info => exact readsBack_cursor device hset info
    | bulk record => exact readsBack_bulk device hset
    | start first last info =>
      obtain ⟨hfirst, hlast⟩ := allSet_start.mp hset
      exact readsBack_start device hfirst hlast info
    | cancel => exact readsBack_cancel device
  allSet v m hm := by
    obtain ⟨body, -, hm⟩ := exists_of_bind hm
    -- one case for each alternative, and the names that are none
    split at hm
    · obtain ⟨device, -, hm⟩ := exists_of_bind hm
      obtain ⟨connected, -, hm⟩ := exists_of_bind hm
      cases hm
      exact allSet_of_eq_nil rfl
    · obtain ⟨device, -, hm⟩ := exists_of_bind hm
      obtain ⟨position, hposition, hm⟩ := exists_of_bind hm
      obtain ⟨payload, -, hm⟩ := exists_of_bind hm
      obtain ⟨info, -, hm⟩ := exists_of_bind hm
      cases hm
      exact roundTrips_position.required hposition
    · obtain ⟨device, -, hm⟩ := exists_of_bind hm
      obtain ⟨position, hposition, hm⟩ := exists_of_bind hm
      obtain ⟨payload, -, hm⟩ := exists_of_bind hm
      cases hm
      exact roundTrips_position.required hposition
    · obtain ⟨device, -, hm⟩ := exists_of_bind hm
      obtain ⟨first, hfirst, hm⟩ := exists_of_bind hm
      obtain ⟨last, hlast, hm⟩ := exists_of_bind hm
      obtain ⟨info, -, hm⟩ := exists_of_bind hm
      cases hm
      exact allSet_start.mpr
        ⟨roundTrips_position.required hfirst, roundTrips_position.required hlast⟩
    · obtain ⟨device, -, hm⟩ := exists_of_bind hm
      cases hm
      exact allSet_of_eq_nil rfl
    · cases hm

/-- **Messages and snapshots round trip.** What is written of one whose positions are all set reads
as the same one. However a value spells one, what it reads as has no unset position in it; so it
reads back when it is written again. The other ways to spell one read as the writer's own. -/
theorem messages_round_trip :
    RoundTrips Inbound ∧ RoundTrips Outbound ∧ RoundTrips UploadState ∧ RoundTrips SessionInfo ∧
      RoundTrips Span ∧ RoundTrips Record ∧ RoundTrips Placed ∧ RoundTrips Progress ∧
      RoundTrips Status ∧ Spellings :=
  ⟨roundTrips_inbound, roundTrips_outbound, roundTrips_state, roundTrips_info, roundTrips_span,
    roundTrips_record, roundTrips_placed, roundTrips_progress, roundTrips_status, spellings⟩

end Logbook.Wire
