import Logbook.Wire.Messages

/-!
# What is written reads back

The reader of every type undoes its writer. A position is the one value for which that can fail:
the unset mark is written like any other number, and is refused by the reader. So whatever has no
unset mark in it reads back.

- `Wire.ReadsBack`: what is written of a value reads as the value.
- `Wire.readBelow_of_lt`: numbers within their range.
- `Wire.required_of_lookup`, `Wire.optional_of_lookup`: fields.
- `Wire.readsBack_payload`, `Wire.readsBack_period`, `Wire.readsBack_info`: what has no positions
  in it reads back.
- `Wire.readsBack_position`, `Wire.readsBack_span`, `Wire.readsBack_state`: what has positions in it
  reads back if they are set.
- `Wire.readsBack_request`, `Wire.readsBack_update`: messages to the device and to the caller.
-/

namespace Logbook.Wire

/-- What is written of a value reads as the value. -/
def ReadsBack {α : Type} [Codec α] (a : α) : Prop := read (write a) = .ok a

variable {α : Type} [Codec α] {a : α} {fields : List (String × Value)} {name : String}

/-! ## Numbers -/

theorem readBelow_of_lt {n bound : Nat} (h : n < bound) : readBelow bound (.int n) = .ok n := by
  have hrange : (0 : Int) ≤ n ∧ (n : Int) < bound := by omega
  rw [readBelow, if_pos hrange]
  rfl

theorem readsBack_word32 (w : UInt32) : ReadsBack w := by
  show UInt32.ofNat <$> readBelow 4294967296 (.int w.toNat) = .ok w
  rw [readBelow_of_lt w.toNat_lt]
  exact congrArg Except.ok UInt32.ofNat_toNat

theorem readsBack_word64 (w : UInt64) : ReadsBack w := by
  show UInt64.ofNat <$> readBelow 18446744073709551616 (.int w.toNat) = .ok w
  rw [readBelow_of_lt w.toNat_lt]
  exact congrArg Except.ok UInt64.ofNat_toNat

theorem readsBack_device (d : DeviceId) : ReadsBack d := by
  show DeviceId.mk <$> read (write d.word) = .ok d
  rw [readsBack_word32 d.word]
  rfl

/-- A position reads back if it has a place in the stream. -/
theorem readsBack_position {p : Position} (h : p.IsSet) : ReadsBack p := by
  have hnumber : Position.ofNat? p.toNat = some p := Position.ofNat?_eq_some.mpr rfl
  show (readBelow 4294967296 (.int p.toNat) >>= fun n => _) = .ok p
  rw [readBelow_of_lt p.toNat_lt]
  dsimp only [bind, Except.bind]
  rw [hnumber]
  exact if_pos h

/-! ## Fields -/

theorem required_of_lookup (h : fields.lookup name = some (write a)) (ha : ReadsBack a) :
    required fields name = .ok a := by
  unfold required
  rw [h]
  exact ha

theorem optional_of_lookup {o : Option α} (h : fields.lookup name = some (write o))
    (ho : ReadsBack o) : optional fields name = .ok o := by
  unfold optional
  rw [h]
  exact ho

/-- What may be missing reads as what is there, unless it is written as if it were missing. -/
theorem read_option_of_ne_null {v : Value} (h : v ≠ .null) :
    (read v : Except ReadError (Option α)) = some <$> read v := by
  cases v with
  | null => exact absurd rfl h
  | _ => rfl

theorem readsBack_some (ha : ReadsBack a) (hnull : write a ≠ .null) : ReadsBack (some a) := by
  have hread : read (write a) = .ok a := ha
  show read (α := Option α) (write a) = .ok (some a)
  rw [read_option_of_ne_null hnull, hread]
  rfl

theorem readsBack_bound {bound : Option Position} (h : ∀ p, bound = some p → p.IsSet) :
    ReadsBack bound := by
  cases bound with
  | none => rfl
  | some p => exact readsBack_some (readsBack_position (h p rfl)) Value.noConfusion

/-! ## Values without positions -/

theorem readsBack_word8 (w : UInt8) : ReadsBack w := by
  show UInt8.ofNat <$> readBelow 256 (.int w.toNat) = .ok w
  rw [readBelow_of_lt w.toNat_lt]
  exact congrArg Except.ok UInt8.ofNat_toNat

theorem readsBack_session (s : SessionId) : ReadsBack s := by
  show SessionId.mk <$> read (write s.word) = .ok s
  rw [readsBack_word32 s.word]
  rfl

theorem readsBack_instant (t : Instant) : ReadsBack t := by
  have hinstant : Instant.ofInt? t.millis = some t := dif_pos ⟨t.ge_min, t.le_max⟩
  unfold ReadsBack
  dsimp only [write, read]
  rw [hinstant]

theorem readsBack_time (time : Option Instant) : ReadsBack time := by
  cases time with
  | none => rfl
  | some t => exact readsBack_some (readsBack_instant t) Value.noConfusion

/-- A payload reads back byte by byte. -/
theorem readsBack_payload (bytes : Payload) : ReadsBack bytes := by
  show (bytes.map write).mapM read = Except.ok bytes
  induction bytes with
  | nil => rfl
  | cons b rest ih =>
    have hb : read (write b) = .ok b := readsBack_word8 b
    rw [List.map_cons, List.mapM_cons, hb, ih]
    rfl

theorem read_period {fields : List (String × Value)}
    (hnames : fields.all fun (name, _) => name = "secs" || name = "nanos") :
    (read (.object fields) : Except ReadError Period) = (do
      let seconds : UInt64 ← required fields "secs"
      let nanos : UInt32 ← required fields "nanos"
      match Period.ofParts? seconds.toNat nanos.toNat with
      | some p => return p
      | none => .error .malformed) := if_pos hnames

theorem readsBack_period (p : Period) : ReadsBack p := by
  have hnanos : (UInt32.ofNat p.nanos).toNat = p.nanos :=
    UInt32.toNat_ofNat_of_lt' (Nat.lt_trans p.nanos_lt (by decide))
  have hwritten : write p =
      .object [("secs", write p.seconds), ("nanos", write (UInt32.ofNat p.nanos))] := by
    show Value.object [("secs", write p.seconds), ("nanos", .int p.nanos)] =
      .object [("secs", write p.seconds), ("nanos", .int (UInt32.ofNat p.nanos).toNat)]
    rw [hnanos]
  unfold ReadsBack
  rw [hwritten, read_period rfl, required_of_lookup (a := p.seconds) rfl (readsBack_word64 p.seconds),
    required_of_lookup (a := UInt32.ofNat p.nanos) rfl (readsBack_word32 _)]
  dsimp only [bind, Except.bind]
  rw [hnanos, Period.ofParts?_eq_some.mpr rfl]
  rfl

theorem read_info (fields : List (String × Value)) :
    (read (.object fields) : Except ReadError SessionInfo) = (do
      return ⟨← required fields "id", ← required fields "sample_period"⟩) := rfl

theorem readsBack_info (info : SessionInfo) : ReadsBack info := by
  show read (.object [("id", write info.id), ("sample_period", write info.period)]) = _
  rw [read_info, required_of_lookup (a := info.id) rfl (readsBack_session info.id),
    required_of_lookup (a := info.period) rfl (readsBack_period info.period)]
  rfl

theorem read_progress (fields : List (String × Value)) :
    (read (.object fields) : Except ReadError Progress) = (do
      return ⟨← required fields "transferred", ← required fields "expected",
        ← required fields "requested"⟩) := rfl

theorem readsBack_progress (p : Progress) : ReadsBack p := by
  show read (.object [("transferred", write p.transferred), ("expected", write p.expected),
    ("requested", write p.requested)]) = _
  rw [read_progress, required_of_lookup (a := p.transferred) rfl (readsBack_word32 p.transferred),
    required_of_lookup (a := p.expected) rfl (readsBack_word32 p.expected),
    required_of_lookup (a := p.requested) rfl (readsBack_word32 p.requested)]
  rfl

/-! ## Messages -/

theorem read_span (fields : List (String × Value)) :
    (read (.object fields) : Except ReadError Span) = (do
      return ⟨← required fields "min", ← required fields "max"⟩) := rfl

theorem write_span (span : Span) :
    write span = .object [("min", write span.first), ("max", write span.last)] := rfl

theorem readsBack_span {span : Span} (hfirst : span.first.IsSet) (hlast : span.last.IsSet) :
    ReadsBack span := by
  unfold ReadsBack
  rw [write_span, read_span, required_of_lookup (a := span.first) rfl (readsBack_position hfirst),
    required_of_lookup (a := span.last) rfl (readsBack_position hlast)]
  rfl

theorem read_inProgress (fields : List (String × Value)) :
    (read (alternative "InProgress" fields) : Except ReadError UploadState) = (do
      return .inProgress (← required fields "transferred") (← required fields "requested")) := rfl

theorem read_complete (fields : List (String × Value)) :
    (read (alternative "Complete" fields) : Except ReadError UploadState) = (do
      return .complete (← optional fields "min_seq") (← optional fields "max_seq")
        (← required fields "total")) := rfl

/-- A state reads back if it tells no bound that is unset. -/
theorem readsBack_state {state : UploadState}
    (h : ∀ lowest highest total, state = .complete lowest highest total →
      (∀ p, lowest = some p → p.IsSet) ∧ ∀ p, highest = some p → p.IsSet) :
    ReadsBack state := by
  cases state with
  | unavailable | transferNeeded => rfl
  | inProgress transferred requested =>
    show read (alternative "InProgress"
      [("transferred", write transferred), ("requested", write requested)]) = _
    rw [read_inProgress, required_of_lookup (a := transferred) rfl (readsBack_word32 transferred),
      required_of_lookup (a := requested) rfl (readsBack_word32 requested)]
    rfl
  | complete lowest highest total =>
    obtain ⟨hlowest, hhighest⟩ := h _ _ _ rfl
    show read (alternative "Complete"
      [("min_seq", write lowest), ("max_seq", write highest), ("total", write total)]) = _
    rw [read_complete, optional_of_lookup (o := lowest) rfl (readsBack_bound hlowest),
      optional_of_lookup (o := highest) rfl (readsBack_bound hhighest),
      required_of_lookup (a := total) rfl (readsBack_word64 total)]
    rfl

theorem read_request (fields : List (String × Value)) :
    (read (alternative "IssueBulkRequest" fields) : Except ReadError Outbound) = (do
      return ⟨← required fields "device_id", .request (← required fields "range")⟩) := rfl

theorem readsBack_request (device : DeviceId) {span : Span} (h : ReadsBack span) :
    ReadsBack (⟨device, .request span⟩ : Outbound) := by
  show read (alternative "IssueBulkRequest"
    [("device_id", write device), ("range", write span)]) = _
  rw [read_request, required_of_lookup (a := device) rfl (readsBack_device device),
    required_of_lookup (a := span) rfl h]
  rfl

theorem read_update (fields : List (String × Value)) :
    (read (alternative "UploadStateChanged" fields) : Except ReadError Outbound) = (do
      return ⟨← required fields "device_id", .state (← required fields "state")⟩) := rfl

theorem readsBack_update (device : DeviceId) {state : UploadState} (h : ReadsBack state) :
    ReadsBack (⟨device, .state state⟩ : Outbound) := by
  show read (alternative "UploadStateChanged"
    [("device_id", write device), ("state", write state)]) = _
  rw [read_update, required_of_lookup (a := device) rfl (readsBack_device device),
    required_of_lookup (a := state) rfl h]
  rfl

end Logbook.Wire
