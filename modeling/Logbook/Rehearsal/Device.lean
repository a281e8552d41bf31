import Logbook.Reconciler.Handle

/-!
# Devices for rehearsals

A rehearsal device is a device in one session, with everything that can happen at it. Its
records have payloads that depend on nothing but their positions.

- `Rehearsal.Device`: the device, its session, and the settings of whoever keeps its log.
- `Rehearsal.Device.cursor`, `bulk`, `start`, `link`, `cancel`: the events.
- `Rehearsal.Device.session`, `journal`, `reconciler`: what keeps its log.
-/

namespace Logbook.Rehearsal

/-- When rehearsals take place. -/
def now : Instant := ⟨1736870400000, by decide, by decide⟩

/-- A device in one session, and the settings of whoever keeps its log. -/
structure Device where
  id : DeviceId
  info : SessionInfo
  ticks : Counter
  backfillOnGap : Bool

namespace Device

/-- The device with a given serial number, in its first session. -/
def ofSerial (serial : UInt32) : Device where
  id := ⟨serial⟩
  info := ⟨⟨1⟩, .ofSeconds 5⟩
  ticks := Tolerance.standard.ticks
  backfillOnGap := Policy.standard.backfillOnGap

/-- The usual device. -/
def standard : Device := ofSerial 268435457

/-- Several devices, with serial numbers in a row. -/
def several (count : Nat) : List Device :=
  (List.range count).map fun i => ofSerial (UInt32.ofNat (268435456 + i))

/-- The device after it restarted into another session. -/
def inSession (d : Device) (session : UInt32) : Device :=
  { d with info := ⟨⟨session⟩, d.info.period⟩ }

/-- The device with another tolerance. -/
def withTicks (d : Device) (ticks : Counter) : Device := { d with ticks := ticks }

/-- The payload of the record at a position: the bytes of the position. -/
def payload (p : Position) : Payload := Text.bigEndian (UInt32.ofNat p.toNat)

/-- The record at a position. -/
def record (p : Position) : Record := ⟨p, payload p⟩

/-! ### What happens at the device -/

/-- The device pushes its record at a position. -/
def cursor (d : Device) (p : Position) : Inbound := ⟨d.id, .cursor (record p) d.info⟩

/-- The device answers with its record at a position. -/
def bulk (d : Device) (p : Position) : Inbound := ⟨d.id, .bulk (record p)⟩

/-- The device answers with its records at several positions. -/
def bulks (d : Device) (ps : List Position) : List Inbound := ps.map d.bulk

/-- The caller wants the records from one position to another. -/
def start (d : Device) (first last : Position) : Inbound := ⟨d.id, .start first last d.info⟩

/-- The link to the device comes up or goes down. -/
def link (d : Device) (connected : Bool) : Inbound := ⟨d.id, .link connected⟩

/-- The caller gives up the transfer. -/
def cancel (d : Device) : Inbound := ⟨d.id, .cancel⟩

/-! ### What keeps its log -/

/-- The device's session, without records. -/
def session (d : Device) : Except Refusal Session := do
  return .begin d.info (← Tolerance.ofTicks d.ticks)

/-- The device's session with the records at some positions, from the bulk channel. -/
def sessionWith (d : Device) (ps : List Position) : Except Refusal Session := do
  return ps.foldl (fun s p => s.receiveBulk (record p)) (← d.session)

/-- The device's journal with the records at some positions, from the bulk channel. -/
def journalWith (d : Device) (ps : List Position) : Except Refusal Journal := do
  let journal := (Journal.empty d.id (← Tolerance.ofTicks d.ticks)).ensure d.info .zero now
  return journal.update fun s => ps.foldl (fun s p => s.receiveBulk (record p)) s

/-- The device's reconciler. -/
def reconciler (d : Device) : Except Reconciler.Error Reconciler :=
  Reconciler.ofTicks d.id d.ticks d.backfillOnGap

end Device

end Logbook.Rehearsal
