import Logbook.Text.Hex
import Logbook.Time

/-!
# Identities of devices and sessions

A device is known by its serial number. Each time it powers on it opens a session, with an id
of its own and the period at which it takes records.

- `DeviceId`, `SessionId`: 32-bit identifiers, written in eight hexadecimal digits, devices in
  upper case and sessions in lower case.
- `SessionId.ofInstant`: an id for devices that report none, the second at which they were seen.
- `SessionInfo`: what a device says about its session.
-/

namespace Logbook

open Text

/-- The serial number of a device. -/
structure DeviceId where
  word : UInt32
deriving DecidableEq

/-- The identifier of one continuous session of a device. -/
structure SessionId where
  word : UInt32
deriving DecidableEq

/-- What a device says about its session. -/
structure SessionInfo where
  /-- The session it is in. -/
  id : SessionId
  /-- The time between two of its records. -/
  period : Period
deriving DecidableEq

namespace DeviceId

/-- The device's eight digits. -/
def hex (d : DeviceId) : String := Hex.ofWord .upper d.word

/-- The device that eight digits name. -/
def ofHex (s : String) : Except Hex.Error DeviceId := DeviceId.mk <$> Hex.toWord s

instance : ToString DeviceId := ⟨hex⟩

/-- The device with its kind in front, for diagnostics. -/
def describe (d : DeviceId) : String := s!"DeviceId({d})"

end DeviceId

namespace SessionId

/-- The session's eight digits. -/
def hex (s : SessionId) : String := Hex.ofWord .lower s.word

/-- The session that eight digits name. -/
def ofHex (s : String) : Except Hex.Error SessionId := SessionId.mk <$> Hex.toWord s

/-- An id made of the second in which an instant lies; instants before the epoch or beyond the
32-bit seconds take the nearest id. -/
def ofInstant (t : Instant) : SessionId :=
  ⟨UInt32.ofNat (min (t.millis / 1000).toNat 4294967295)⟩

instance : ToString SessionId := ⟨hex⟩

/-- The session with its kind in front, for diagnostics. -/
def describe (s : SessionId) : String := s!"SessionId({s})"

end SessionId

end Logbook
