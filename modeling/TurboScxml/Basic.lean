import Mathlib.Data.Nat.Notation

/-!
# Data shared by the components

* `Text`, the bounds of the fixed-width counters and of the metadata fields;
* `ContentKind`, `MailboxStatus`: the enumerations of the public headers.
-/

namespace TurboScxml

/-- A byte string of the source, one `Char` a byte. -/
abbrev Text := List Char

/-- `SCXML_EVENT_METADATA_CAPACITY`. -/
def eventMetadataCapacity : ℕ := 256

def uint32Max : ℕ := 0xFFFFFFFF

def uint64Max : ℕ := 0xFFFFFFFFFFFFFFFF

inductive ContentKind
  | invalid | scalar | textUtf8 | xmlUtf8 | cmeta
  deriving DecidableEq

/-- The `cflow_mailbox_status` values. -/
inductive MailboxStatus
  | ok | empty | full | closed | cancelled | invalidArgument | bufferTooSmall | typeMismatch
  | allocationFailed
  deriving DecidableEq

end TurboScxml
