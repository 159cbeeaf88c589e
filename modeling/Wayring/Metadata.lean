import Wayring.Error

/-!
# Interface metadata

The compact interface tables that dispatch consults before typed decoding:
which opcodes exist, since which version, and which of them are destructors.
-/

namespace Wayring

/-- Metadata of one request or event. -/
structure Message where
  since : Nat
  destructor : Bool := false
  fdCount : Nat := 0
  deriving DecidableEq, Repr

/-- Metadata of one interface. -/
structure Interface where
  name : String
  version : Nat
  requests : List Message
  events : List Message
  deriving DecidableEq, Repr

namespace Interface

/-- Versions run from one to the version the interface was generated for. -/
def validateVersion
    (interface : Interface)
    (version : Nat) : Except Error Unit :=
  if version = 0 ∨ version > interface.version then
    .error .invalidObjectVersion
  else .ok ()

/-- Look up one opcode of a message table at an object's version. -/
def message
    (interface : Interface)
    (messages : List Message)
    (opcode objectVersion : Nat) : Except Error Message := do
  interface.validateVersion objectVersion
  match messages[opcode]? with
  | none => .error .unknownOpcode
  | some value =>
      if value.since > objectVersion then .error .unsupportedVersion
      else .ok value

/-- Metadata of a request. -/
def request
    (interface : Interface)
    (opcode objectVersion : Nat) : Except Error Message :=
  interface.message interface.requests opcode objectVersion

/-- Metadata of an event. -/
def event
    (interface : Interface)
    (opcode objectVersion : Nat) : Except Error Message :=
  interface.message interface.events opcode objectVersion

end Interface
end Wayring
