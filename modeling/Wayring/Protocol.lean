import Mathlib.Tactic
import Wayring.Metadata

/-!
# Core interfaces

Metadata of the interfaces that the core of a server knows by name.
-/

namespace Wayring

/-- The interface of object 1.  None of its messages is a destructor. -/
def wlDisplay : Interface where
  name := "wl_display"
  version := 1
  requests := [{ since := 1 }, { since := 1 }]
  events := [{ since := 1 }, { since := 1 }]

/-- The interface of registries, which the protocol never destroys. -/
def wlRegistry : Interface where
  name := "wl_registry"
  version := 1
  requests := [{ since := 1 }]
  events := [{ since := 1 }, { since := 1 }]

/-- A message that is found is one of the interface's. -/
theorem Interface.mem_of_message
    {interface : Interface} {messages : List Message}
    {opcode version : Nat} {message : Message}
    (found : interface.message messages opcode version = .ok message) :
    message ∈ messages := by
  unfold Interface.message at found
  cases valid : interface.validateVersion version with
  | error cause =>
      rw [valid] at found
      cases found
  | ok _ =>
      rw [valid] at found
      simp only [bind, Except.bind] at found
      cases there : messages[opcode]? with
      | none =>
          rw [there] at found
          cases found
      | some value =>
          rw [there] at found
          simp only at found
          split_ifs at found
          cases found
          exact List.mem_of_getElem? there

/-- No request destroys wl_display. -/
theorem wlDisplay_request
    {opcode version : Nat} {message : Message}
    (found : wlDisplay.request opcode version = .ok message) :
    message.destructor = false := by
  have member := Interface.mem_of_message found
  simp only [wlDisplay, List.mem_cons, List.not_mem_nil, or_false, or_self]
    at member
  rw [member]

/-- No event destroys wl_display. -/
theorem wlDisplay_event
    {opcode version : Nat} {message : Message}
    (found : wlDisplay.event opcode version = .ok message) :
    message.destructor = false := by
  have member := Interface.mem_of_message found
  simp only [wlDisplay, List.mem_cons, List.not_mem_nil, or_false, or_self]
    at member
  rw [member]

end Wayring
