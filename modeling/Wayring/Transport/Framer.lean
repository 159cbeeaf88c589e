import Wayring.Transport.Pools
import Wayring.Transport.Wire

/-!
# Framer

Incremental framing of a byte stream.  Complete messages come straight from
the input; only a fragment that spans inputs is copied into scratch space.
-/

namespace Wayring

/-- Frames up to this size are put together in the framer. -/
def inlineScratchSize : Nat := 64

/-- The scratch space has some capacity, and `buffered` are the bytes in it.  A
shared framer leases blocks. -/
structure Framer where
  scratchLength : Nat
  buffered : List UInt8 := []
  shared : Bool := false
  lease : Option BlockLease := none
  releaseBeforeNext : Bool := false
  deriving DecidableEq, Repr

namespace Framer

/-- A framer with a buffer of its own. -/
def init (scratchLength : Nat) : Framer := { scratchLength }

/-- A framer that leases a block for a long frame. -/
def initShared : Framer := { scratchLength := 0, shared := true }

/-- How many bytes of a frame wait for the rest. -/
def pending (framer : Framer) : Nat := framer.buffered.length

/-- Give the leased block back. -/
def releaseLease
    (framer : Framer)
    (blocks : SharedBlocks) : Except Error Unit × Framer × SharedBlocks :=
  match framer.lease with
  | none => (.ok (), framer, blocks)
  | some lease =>
      match blocks.release lease with
      | (.error _, blocks) => (.error .unreachable, framer, blocks)
      | (.ok _, blocks) =>
          (.ok (),
            { framer with lease := none, scratchLength := inlineScratchSize },
            blocks)

/-- Give everything back. -/
def deinit
    (framer : Framer)
    (blocks : SharedBlocks) : Except Error Unit × SharedBlocks :=
  let (result, _, blocks) := framer.releaseLease blocks
  (result, blocks)

/-- Scratch space for some bytes: the inline one first, then one block. -/
def ensureCapacity
    (framer : Framer)
    (blocks : SharedBlocks)
    (required room : Nat) : Except Error Unit × Framer × SharedBlocks :=
  if required ≤ framer.scratchLength then (.ok (), framer, blocks)
  else if !framer.shared then (.error .messageTooLarge, framer, blocks)
  else if required ≤ inlineScratchSize ∧ framer.lease = none then
    (.ok (), { framer with scratchLength := inlineScratchSize }, blocks)
  else if framer.lease ≠ none then (.error .messageTooLarge, framer, blocks)
  else
    match blocks.acquire room with
    | (.error cause, blocks) => (.error cause, framer, blocks)
    | (.ok lease, blocks) =>
        if blocks.blockSize < required then
          match blocks.release lease with
          | (.error cause, blocks) => (.error cause, framer, blocks)
          | (.ok _, blocks) => (.error .messageTooLarge, framer, blocks)
        else
          (.ok (),
            { framer with
              lease := some lease
              scratchLength := blocks.blockSize }, blocks)

variable [Native]

/-- What a call of `next` returns: no message yet, or the first one.  It also
changes the framer, its pool, and the input. -/
abbrev Next : Type :=
  Except Error (Option Wire.Message) × List UInt8 × Framer × SharedBlocks

/-- Complete the body of a message whose header is in the scratch space. -/
def nextBody
    (framer : Framer)
    (blocks : SharedBlocks)
    (input : List UInt8)
    (room : Nat) : Next :=
  match Wire.Header.decode framer.buffered with
  | .error cause => (.error cause, input, framer, blocks)
  | .ok none => (.error .unreachable, input, framer, blocks)
  | .ok (some header) =>
      match framer.ensureCapacity blocks header.size room with
      | (.error cause, framer, blocks) => (.error cause, input, framer, blocks)
      | (.ok _, framer, blocks) =>
          let count :=
            min (header.size - framer.buffered.length) input.length
          let buffered := framer.buffered ++ input.take count
          if buffered.length < header.size then
            (.ok none, input.drop count, { framer with buffered }, blocks)
          else
            match Wire.Message.decode buffered with
            | .error cause =>
                (.error cause, input.drop count, { framer with buffered },
                  blocks)
            | .ok none =>
                (.error .unreachable, input.drop count,
                  { framer with buffered }, blocks)
            | .ok (some message) =>
                (.ok (some message), input.drop count,
                  { framer with
                    buffered := []
                    releaseBeforeNext := framer.lease.isSome }, blocks)

/-- Complete the header of a message that is in the scratch space. -/
def nextHeader
    (framer : Framer)
    (blocks : SharedBlocks)
    (input : List UInt8)
    (room : Nat) : Next :=
  if framer.buffered.length < Wire.headerLen then
    let count := min (Wire.headerLen - framer.buffered.length) input.length
    if framer.buffered.length + count > framer.scratchLength then
      (.error .messageTooLarge, input, framer, blocks)
    else
      let framer :=
        { framer with buffered := framer.buffered ++ input.take count }
      if framer.buffered.length < Wire.headerLen then
        (.ok none, input.drop count, framer, blocks)
      else framer.nextBody blocks (input.drop count) room
  else framer.nextBody blocks input room

/-- Return a complete message of the input, or put a fragment into the scratch
space. -/
def nextInput
    (framer : Framer)
    (blocks : SharedBlocks)
    (input : List UInt8)
    (room : Nat) : Next :=
  if framer.buffered = [] then
    match Wire.Message.decode input with
    | .error cause => (.error cause, input, framer, blocks)
    | .ok (some message) =>
        (.ok (some message), input.drop message.header.size, framer, blocks)
    | .ok none =>
        if input = [] then (.ok none, input, framer, blocks)
        else
          match framer.ensureCapacity blocks input.length room with
          | (.error cause, framer, blocks) =>
              (.error cause, input, framer, blocks)
          | (.ok _, framer, blocks) =>
              if framer.scratchLength < input.length then
                (.error .messageTooLarge, input, framer, blocks)
              else
                nextHeader { framer with buffered := input } blocks [] room
  else framer.nextHeader blocks input room

/-- The next message.  Scratch space of the last one is given back first. -/
def next
    (framer : Framer)
    (blocks : SharedBlocks)
    (input : List UInt8)
    (room : Nat) : Next :=
  if framer.releaseBeforeNext then
    match framer.releaseLease blocks with
    | (.error cause, framer, blocks) => (.error cause, input, framer, blocks)
    | (.ok _, framer, blocks) =>
        nextInput { framer with releaseBeforeNext := false } blocks input room
  else framer.nextInput blocks input room

end Framer
end Wayring
