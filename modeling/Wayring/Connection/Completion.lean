import Wayring.Error
import Wayring.Foundation.Generation

/-!
# Completions

The identity that a kernel operation carries, and completions with their
results.
-/

namespace Wayring

/-- The operations that completions are for. -/
inductive Operation
  | receive
  | send
  | cancel
  | accept
  | acceptCancel
  deriving DecidableEq, Repr

namespace Operation

/-- The number of an operation in a token. -/
def code : Operation → Nat
  | .receive => 1
  | .send => 2
  | .cancel => 3
  | .accept => 4
  | .acceptCancel => 5

/-- The operation of a number. -/
def ofCode : Nat → Option Operation
  | 1 => some .receive
  | 2 => some .send
  | 3 => some .cancel
  | 4 => some .accept
  | 5 => some .acceptCancel
  | _ => none

end Operation

/-- The slot is a word of 24 bits, and the generation one of 32 bits. -/
structure Token where
  operation : Operation
  slot : Nat
  generation : Nat
  deriving DecidableEq, Repr

namespace Token

/-- Slots take 24 bits of a token. -/
def slotLimit : Nat := 2 ^ 24

/-- Generations take 32 bits of a token. -/
def generationLimit : Nat := 2 ^ 32

/-- A token as the user data of a submission. -/
def encode (token : Token) : Nat :=
  token.operation.code + token.slot * 2 ^ 8 + token.generation * 2 ^ 32

/-- The token of the user data of a completion. -/
def decode (value : Nat) : Except Error Token :=
  match Operation.ofCode (value % 2 ^ 8) with
  | none => .error .unknownOperation
  | some operation =>
      .ok
        { operation
          slot := value / 2 ^ 8 % slotLimit
          generation := value / 2 ^ 32 % generationLimit }

/-- Decoding gives an encoded token back. -/
theorem decode_encode
    {token : Token}
    (slotBelow : token.slot < slotLimit)
    (generationBelow : token.generation < generationLimit) :
    decode token.encode = .ok token := by
  have codeBelow : token.operation.code < 2 ^ 8 := by
    cases token.operation <;> decide
  have known : Operation.ofCode token.operation.code = some token.operation := by
    cases token.operation <;> rfl
  unfold slotLimit at slotBelow
  unfold generationLimit at generationBelow
  have low : token.encode % 2 ^ 8 = token.operation.code := by
    unfold encode
    omega
  have middle : token.encode / 2 ^ 8 % slotLimit = token.slot := by
    unfold encode slotLimit
    omega
  have high : token.encode / 2 ^ 32 % generationLimit = token.generation := by
    unfold encode generationLimit
    omega
  rw [decode, low, known]
  simp only [middle, high]

end Token

/-- Zero is kept for slots that were never used. -/
def Completion.nextGeneration (current : Nat) : Nat :=
  Generation.next Token.generationLimit current

/-- Why an operation fails. -/
inductive Errno
  | canceled
  | noBuffers
  | noEntry
  | already
  | other (code : Nat)
  deriving DecidableEq, Repr

/-- A positive result, an end of file, or an error. -/
inductive CqeResult
  | count (length : Nat)
  | failed (cause : Errno)
  deriving DecidableEq, Repr

/-- A completion: the operation it belongs to, its result, and its flags. -/
structure Cqe where
  userData : Nat
  result : CqeResult
  /-- The operation stays active. -/
  more : Bool := false
  /-- A receive buffer was selected. -/
  buffer : Bool := false
  /-- The kernel keeps the buffer. -/
  bufferMore : Bool := false
  deriving DecidableEq, Repr

/-- A multishot receive stays armed. -/
def Cqe.continues (completion : Cqe) : Bool :=
  match completion.result with
  | .count length => decide (0 < length) && completion.more
  | .failed _ => false

/-- A completion that delivered data in a buffer of which nothing is left. -/
def Cqe.returnsBuffer (completion : Cqe) : Bool :=
  match completion.result with
  | .count length =>
      decide (0 < length) && completion.buffer && !completion.bufferMore
  | .failed _ => false

end Wayring
