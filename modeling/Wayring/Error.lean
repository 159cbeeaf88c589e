/-!
# Error names

Error names are global in the source, and each function's error set is a union
of them.  The model keeps one enumeration of the names its functions return.
-/

namespace Wayring

/-- The error values of the modelled functions, under the source's names. -/
inductive Error
  | outOfMemory
  | invalidConfig
  | capacityOverflow
  | invalidId
  | duplicateId
  | full
  | invalidObjectVersion
  | unknownOpcode
  | unsupportedVersion
  | unknownObject
  | destroyedObject
  | exhausted
  | invalidTransition
  | invalidLocalId
  | invalidPeerId
  | invalidClientId
  | invalidServerId
  | staleHandle
  | invalidPoolSize
  | poolTooLarge
  | invalidResize
  | invalidDimensions
  | invalidStride
  | outOfBounds
  | sizeOverflow
  | stalePool
  | staleBuffer
  | stalePin
  | resourceDestroyed
  | resizePending
  | destinationTooSmall
  | invalidCompletion
  | copyFailed
  | shortRead
  | signalSetupFailed
  | accessConflict
  | accessActive
  | invalidBacking
  | submissionQueueFull
  | staleLease
  | malformedControl
  | descriptorBudgetExceeded
  | controlBufferTooSmall
  | overflow
  | empty
  | emptyMessage
  | byteBudgetExceeded
  | sendAlreadyActive
  | noSendActive
  | reservationActive
  | reservationOverflow
  | nullSender
  | invalidSize
  | unalignedSize
  | unexpectedEnd
  | lengthOverflow
  | invalidString
  | trailingArguments
  | messageTooLarge
  | closing
  | protocolErrorPending
  | noProtocolError
  | cancelAlreadyActive
  | cancelNotActive
  | receiveAlreadyActive
  | receiveNotActive
  | staleCompletion
  | unexpectedCompletion
  | ioFailure
  | slotOutOfRange
  | slotInactive
  | wrongGeneration
  | slotSpaceExhausted
  | unknownOperation
  | actorBusy
  | sendDescriptorCapacityExceeded
  | unexpectedNull
  | nullObject
  | wrongInterface
  | noBufferSelected
  | disconnected
  | serverProtocolError
  | peerCredentialsFailed
  | invalidPeerCredentials
  | acceptAlreadyActive
  | acceptNotActive
  | unsafeAccess
  | invalidMessage
  /-- An error of the application that a library calls. -/
  | application (name : String)
  /-- A system call failed with a code. -/
  | system (code : Nat)
  /-- An assertion of the source fails. -/
  | unreachable
  deriving DecidableEq, Repr

namespace Error

/-- The name of an error (`@errorName`).  A failed assertion has none. -/
def name : Error → String
  | .outOfMemory => "OutOfMemory"
  | .invalidConfig => "InvalidConfig"
  | .capacityOverflow => "CapacityOverflow"
  | .invalidId => "InvalidId"
  | .duplicateId => "DuplicateId"
  | .full => "Full"
  | .invalidObjectVersion => "InvalidObjectVersion"
  | .unknownOpcode => "UnknownOpcode"
  | .unsupportedVersion => "UnsupportedVersion"
  | .unknownObject => "UnknownObject"
  | .destroyedObject => "DestroyedObject"
  | .exhausted => "Exhausted"
  | .invalidTransition => "InvalidTransition"
  | .invalidLocalId => "InvalidLocalId"
  | .invalidPeerId => "InvalidPeerId"
  | .invalidClientId => "InvalidClientId"
  | .invalidServerId => "InvalidServerId"
  | .staleHandle => "StaleHandle"
  | .invalidPoolSize => "InvalidPoolSize"
  | .poolTooLarge => "PoolTooLarge"
  | .invalidResize => "InvalidResize"
  | .invalidDimensions => "InvalidDimensions"
  | .invalidStride => "InvalidStride"
  | .outOfBounds => "OutOfBounds"
  | .sizeOverflow => "SizeOverflow"
  | .stalePool => "StalePool"
  | .staleBuffer => "StaleBuffer"
  | .stalePin => "StalePin"
  | .resourceDestroyed => "ResourceDestroyed"
  | .resizePending => "ResizePending"
  | .destinationTooSmall => "DestinationTooSmall"
  | .invalidCompletion => "InvalidCompletion"
  | .copyFailed => "CopyFailed"
  | .shortRead => "ShortRead"
  | .signalSetupFailed => "SignalSetupFailed"
  | .accessConflict => "AccessConflict"
  | .accessActive => "AccessActive"
  | .invalidBacking => "InvalidBacking"
  | .submissionQueueFull => "SubmissionQueueFull"
  | .staleLease => "StaleLease"
  | .malformedControl => "MalformedControl"
  | .descriptorBudgetExceeded => "DescriptorBudgetExceeded"
  | .controlBufferTooSmall => "ControlBufferTooSmall"
  | .overflow => "Overflow"
  | .empty => "Empty"
  | .emptyMessage => "EmptyMessage"
  | .byteBudgetExceeded => "ByteBudgetExceeded"
  | .sendAlreadyActive => "SendAlreadyActive"
  | .noSendActive => "NoSendActive"
  | .reservationActive => "ReservationActive"
  | .reservationOverflow => "ReservationOverflow"
  | .nullSender => "NullSender"
  | .invalidSize => "InvalidSize"
  | .unalignedSize => "UnalignedSize"
  | .unexpectedEnd => "UnexpectedEnd"
  | .lengthOverflow => "LengthOverflow"
  | .invalidString => "InvalidString"
  | .trailingArguments => "TrailingArguments"
  | .messageTooLarge => "MessageTooLarge"
  | .closing => "Closing"
  | .protocolErrorPending => "ProtocolErrorPending"
  | .noProtocolError => "NoProtocolError"
  | .cancelAlreadyActive => "CancelAlreadyActive"
  | .cancelNotActive => "CancelNotActive"
  | .receiveAlreadyActive => "ReceiveAlreadyActive"
  | .receiveNotActive => "ReceiveNotActive"
  | .staleCompletion => "StaleCompletion"
  | .unexpectedCompletion => "UnexpectedCompletion"
  | .ioFailure => "IoFailure"
  | .slotOutOfRange => "SlotOutOfRange"
  | .slotInactive => "SlotInactive"
  | .wrongGeneration => "WrongGeneration"
  | .slotSpaceExhausted => "SlotSpaceExhausted"
  | .unknownOperation => "UnknownOperation"
  | .actorBusy => "ActorBusy"
  | .sendDescriptorCapacityExceeded => "SendDescriptorCapacityExceeded"
  | .unexpectedNull => "UnexpectedNull"
  | .nullObject => "NullObject"
  | .wrongInterface => "WrongInterface"
  | .noBufferSelected => "NoBufferSelected"
  | .disconnected => "Disconnected"
  | .serverProtocolError => "ServerProtocolError"
  | .peerCredentialsFailed => "PeerCredentialsFailed"
  | .invalidPeerCredentials => "InvalidPeerCredentials"
  | .acceptAlreadyActive => "AcceptAlreadyActive"
  | .acceptNotActive => "AcceptNotActive"
  | .unsafeAccess => "UnsafeAccess"
  | .invalidMessage => "InvalidMessage"
  | .application name => name
  | .system _ => "Unexpected"
  | .unreachable => ""

/-- The bytes of the name. -/
def nameBytes (error : Error) : List UInt8 :=
  error.name.toUTF8.toList

end Error
end Wayring
