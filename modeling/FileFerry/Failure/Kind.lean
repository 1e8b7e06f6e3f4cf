import FileFerry.Text.Basic

/-! The kinds of failure an operation on a file or a stream can have, and the numbers by which the
operating system reports failures, with the texts shown for both. -/

set_option autoImplicit false

namespace FileFerry

inductive ErrorKind where
  | notFound
  | permissionDenied
  | connectionRefused
  | connectionReset
  | connectionAborted
  | notConnected
  | addrInUse
  | addrNotAvailable
  | brokenPipe
  | alreadyExists
  | wouldBlock
  | notADirectory
  | isADirectory
  | directoryNotEmpty
  | readOnlyFilesystem
  | storageFull
  | invalidInput
  | invalidData
  | timedOut
  | writeZero
  | interrupted
  | unsupported
  | unexpectedEof
  | outOfMemory
  | fileTooLarge
  | quotaExceeded
  | resourceBusy
  | other
  deriving DecidableEq, Repr

namespace ErrorKind

def description : ErrorKind → Text
  | notFound => text "entity not found"
  | permissionDenied => text "permission denied"
  | connectionRefused => text "connection refused"
  | connectionReset => text "connection reset"
  | connectionAborted => text "connection aborted"
  | notConnected => text "not connected"
  | addrInUse => text "address in use"
  | addrNotAvailable => text "address not available"
  | brokenPipe => text "broken pipe"
  | alreadyExists => text "entity already exists"
  | wouldBlock => text "operation would block"
  | notADirectory => text "not a directory"
  | isADirectory => text "is a directory"
  | directoryNotEmpty => text "directory not empty"
  | readOnlyFilesystem => text "read-only filesystem or storage medium"
  | storageFull => text "no storage space"
  | invalidInput => text "invalid input parameter"
  | invalidData => text "invalid data"
  | timedOut => text "timed out"
  | writeZero => text "write zero"
  | interrupted => text "operation interrupted"
  | unsupported => text "unsupported"
  | unexpectedEof => text "unexpected end of file"
  | outOfMemory => text "out of memory"
  | fileTooLarge => text "file too large"
  | quotaExceeded => text "quota exceeded"
  | resourceBusy => text "resource busy"
  | other => text "other error"

def ofOs : Int → ErrorKind
  | 1 | 13 => permissionDenied
  | 2 => notFound
  | 4 => interrupted
  | 11 => wouldBlock
  | 12 => outOfMemory
  | 16 => resourceBusy
  | 17 => alreadyExists
  | 20 => notADirectory
  | 21 => isADirectory
  | 22 => invalidInput
  | 27 => fileTooLarge
  | 28 => storageFull
  | 30 => readOnlyFilesystem
  | 32 => brokenPipe
  | 38 | 95 => unsupported
  | 39 => directoryNotEmpty
  | 98 => addrInUse
  | 99 => addrNotAvailable
  | 103 => connectionAborted
  | 104 => connectionReset
  | 107 => notConnected
  | 110 => timedOut
  | 111 => connectionRefused
  | 122 => quotaExceeded
  | _ => other

end ErrorKind

end FileFerry
