/-
The error codes of RST_STREAM and GOAWAY frames.

Codes travel as 32 bit numbers and only fourteen of them are named. A
number without a name is legal on the wire, so `ofCode?` answers `none`
for it and the number itself stays readable in the frame.
-/
namespace Http2

/-- Why a stream or a connection was given up. -/
inductive ErrorCode where
  | noError
  | protocolError
  | internalError
  | flowControlError
  | settingsTimeout
  | streamClosed
  | frameSizeError
  | refusedStream
  | cancel
  | compressionError
  | connectError
  | enhanceYourCalm
  | inadequateSecurity
  | http11Required
  deriving DecidableEq, Repr

namespace ErrorCode

/-- Every named code, in the order of the numbers. -/
def all : List ErrorCode :=
  [noError, protocolError, internalError, flowControlError,
    settingsTimeout, streamClosed, frameSizeError, refusedStream, cancel,
    compressionError, connectError, enhanceYourCalm, inadequateSecurity,
    http11Required]

/-- The number of a code on the wire. -/
def code : ErrorCode → UInt32
  | noError => 0
  | protocolError => 1
  | internalError => 2
  | flowControlError => 3
  | settingsTimeout => 4
  | streamClosed => 5
  | frameSizeError => 6
  | refusedStream => 7
  | cancel => 8
  | compressionError => 9
  | connectError => 10
  | enhanceYourCalm => 11
  | inadequateSecurity => 12
  | http11Required => 13

/-- The code with a given number, if the number is named. -/
def ofCode? (n : UInt32) : Option ErrorCode := all.find? (·.code = n)

@[simp] theorem ofCode?_code (e : ErrorCode) : ofCode? e.code = some e := by
  cases e <;> rfl

end ErrorCode

end Http2
