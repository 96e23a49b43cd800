import SpirvInspector.Text.Digits

/-!
# Status of host operations

What went wrong in an operation on the host: the context it was tried in, the call that failed with
its error number, and a message of our own.
-/

set_option autoImplicit false

namespace SpirvInspector

namespace Host

/-- The number of an error that the host reports. -/
abbrev ErrorNumber := Int

namespace ErrorNumber

def noEntry : ErrorNumber := 2

def accessDenied : ErrorNumber := 13

def notDirectory : ErrorNumber := 20

def text (number : ErrorNumber) : Bytes :=
  if number = 0 then ascii "Success"
  else if number = 1 then ascii "Operation not permitted"
  else if number = noEntry then ascii "No such file or directory"
  else if number = 5 then ascii "Input/output error"
  else if number = accessDenied then ascii "Permission denied"
  else if number = notDirectory then ascii "Not a directory"
  else if number = 21 then ascii "Is a directory"
  else ascii "Unknown error " ++ Text.signedDecimal number

end ErrorNumber

structure FailedCall where
  name : Bytes
  number : ErrorNumber
deriving DecidableEq, Repr

structure Status where
  context : Bytes
  call : Option FailedCall
  /-- A message of our own. -/
  message : Option Bytes
deriving DecidableEq, Repr

namespace Status

def failed (status : Status) : Bool :=
  status.call.isSome || status.message.isSome

/-- The error number is shown as the 64 bits that it has when its sign is extended. -/
def callText (call : FailedCall) : Bytes :=
  call.name ++ ascii " returned " ++ Text.hexMarked (call.number % 0x10000000000000000).toNat ++
    ascii " (" ++ call.number.text ++ ascii ")"

def render (status : Status) : Bytes :=
  let context := if status.context.isEmpty then [] else status.context ++ ascii ": "
  let call := status.call.elim [] callText
  let message := status.message.getD []
  let separator :=
    if message.isEmpty || (status.context.isEmpty && status.call.isNone) then [] else ascii "; "
  context ++ call ++ separator ++ message

end Status

end Host

end SpirvInspector
