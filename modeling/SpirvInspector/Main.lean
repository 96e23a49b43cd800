import SpirvInspector.Tool.Inspect

/-!
# Command line program

Runs the inspector on the files of the host.
-/

set_option autoImplicit false

namespace SpirvInspector.Program

/-- Looks at a path of the host. What cannot be read for want of permission is a locked file. -/
def look (path : Bytes) : IO Host.Node := do
  match String.fromUTF8? ⟨path.toArray⟩ with
  | none => return .absent Host.ErrorNumber.noEntry
  | some name =>
    try
      return .file (← IO.FS.readBinFile name).data.toList
    catch
      | .permissionDenied .. => return .locked Host.ErrorNumber.accessDenied
      | _ => return .absent Host.ErrorNumber.noEntry

end SpirvInspector.Program

open SpirvInspector in
def main (arguments : List String) : IO UInt32 := do
  let output ← IO.getStdout
  let error ← IO.getStderr
  let terminals : Text.Terminals := ⟨← output.isTty, ← error.isTty⟩
  let exit ← Tool.run Program.look terminals (arguments.map fun s => s.toUTF8.data.toList)
  output.write ⟨exit.output.toArray⟩
  output.flush
  error.write ⟨exit.error.toArray⟩
  error.flush
  return exit.status.toUInt32
