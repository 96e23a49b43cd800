import SpirvInspector.Bytes

/-!
# Paths
-/

set_option autoImplicit false

namespace SpirvInspector.Host

/-- The names in a path, between its slashes. -/
def splitPath (path : Bytes) : List Bytes :=
  path.splitOnP fun b => b == 47

/-- Whether a name in a path leads to where the path has led already. -/
def staysHere (name : Bytes) : Bool :=
  name.isEmpty || name == ascii "."

/-- The part of a path behind its last slash or backslash. -/
def fileName (path : Bytes) : Bytes :=
  path.afterLast fun b => b == 47 || b == 92

end SpirvInspector.Host
