import SpirvInspector.CommandLine.Spec
import SpirvInspector.Text.Digits

/-!
# Help texts

An entry is shown as one line of columns: short name, long name, type and description. The help on a
single entry goes on with its details, broken at the first blank behind column 72.
-/

set_option autoImplicit false

namespace SpirvInspector

namespace CommandLine

variable {ο : Type}

structure Widths where
  short : Nat
  long : Nat
  type : Nat

namespace Widths

def least : Widths := ⟨4, 8, 8⟩

def widen (widths : Widths) (entry : Entry ο) : Widths :=
  let atLeast (width : Nat) (text : Option Bytes) := max width (text.elim 0 List.length)
  ⟨atLeast widths.short entry.short, atLeast widths.long entry.long,
    atLeast widths.type entry.type⟩

end Widths

/-- Breaks a text at blanks behind column 72. The first argument is the column of the next byte. -/
def wrap : Nat → Bytes → Bytes
  | _, [] => []
  | column, b :: rest =>
    if 72 < column ∧ b = Bytes.space then Bytes.newline :: wrap 1 rest
    else if b = Bytes.newline then b :: wrap 1 rest
    else b :: wrap (column + 1) rest

namespace Entry

/-- The names of an option in their columns. -/
def names (entry : Entry ο) (widths : Widths) : Bytes :=
  let name (dashes : String) (text : Option Bytes) : Bytes :=
    match text with
    | some text => ascii "  " ++ ascii dashes ++ text
    | none => []
  Text.padRight (3 + widths.short) Bytes.space (name "-" entry.short) ++ ascii "  " ++
    Text.padRight (4 + widths.long) Bytes.space (name "--" entry.long)

/-- The type, marked on an argument that may be given many times. -/
def typeText (entry : Entry ο) : Bytes :=
  entry.type.getD [] ++
    if entry.isArgument && entry.attributes.multiple then
      ascii (if entry.attributes.required then "+" else "*")
    else []

def summary (entry : Entry ο) (widths : Widths) : Bytes :=
  (if entry.isArgument then [] else entry.names widths) ++
    ascii "  " ++ Text.padRight widths.type Bytes.space entry.typeText ++
    match entry.description with
    | some description => ascii "  " ++ description
    | none => []

/-- The help on a single entry. -/
def help (entry : Entry ο) (widths : Widths) : Bytes :=
  entry.summary widths ++
    (match entry.details with
      | some details => ascii "\n" ++ wrap 1 details
      | none => []) ++
    ascii "\n"

/-- The help that goes with a complaint about an entry. -/
def usage (entry : Entry ο) : Bytes :=
  entry.help .least

end Entry

namespace Spec

/-- The help on all options and arguments. -/
def usage (spec : Spec ο) : Bytes :=
  let widths := spec.options.foldl Widths.widen .least
  let lines (widths : Widths) (entries : List (Entry ο)) : Bytes :=
    entries.flatMap fun entry => entry.summary widths ++ ascii "\n"
  ascii "usage: " ++ spec.program ++ ascii " OPTIONS ARGS\nwhere OPTIONS:\n" ++
    lines widths spec.options ++
    (if spec.arguments.isEmpty then []
      else ascii "\n and where ARGS:\n" ++ lines widths spec.arguments) ++
    match spec.examples with
    | some examples => if examples.isEmpty then [] else ascii "\nEXAMPLES:\n" ++ examples
    | none => []

/-- The end of a program over a message. -/
def fail (spec : Spec ο) (message usage : Bytes) : Exit :=
  .failure (spec.program ++ ascii ": " ++ message ++ ascii "\n" ++ usage)

/-- Help on everything, or on the option of a name. -/
def help (spec : Spec ο) (name : Bytes) : Exit :=
  if name.isEmpty then
    .success ((match spec.title with
      | some title => title ++ ascii "\n\n"
      | none => []) ++ spec.usage)
  else match spec.options.find? fun entry => entry.hasName name with
    | some entry => .success (entry.help ⟨0, 0, 0⟩)
    | none => spec.fail (ascii "-h option: unknown option " ++ name) []

end Spec

end CommandLine

end SpirvInspector
