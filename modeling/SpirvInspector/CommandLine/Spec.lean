import SpirvInspector.Text.Integer

/-!
# Command line specifications

A specification lists the options and the arguments of a program. An option is called by a short
name behind one dash or a long name behind two; an entry without names is an argument and takes a
token as it stands.
-/

set_option autoImplicit false

namespace SpirvInspector

namespace CommandLine

structure Attributes where
  /-- May be given more than once. -/
  multiple : Bool := false
  /-- Has to be given. -/
  required : Bool := false
  /-- Takes no value. -/
  flag : Bool := false
  /-- May be given with or without a value. -/
  flagValue : Bool := false
deriving DecidableEq, Repr

namespace Attributes

def ofBits (bits : Nat) : Attributes :=
  ⟨bits.testBit 0, bits.testBit 1, bits.testBit 2, bits.testBit 3⟩

end Attributes

/-- Stores a value in the options of a program, and complains about a value it does not take. -/
abbrev Setter (ο : Type) := Bytes → ο → Option Bytes × ο

inductive Action (ο : Type)
  | set (setter : Setter ο)
  /-- Shows help and ends the program. -/
  | help

structure Entry (ο : Type) where
  short : Option Bytes
  long : Option Bytes
  type : Option Bytes
  description : Option Bytes
  /-- A longer description, shown with help on this entry alone. -/
  details : Option Bytes
  attributes : Attributes
  action : Action ο

namespace Entry

variable {ο : Type}

def isArgument (entry : Entry ο) : Bool :=
  entry.short.isNone && entry.long.isNone

/-- How an entry is called in a message. -/
def title (entry : Entry ο) : Bytes :=
  match entry.long, entry.short with
  | some long, _ => ascii "option --" ++ long
  | none, some short => ascii "option -" ++ short
  | none, none => ascii "argument " ++ entry.type.getD []

/-- Whether a text is one of the names of an entry. -/
def hasName (entry : Entry ο) (name : Bytes) : Bool :=
  entry.long == some name || entry.short == some name

/-- Whether two entries share a name. -/
def clashes (entry other : Entry ο) : Bool :=
  (entry.short.isSome && entry.short == other.short) ||
    (entry.long.isSome && entry.long == other.long)

/-- An option without a value. -/
def asFlag (entry : Entry ο) : Entry ο :=
  { entry with type := some [], attributes := { entry.attributes with flag := true } }

end Entry

namespace Setter

variable {ο : Type}

/-- Any value but `false` is true. -/
def switch (update : Bool → ο → ο) : Setter ο :=
  fun value options => (none, update (value != ascii "false") options)

/-- Takes a decimal integer. A malformed one is reported under the first name of the option. -/
def integer (short long : Option Bytes) (update : Int → ο → ο) : Setter ο :=
  fun value options =>
    match Text.integer? value with
    | some n => (none, update n options)
    | none =>
      let malformed := ascii ": malformed argument (integer)"
      let complaint :=
        match short, long with
        | some short, _ => ascii "-" ++ short ++ malformed
        | none, some long => ascii "--" ++ long ++ malformed
        | none, none => ascii "--"
      (some complaint, options)

end Setter

structure Spec (ο : Type) where
  title : Option Bytes
  program : Bytes
  examples : Option Bytes
  options : List (Entry ο)
  arguments : List (Entry ο)

/-- What a program that ends has written, and its status. -/
structure Exit where
  status : Nat
  output : Bytes
  error : Bytes
deriving DecidableEq, Repr

namespace Exit

def success (output : Bytes) : Exit :=
  ⟨0, output, []⟩

def failure (error : Bytes) : Exit :=
  ⟨1, [], error⟩

end Exit

namespace Spec

variable {ο : Type}

def helpEntry : Entry ο where
  short := some (ascii "h")
  long := some (ascii "help")
  type := some []
  description := some (ascii "shows help on an option")
  details := some
    (ascii "Without any argument -h prints help on all options.  " ++
      ascii "With an argument (e.g. -h=verbosity) it prints the long help for that option.")
  attributes := { flag := true, flagValue := true }
  action := .help

/-- A specification that has the help option only. -/
def empty (title : Option Bytes) (program : Bytes) (examples : Option Bytes) : Spec ο :=
  ⟨title, program, examples, [helpEntry], []⟩

/-- Adds an option. No two options may share a name. -/
def addOption (spec : Spec ο) (entry : Entry ο) : Except Exit (Spec ο) :=
  if spec.options.any entry.clashes then
    .error (.failure (ascii "INTERNAL ERROR: invalid CmdlineSpec (opts.hpp): " ++
      (entry.short <|> entry.long).getD [] ++ ascii ": option defined twice\n"))
  else .ok { spec with options := spec.options ++ [entry] }

def addArgument (spec : Spec ο) (entry : Entry ο) : Spec ο :=
  { spec with arguments := spec.arguments ++ [entry] }

end Spec

end CommandLine

end SpirvInspector
