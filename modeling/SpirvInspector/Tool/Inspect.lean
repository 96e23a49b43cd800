import SpirvInspector.Host.FileTree
import SpirvInspector.Host.Log
import SpirvInspector.Load.Inspection
import SpirvInspector.Module.Listing
import SpirvInspector.Stats.Report
import SpirvInspector.Tool.Options

/-!
# The inspector

Inspects files one after another: a summary line for each, and on request a listing and statistics.
A file that cannot be loaded is reported and does not keep the later ones from being inspected.
-/

set_option autoImplicit false

namespace SpirvInspector

namespace Tool

open CommandLine (Exit)

/-- What was written to the two output streams. -/
structure Transcript where
  output : Bytes
  error : Bytes
deriving DecidableEq, Repr

namespace Transcript

def empty : Transcript := ⟨[], []⟩

def append (first second : Transcript) : Transcript :=
  ⟨first.output ++ second.output, first.error ++ second.error⟩

end Transcript

/-- How the inspection of a file ended: well, or with a failure, or with the end of the program. -/
inductive Verdict
  | ok
  | failed
  | exit (status : Nat)
deriving DecidableEq, Repr

structure FileReport where
  transcript : Transcript
  verdict : Verdict
deriving DecidableEq, Repr

def log (options : Options) (terminals : Text.Terminals) (level : Int) (text : Bytes) : Bytes :=
  Host.Log.message options.threshold level terminals.error text

/-- A size in a log message is an integer of 32 bits. -/
def sizeText (size : Nat) : Bytes :=
  Text.signedDecimal (Text.wrap32 size)

/-- The summary line of a module. -/
def summary (terminals : Text.Terminals) (path : Bytes) (m : Module) : Bytes :=
  Text.Color.white.span terminals.output path ++ ascii ": " ++
    (match m.header with
      | some header =>
        ascii "SPIR-V " ++ header.versionText ++ ascii ", bound " ++
          Text.decimal header.bound.toNat ++ ascii ", "
      | none => []) ++
    Text.decimal m.instructions.size ++ ascii " instructions, " ++
    Text.decimal m.functions.size ++ ascii " functions\n"

/-- What is written about a module that was loaded. -/
def present (options : Options) (terminals : Text.Terminals) (path contents : Bytes) (m : Module)
    (stopped : Bool) : Transcript :=
  { output :=
      (if options.quiet then [] else summary terminals path m) ++
      (if options.dump then m.listing else []) ++
      (if options.stats then
        (ModuleStats.ofModule m contents.length).report path options.verbosity
      else [])
    error :=
      if stopped then
        log options terminals Host.Log.warning
          (path ++ ascii ": decoding limited to " ++ sizeText m.instructions.size ++
            ascii " instructions (-n)")
      else [] }

def inspectContents (options : Options) (terminals : Text.Terminals) (path contents : Bytes) :
    FileReport :=
  let progress :=
    log options terminals Host.Log.debug
        (Host.Log.readText path (Text.wrap32 contents.length)) ++
      log options terminals Host.Log.verbose
        (ascii "============ decoding " ++ path ++ ascii " (" ++ sizeText contents.length ++
          ascii " B)")
  let inquiry := Inquiry.begin options.verbosity path contents
  let inspection := inquiry.loadModule terminals.output options.limit
  let (warnings, _) := inspection.inquiry.flush terminals.error
  let begun : Transcript := ⟨inspection.output, progress ++ warnings⟩
  match inspection.result with
  | .ok m =>
    ⟨begun.append (present options terminals path contents m inspection.stopped), .ok⟩
  | .error diagnostic =>
    ⟨begun.append ⟨[], diagnostic.render terminals.error⟩,
      if diagnostic.severity = .internal then .exit diagnostic.severity.exitStatus else .failed⟩

def inspect (options : Options) (terminals : Text.Terminals) (path : Bytes) (node : Host.Node) :
    FileReport :=
  if node.isFile then
    match node.read path with
    | .ok contents => inspectContents options terminals path contents
    | .error status =>
      ⟨⟨[], log options terminals Host.Log.fatal status.render⟩, .exit 1⟩
  else
    ⟨⟨[], Text.Color.red.span terminals.error path ++ ascii ": file not found\n"⟩, .failed⟩

variable {m : Type → Type} [Monad m]

/-- Inspects files in order, until one of them ends the program. -/
def inspectAll (look : Bytes → m Host.Node) (options : Options) (terminals : Text.Terminals) :
    List Bytes → Transcript → Bool → m Exit
  | [], transcript, allOk => pure ⟨if allOk then 0 else 1, transcript.output, transcript.error⟩
  | path :: paths, transcript, allOk => do
    let node ← look path
    let report := inspect options terminals path node
    let transcript := transcript.append report.transcript
    match report.verdict with
    | .exit status => pure ⟨status, transcript.output, transcript.error⟩
    | .ok => inspectAll look options terminals paths transcript allOk
    | .failed => inspectAll look options terminals paths transcript false

/-- Runs the inspector on a command line. -/
def run (look : Bytes → m Host.Node) (terminals : Text.Terminals) (tokens : List Bytes) : m Exit :=
  match spec.parse {} tokens with
  | (some exit, _) => pure exit
  | (none, options) => inspectAll look options terminals options.files.toList .empty true

end Tool

end SpirvInspector
