import Mathlib.Data.List.Forall2
import Mathlib.Tactic.Choose
import SpirvInspector.Proofs.Load.Agreement
import SpirvInspector.Proofs.Tool.CommandLines
import SpirvInspector.Tool.Inspect

/-!
# The files of a run are independent

What a run writes about a file depends on the options and on this file alone, and no file that can
be read ends the run. So a run over several files writes what the runs over each of them write, one
behind the other, and succeeds exactly when all of them do.
-/

set_option autoImplicit false

namespace SpirvInspector

namespace Tool

open CommandLine (Exit)

variable {look : Bytes → Host.Node} {options : Options} {terminals : Text.Terminals}
  {path : Bytes}

/-- A file is there, and its module is loaded without an error. -/
def Loads (look : Bytes → Host.Node) (options : Options) (terminals : Text.Terminals)
    (path : Bytes) : Prop :=
  ∃ contents m, look path = .file contents ∧
    ((Inquiry.begin options.verbosity path contents).loadModule terminals.output
      options.limit).result = .ok m

/-- A path that leads to no file, or to one that can be read. -/
def Readable (look : Bytes → Host.Node) (path : Bytes) : Prop :=
  (look path).isFile = true → ∃ contents, look path = .file contents

/-- A load returns, or throws an error that is not about the program itself. -/
theorem loadModule_cases (inquiry : Inquiry) (terminal : Bool) (limit : Nat) :
    (∃ m, (inquiry.loadModule terminal limit).result = .ok m) ∨
      ∃ diagnostic, (inquiry.loadModule terminal limit).result = .error diagnostic ∧
        diagnostic.severity = .error := by
  rcases ended : parse Loader.sink (.ofModule {} limit) inquiry.input with ⟨outcome, loader⟩
  by_cases usable : outcome.Usable
  · obtain ⟨header, rest, -, headed⟩ := Loader.exists_header {} limit ended usable.isMalformed
    exact .inl ⟨_, (inquiry.loadModule_of_usable terminal ended usable headed).1⟩
  · exact .inr ⟨_, (inquiry.loadModule_of_not_usable terminal ended usable).1, rfl⟩

/-- The verdict on a path says whether its file loads, and does not end the program. -/
theorem verdict_inspect (options : Options) (terminals : Text.Terminals)
    (readable : Readable look path) :
    (Loads look options terminals path ∧
        (inspect options terminals path (look path)).verdict = .ok) ∨
      (¬Loads look options terminals path ∧
        (inspect options terminals path (look path)).verdict = .failed) := by
  unfold Loads
  unfold Readable at readable
  cases found : look path with
  | file contents =>
    rcases loadModule_cases (.begin options.verbosity path contents) terminals.output
      options.limit with ⟨m, loaded⟩ | ⟨diagnostic, thrown, severity⟩
    · refine .inl ⟨⟨contents, m, rfl, loaded⟩, ?_⟩
      simp only [inspect, Host.Node.isFile, Host.Node.read, inspectContents, loaded, if_true]
    · refine .inr ⟨?_, ?_⟩
      · rintro ⟨_, m, same, loaded⟩
        cases same
        rw [thrown] at loaded
        cases loaded
      · simp [inspect, Host.Node.isFile, Host.Node.read, inspectContents, thrown, severity]
  | locked number =>
    rw [found] at readable
    obtain ⟨contents, isFile⟩ := readable rfl
    cases isFile
  | directory =>
    refine .inr ⟨?_, rfl⟩
    rintro ⟨contents, m, isFile, -⟩
    cases isFile
  | absent number =>
    refine .inr ⟨?_, rfl⟩
    rintro ⟨contents, m, isFile, -⟩
    cases isFile

theorem loads_iff (options : Options) (terminals : Text.Terminals)
    (readable : Readable look path) :
    Loads look options terminals path ↔
      (inspect options terminals path (look path)).verdict = .ok := by
  rcases verdict_inspect options terminals readable with ⟨loads, verdict⟩ | ⟨fails, verdict⟩
  · exact iff_of_true loads verdict
  · exact iff_of_false fails (by rw [verdict]; exact Verdict.noConfusion)

/-- A run in which the files stay as `look` finds them. -/
def runOn (look : Bytes → Host.Node) (terminals : Text.Terminals) (tokens : List Bytes) : Exit :=
  run (m := Id) look terminals tokens

theorem inspectAll_cons (look : Bytes → Host.Node) (later : List Bytes) (transcript : Transcript)
    (allOk : Bool) :
    inspectAll (m := Id) look options terminals (path :: later) transcript allOk =
      let report := inspect options terminals path (look path)
      match report.verdict with
      | .exit status =>
        ⟨status, (transcript.append report.transcript).output,
          (transcript.append report.transcript).error⟩
      | .ok =>
        inspectAll (m := Id) look options terminals later (transcript.append report.transcript)
          allOk
      | .failed =>
        inspectAll (m := Id) look options terminals later (transcript.append report.transcript)
          false := rfl

/-- What is written about each path stands behind what was written before, and one failure is enough
for the whole to fail. -/
theorem inspectAll_eq {paths : List Bytes} (readable : ∀ path ∈ paths, Readable look path)
    (transcript : Transcript) (allOk : Bool) :
    inspectAll (m := Id) look options terminals paths transcript allOk =
      ⟨if allOk && paths.all fun path =>
          (inspect options terminals path (look path)).verdict == .ok then 0 else 1,
        transcript.output ++ paths.flatMap fun path =>
          (inspect options terminals path (look path)).transcript.output,
        transcript.error ++ paths.flatMap fun path =>
          (inspect options terminals path (look path)).transcript.error⟩ := by
  induction paths generalizing transcript allOk with
  | nil =>
    have done : inspectAll (m := Id) look options terminals [] transcript allOk =
        ⟨if allOk then 0 else 1, transcript.output, transcript.error⟩ := rfl
    simp [done]
  | cons path later inductionHypothesis =>
    have others := inductionHypothesis fun other isLater =>
      readable other (List.mem_cons_of_mem _ isLater)
    rw [inspectAll_cons]
    rcases verdict_inspect options terminals (readable path List.mem_cons_self) with
      ⟨-, verdict⟩ | ⟨-, verdict⟩
    · simp [verdict, others, Transcript.append]
    · simp [verdict, others, Transcript.append]

theorem runOn_of_accepted {tokens : List Bytes}
    (accepted : spec.parse {} tokens = (none, options)) :
    runOn look terminals tokens =
      inspectAll (m := Id) look options terminals options.files.toList .empty true := by
  simp only [runOn, run, accepted]

/-- Only the other options matter to what is written about a file. -/
theorem inspect_withFiles (files : Array Bytes) (node : Host.Node) :
    inspect (options.withFiles files) terminals path node = inspect options terminals path node :=
  rfl

theorem runOn_single {single : List Bytes} (terminals : Text.Terminals)
    (accepted : spec.parse {} single = (none, options.withFiles #[path]))
    (readable : Readable look path) :
    (runOn look terminals single).output =
        (inspect options terminals path (look path)).transcript.output ∧
      (runOn look terminals single).error =
        (inspect options terminals path (look path)).transcript.error := by
  have alone : ∀ other ∈ (options.withFiles #[path]).files.toList, Readable look other := by
    simpa [Options.withFiles] using readable
  rw [runOn_of_accepted accepted, inspectAll_eq alone]
  simp only [inspect_withFiles]
  exact ⟨List.append_nil _, List.append_nil _⟩

/-- `Singles options paths lines`: for each path a command line that sets the options for this one
file. -/
def Singles (options : Options) (paths : List Bytes) (lines : List (List Bytes)) : Prop :=
  List.Forall₂ (fun path line => spec.parse {} line = (none, options.withFiles #[path])) paths lines

/-- What the runs over single files write, one behind the other. -/
theorem Singles.flatMap_eq {paths : List Bytes} {lines : List (List Bytes)}
    (singles : Singles options paths lines) (terminals : Text.Terminals)
    (readable : ∀ path ∈ paths, Readable look path) :
    (lines.flatMap fun line => (runOn look terminals line).output) =
        (paths.flatMap fun path =>
          (inspect options terminals path (look path)).transcript.output) ∧
      (lines.flatMap fun line => (runOn look terminals line).error) =
        (paths.flatMap fun path =>
          (inspect options terminals path (look path)).transcript.error) := by
  induction singles with
  | nil => exact ⟨rfl, rfl⟩
  | @cons path line paths lines accepted _ inductionHypothesis =>
    obtain ⟨output, error⟩ := runOn_single terminals accepted (readable path List.mem_cons_self)
    obtain ⟨outputs, errors⟩ := inductionHypothesis fun other isLater =>
      readable other (List.mem_cons_of_mem _ isLater)
    simp only [List.flatMap_cons, output, error, outputs, errors, and_self]

/-- A run over several files is the runs over each of them. -/
theorem runOn_independent {tokens : List Bytes} (look : Bytes → Host.Node)
    (terminals : Text.Terminals) (accepted : spec.parse {} tokens = (none, options))
    (readable : ∀ path ∈ options.files, Readable look path) :
    options.files ≠ #[] ∧
      (∃ lines, Singles options options.files.toList lines) ∧
      (∀ lines, Singles options options.files.toList lines →
        (runOn look terminals tokens).output =
            (lines.flatMap fun line => (runOn look terminals line).output) ∧
          (runOn look terminals tokens).error =
            (lines.flatMap fun line => (runOn look terminals line).error)) ∧
      ((runOn look terminals tokens).status = 0 ↔
        ∀ path ∈ options.files, Loads look options terminals path) ∧
      ((runOn look terminals tokens).status ≠ 0 → (runOn look terminals tokens).status = 1) := by
  obtain ⟨given, single⟩ := exists_single accepted
  have readableFiles : ∀ path ∈ options.files.toList, Readable look path := by simpa using readable
  rw [runOn_of_accepted accepted, inspectAll_eq readableFiles]
  refine ⟨given, ?_, ?_, ?_, ?_⟩
  · choose! line isLine using single
    refine ⟨options.files.toList.map line, ?_⟩
    rw [Singles, List.forall₂_map_right_iff, List.forall₂_same]
    intro path isPath
    exact isLine path (Array.mem_toList_iff.mp isPath)
  · intro lines singles
    obtain ⟨outputs, errors⟩ := singles.flatMap_eq terminals readableFiles
    exact ⟨outputs.symm, errors.symm⟩
  · have every : (∀ path ∈ options.files, Loads look options terminals path) ↔
        ∀ path ∈ options.files, (inspect options terminals path (look path)).verdict = .ok :=
      forall₂_congr fun path isPath => loads_iff options terminals (readable path isPath)
    rw [every]
    simp only [Bool.true_and, List.all_eq_true, beq_iff_eq, Array.mem_toList_iff, ite_eq_left_iff,
      Nat.one_ne_zero, imp_false, not_not]
  · dsimp only
    split
    · intro failed
      exact (failed rfl).elim
    · intro _
      rfl

/-- A module without an instruction. -/
def headerOnly : Bytes :=
  [0x03, 0x02, 0x23, 0x07, 0x00, 0x04, 0x01, 0x00, 0, 0, 0, 0, 1, 0, 0, 0, 0, 0, 0, 0]

def oneFile : Host.FileTree :=
  .ofPaths [(ascii "a.spv", headerOnly)]

theorem runOn_oneMissing :
    (runOn oneFile.look ⟨false, false⟩ [ascii "b.spv", ascii "-d", ascii "a.spv"]).output =
        (runOn oneFile.look ⟨false, false⟩ [ascii "b.spv", ascii "-d"]).output ++
          (runOn oneFile.look ⟨false, false⟩ [ascii "-d", ascii "a.spv"]).output ∧
      (runOn oneFile.look ⟨false, false⟩ [ascii "b.spv", ascii "-d", ascii "a.spv"]).status =
        1 := by
  have accepted : spec.parse {} [ascii "b.spv", ascii "-d", ascii "a.spv"] =
      (none, { files := #[ascii "b.spv", ascii "a.spv"], dump := true }) := by decide +kernel
  have missing : oneFile.look (ascii "b.spv") = .absent Host.ErrorNumber.noEntry := by
    decide +kernel
  have there : oneFile.look (ascii "a.spv") = .file headerOnly := by decide +kernel
  have readable : ∀ path ∈ #[ascii "b.spv", ascii "a.spv"], Readable oneFile.look path := by
    intro path isPath isFile
    simp only [List.mem_toArray, List.mem_cons, List.not_mem_nil, or_false] at isPath
    rcases isPath with rfl | rfl
    · rw [missing] at isFile
      cases isFile
    · exact ⟨headerOnly, there⟩
  obtain ⟨-, -, written, succeeds, fails⟩ :=
    runOn_independent oneFile.look ⟨false, false⟩ accepted readable
  have singles : Singles { files := #[ascii "b.spv", ascii "a.spv"], dump := true }
      [ascii "b.spv", ascii "a.spv"]
      [[ascii "b.spv", ascii "-d"], [ascii "-d", ascii "a.spv"]] :=
    .cons (by decide +kernel) (.cons (by decide +kernel) .nil)
  constructor
  · simpa using (written _ singles).1
  · apply fails
    intro succeeded
    obtain ⟨contents, m, isFile, -⟩ := succeeds.mp succeeded (ascii "b.spv") (by simp)
    rw [missing] at isFile
    cases isFile

end Tool

end SpirvInspector
