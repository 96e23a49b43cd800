import SpirvInspector.Proofs.CommandLine.Steps
import SpirvInspector.Tool.Options

/-!
# Command lines of the inspector

No option looks at the files that were given. From a command line that is accepted, all files can be
taken away, and what is left sets the same options for any file that is put in front.
-/

set_option autoImplicit false

namespace SpirvInspector

namespace Tool

open CommandLine (Entry Counted Spec)

namespace Options

def withFiles (files : Array Bytes) (options : Options) : Options :=
  { options with files }

theorem withFiles_self (options : Options) : options.withFiles options.files = options := rfl

end Options

/-- No option of the inspector sees the files. -/
theorem ignores_withFiles (files : Array Bytes) :
    ∀ entry ∈ spec.options, entry.Ignores (Options.withFiles files) := by
  intro entry isEntry setter isSetter value options
  simp only [spec, List.mem_cons, List.not_mem_nil, or_false] at isEntry
  rcases isEntry with rfl | rfl | rfl | rfl | rfl | rfl
  · cases isSetter
  · cases isSetter
    rfl
  · cases isSetter
    unfold Options.setLimit
    cases Text.integer? value with
    | none => rfl
    | some n => by_cases negative : n < 0 <;> simp [negative, Options.withFiles]
  · cases isSetter
    rfl
  · cases isSetter
    rfl
  · cases isSetter
    unfold Options.setVerbosity
    dsimp only
    split <;> rfl

theorem named_options :
    ∀ entry ∈ spec.options, entry.isArgument = false ∧ entry.short ≠ some [] := by decide

/-- Any token can be one more file. -/
theorem meet_fileArgument (token : Bytes) (rest : List Bytes) (times : Nat) :
    spec.meet token rest [⟨fileArgument, times⟩] =
      some (.call fileArgument token rest [⟨fileArgument, times + 1⟩]) := by
  have take : fileArgument.take times token rest = .value token rest := by
    simp [Entry.take, fileArgument, Entry.isArgument]
  rw [Spec.meet, take]

theorem step_fileArgument (options : Options) (token : Bytes) (rest : List Bytes) (times : Nat) :
    spec.step options token rest [⟨fileArgument, times⟩] =
      .matched rest [⟨fileArgument, times + 1⟩]
        (options.withFiles (options.files.push token)) := by
  rw [Spec.step_eq_meet, meet_fileArgument]
  rfl

/-- A command line is complete when its options are and there is a file. -/
theorem conclude_eq_none_iff {counted : List (Counted Options)} {times : Nat} :
    spec.conclude counted [⟨fileArgument, times⟩] = none ↔
      Spec.missing? counted = none ∧ times ≠ 0 := by
  unfold Spec.conclude
  cases Spec.missing? counted with
  | some entry => simp
  | none =>
    by_cases given : times = 0 <;> simp [Spec.missing?, given, fileArgument]

theorem readTokens_nil (bound : Nat) (counted arguments : List (Counted Options))
    (options : Options) :
    spec.readTokens bound counted arguments options [] =
      (spec.conclude counted arguments, options) := by
  cases bound <;> rfl

/-- What becomes of tokens that are accepted: there is a file, the files do not look like options,
and without them the tokens do the same in front of any other files. -/
structure Accepted (counted : List (Counted Options)) (start final : Options) : Prop where
  given : final.files ≠ #[]
  plain : ∀ path ∈ final.files, path ∈ start.files ∨ Spec.looksLikeOption path = false
  stripped : ∃ kept : List Bytes, ∀ files, files ≠ #[] → ∀ bound, kept.length ≤ bound →
    spec.readTokens bound counted [⟨fileArgument, files.size⟩] (start.withFiles files) kept =
      (none, final.withFiles files)

namespace Accepted

variable {counted : List (Counted Options)} {start final : Options}

theorem done {bound : Nat}
    (read : spec.readTokens bound counted [⟨fileArgument, start.files.size⟩] start [] =
      (none, final)) : Accepted counted start final := by
  rw [readTokens_nil] at read
  obtain ⟨concluded, rfl⟩ := Prod.mk.inj read
  obtain ⟨complete, given⟩ := conclude_eq_none_iff.mp concluded
  refine ⟨fun none => given (by rw [none]; rfl), fun path isPath => .inl isPath, [], ?_⟩
  intro files some bound _
  have sized : files.size ≠ 0 := fun none => some (Array.eq_empty_of_size_eq_zero none)
  rw [readTokens_nil, conclude_eq_none_iff.mpr ⟨complete, sized⟩]

/-- An option in front, with the tokens it takes. -/
theorem option {next : List (Counted Options)} {after : Options} {token : Bytes}
    {taken : List Bytes}
    (step : ∀ files others, spec.step (start.withFiles files) token (taken ++ others) counted =
      .matched others next (after.withFiles files))
    (unchanged : after.files = start.files) (accepted : Accepted next after final) :
    Accepted counted start final := by
  obtain ⟨given, plain, kept, stripped⟩ := accepted
  refine ⟨given, unchanged ▸ plain, token :: (taken ++ kept), ?_⟩
  intro files some bound enough
  cases bound with
  | zero => cases enough
  | succ bound =>
    rw [Spec.readTokens, step]
    apply stripped files some
    rw [List.length_cons, List.length_append] at enough
    omega

/-- A file in front, which is left out. -/
theorem file {token : Bytes} (isPlain : Spec.looksLikeOption token = false)
    (accepted : Accepted counted (start.withFiles (start.files.push token)) final) :
    Accepted counted start final := by
  obtain ⟨given, plain, stripped⟩ := accepted
  refine ⟨given, ?_, stripped⟩
  intro path isPath
  rcases plain path isPath with earlier | isPlainToo
  · rcases Array.mem_push.mp earlier with isEarlier | rfl
    · exact .inl isEarlier
    · exact .inr isPlain
  · exact .inr isPlainToo

end Accepted

/-- Tokens that are read to their end, one step after another. -/
theorem accepted_of_readTokens {bound : Nat} {counted : List (Counted Options)}
    {start final : Options} {tokens : List Bytes}
    (entries : counted.map Counted.entry = spec.options) (enough : tokens.length ≤ bound)
    (read : spec.readTokens bound counted [⟨fileArgument, start.files.size⟩] start tokens =
      (none, final)) : Accepted counted start final := by
  induction bound generalizing counted start tokens with
  | zero =>
    obtain rfl := List.length_eq_zero_iff.mp (Nat.le_zero.mp enough)
    exact .done read
  | succ bound inductionHypothesis =>
    cases tokens with
    | nil => exact .done read
    | cons token rest =>
      have isListed (entry : Counted Options) (isEntry : entry ∈ counted) :
          entry.entry ∈ spec.options := by
        rw [← entries]
        exact List.mem_map_of_mem isEntry
      rw [Spec.readTokens] at read
      cases stepped : spec.step start token rest counted with
      | exit exit options =>
        rw [stepped] at read
        cases read
      | matched left next after =>
        rw [stepped] at read
        obtain ⟨same, taken, split, step⟩ := Spec.step_matched stepped
        have everywhere (files : Array Bytes) := step (Options.withFiles files)
          fun entry isEntry => ignores_withFiles files _ (isListed entry isEntry)
        have unchanged : after.files = start.files := by
          have again := everywhere start.files left
          rw [← split, Options.withFiles_self, stepped] at again
          injection again with _ _ sameOptions
          rw [sameOptions]
          rfl
        rw [← unchanged] at read
        apply Accepted.option everywhere unchanged
        apply inductionHypothesis (same.trans entries) _ read
        rw [split, List.length_cons, List.length_append] at enough
        omega
      | unmatched =>
        rw [stepped] at read
        cases isOption : Spec.looksLikeOption token with
        | true => simp [isOption] at read
        | false =>
          have size : (start.withFiles (start.files.push token)).files.size =
              start.files.size + 1 := Array.size_push token
          rw [isOption, step_fileArgument, ← size] at read
          apply Accepted.file isOption
          exact inductionHypothesis entries (Nat.le_of_succ_le_succ enough) read

/-- The entries of the options before any of them was given. -/
def ungiven : List (Counted Options) :=
  spec.options.map fun entry => ⟨entry, 0⟩

theorem parse_cons (token : Bytes) (rest : List Bytes) :
    spec.parse {} (token :: rest) =
      spec.readTokens (rest.length + 1) ungiven [⟨fileArgument, ({} : Options).files.size⟩] {}
        (token :: rest) := rfl

/-- An accepted command line names a file, and for each of its files there is a command line that
sets the same options for this file alone. -/
theorem exists_single {tokens : List Bytes} {options : Options}
    (accepted : spec.parse {} tokens = (none, options)) :
    options.files ≠ #[] ∧
      ∀ path ∈ options.files, ∃ single,
        spec.parse {} single = (none, options.withFiles #[path]) := by
  cases tokens with
  | nil => cases accepted
  | cons token rest =>
    have entries : ungiven.map Counted.entry = spec.options := rfl
    rw [parse_cons] at accepted
    have enough : (token :: rest).length ≤ rest.length + 1 := Nat.le_refl _
    obtain ⟨given, plain, kept, stripped⟩ := accepted_of_readTokens entries enough accepted
    refine ⟨given, ?_⟩
    intro path isPath
    have isPlain : Spec.looksLikeOption path = false := by
      rcases plain path isPath with earlier | isPlain
      · cases Array.not_mem_empty path earlier
      · exact isPlain
    have unmatched : spec.step {} path kept ungiven = .unmatched := by
      apply Spec.step_of_plain isPlain
      intro counted isCounted
      apply named_options
      rw [← entries]
      exact List.mem_map_of_mem isCounted
    refine ⟨path :: kept, ?_⟩
    rw [parse_cons, Spec.readTokens, unmatched, isPlain, step_fileArgument]
    exact stripped #[path] (by simp) kept.length (Nat.le_refl _)

end Tool

end SpirvInspector
