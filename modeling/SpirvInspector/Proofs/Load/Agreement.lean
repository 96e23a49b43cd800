import SpirvInspector.Proofs.Load.Limit

/-!
# What a load reports about a parse

Loading with diagnostics is a parse into a fresh loader and a report about how it ended. A loader
refuses nothing before it has been given the header, so a parse that completes or that the loader
stops has a header to show, and the report of a module without one is never made.
-/

set_option autoImplicit false

namespace SpirvInspector

variable {σ : Type}

theorem Section.header_file (inst : Instruction) (m : Module) (part : Section) :
    (part.file inst m).header = m.header := by
  cases part <;> rfl

namespace Loader

theorem header_module (loader : Loader) : loader.module.header = loader.shelf.header := by
  unfold module
  cases loader.current <;> rfl

theorem header_add (loader : Loader) (inst : Instruction) :
    (loader.add inst).2.shelf.header = loader.shelf.header := by
  have added := loader.add_added inst
  generalize (loader.add inst).1 = answer at added
  generalize (loader.add inst).2 = after at added
  cases added with
  | stopped full => rfl
  | refused room refused => rfl
  | placed room filing =>
    cases filing with
    | filed wanted room => exact Section.header_file _ _ _
    | grown unwanted grows => rfl

variable {bytes rest : Bytes} {header : Header} (m : Module) (limit : Nat)

/-- Once the header is there, no instruction and no end of the module takes it away. -/
theorem header_of_parse (parsed : Header.parse bytes = .ok (header, rest)) :
    (parse sink (.ofModule m limit) bytes).2.module.header = some header := by
  obtain ⟨entries, ending, scan⟩ := exists_scan Header.byteCount 1 rest
  rw [parse_of_offers _ _ (.opened parsed scan), header_module]
  change (sink.offer _ (entries.map Framed.event ++ closing ending)
    ((ofModule {} limit).header header).2).2.shelf.header = some header
  apply Sink.offer_induction fun loader : Loader => loader.shelf.header = some header
  · intro event isEvent loader hasHeader
    rcases List.mem_append.mp isEvent with isInstruction | isClosing
    · obtain ⟨entry, -, rfl⟩ := List.mem_map.mp isInstruction
      exact (header_add loader entry.2).trans hasHeader
    · cases ending with
      | some outcome => cases isClosing
      | none =>
        cases List.mem_singleton.mp isClosing
        exact hasHeader
  · rfl

theorem parse_of_headless {outcome : Outcome} (refused : Header.parse bytes = .error outcome) :
    parse sink (.ofModule m limit) bytes = (outcome, .ofModule {} limit) := by
  rw [parse_of_offers _ _ (.headless refused)]
  rfl

theorem state_ne_of_unlimited :
    (parse sink (.ofModule m 0) bytes).1.state ≠ .consumerStopRequested := by
  obtain ⟨start, entries, halted, ending, loading⟩ := exists_loading bytes
  have same : start.withLimit 0 = start := by
    rw [withLimit, ← loading.unlimited]
  rw [loading.parsed, same]
  exact (offer_unlimited loading.unlimited ending entries halted loading.unstopped).1

/-- A loader is left with a header unless the parse ended at malformed bytes. -/
theorem exists_header {outcome : Outcome} {loader : Loader}
    (ended : parse sink (.ofModule m limit) bytes = (outcome, loader))
    (sound : outcome.state.isMalformed = false) :
    ∃ header rest, Header.parse bytes = .ok (header, rest) ∧
      loader.module.header = some header := by
  cases parsed : Header.parse bytes with
  | error refusal =>
    rw [parse_of_headless m limit parsed] at ended
    cases ended
    rw [Header.isMalformed_of_parse parsed] at sound
    cases sound
  | ok read =>
    have headed := header_of_parse m limit parsed
    rw [ended] at headed
    exact ⟨read.1, read.2, rfl, headed⟩

end Loader

theorem Module.module_load (m : Module) (limit : Nat) (verbosity : Int) (bytes : Bytes) :
    (m.load limit verbosity bytes).module =
      (parse Loader.sink (.ofModule m limit) bytes).2.module := by
  have traced := (Loader.sink.traced_wraps (decide (1 < verbosity))).parse
    ⟨.ofModule m limit, #[]⟩ bytes
  exact (congrArg (fun result => result.2.module) traced).symm

namespace Outcome

/-- A parse whose module is worth keeping. -/
def Usable (outcome : Outcome) : Prop :=
  outcome.state = .complete ∨ outcome.state = .consumerStopRequested

theorem usable_iff (outcome : Outcome) :
    outcome.Usable ↔ (outcome.stopped || outcome.succeeded) = true := by
  rw [Usable, Bool.or_eq_true, stopped, succeeded, beq_iff_eq, beq_iff_eq, or_comm]

theorem Usable.isMalformed {outcome : Outcome} (usable : outcome.Usable) :
    outcome.state.isMalformed = false := by
  rcases usable with complete | stopped
  · rw [complete]
    rfl
  · rw [stopped]
    rfl

end Outcome

namespace Inquiry

variable (inquiry : Inquiry) (terminal : Bool) {limit : Nat} {outcome : Outcome} {loader : Loader}
  (parsed : parse Loader.sink (.ofModule {} limit) inquiry.input = (outcome, loader))

include parsed

theorem loadModule_of_usable (usable : outcome.Usable) {header : Header}
    (hasHeader : loader.module.header = some header) :
    (inquiry.loadModule terminal limit).result = .ok loader.module ∧
      (inquiry.loadModule terminal limit).inquiry =
        if header.reserved = 0 then inquiry
        else inquiry.warn reservedLocation (reservedMessage header.reserved) := by
  have isOutcome : (({} : Module).load limit inquiry.verbosity inquiry.input).outcome =
      outcome := by
    rw [Module.outcome_load, parsed]
  have isModule : (({} : Module).load limit inquiry.verbosity inquiry.input).module =
      loader.module := by
    rw [Module.module_load, parsed]
  rw [← isOutcome, Outcome.usable_iff] at usable
  rw [← isModule] at hasHeader
  rw [loadModule, if_pos usable, accept, hasHeader]
  exact ⟨congrArg Except.ok isModule, rfl⟩

theorem loadModule_of_not_usable (useless : ¬outcome.Usable) :
    (inquiry.loadModule terminal limit).result =
        .error (inquiry.error (outcome.location inquiry.input.length) outcome.message) ∧
      (inquiry.loadModule terminal limit).inquiry = inquiry := by
  have isOutcome : (({} : Module).load limit inquiry.verbosity inquiry.input).outcome =
      outcome := by
    rw [Module.outcome_load, parsed]
  rw [← isOutcome, Outcome.usable_iff] at useless
  rw [loadModule, if_neg useless, isOutcome]
  exact ⟨rfl, rfl⟩

end Inquiry

/-- What is reported about a parse that ended with this outcome and this loader. -/
structure Agreement (limit : Nat) (path input : Bytes) (outcome : Outcome) (loader : Loader)
    (inspection : Inspection) : Prop where
  returns : (∃ m, inspection.result = .ok m) ↔
    outcome.state = .complete ∨ outcome.state = .consumerStopRequested
  returned : ∀ m, inspection.result = .ok m → m = loader.module ∧
    ∃ header rest, Header.parse input = .ok (header, rest) ∧ m.header = some header ∧
      inspection.inquiry.warnings =
        if header.reserved = 0 then #[]
        else #[⟨.warning, ⟨16, 0, 4⟩, Inquiry.reservedMessage header.reserved, path, input⟩]
  stopped : inspection.stopped = true ↔ outcome.state = .consumerStopRequested
  limited : outcome.state = .consumerStopRequested → limit ≠ 0
  /-- The one error there is comes from the outcome, and never from the program itself. -/
  failed : ∀ diagnostic, inspection.result = .error diagnostic →
    diagnostic = ⟨.error, outcome.location input.length, outcome.message, path, input⟩ ∧
      inspection.inquiry.warnings = #[]

/-- Loading with diagnostics agrees with the parse into a fresh loader, whatever the input is. -/
theorem loadModule_agrees (verbosity : Int) (path input : Bytes) (terminal : Bool) (limit : Nat) :
    Agreement limit path input (parse Loader.sink (.ofModule {} limit) input).1
      (parse Loader.sink (.ofModule {} limit) input).2
      ((Inquiry.begin verbosity path input).loadModule terminal limit) := by
  rcases ended : parse Loader.sink (.ofModule {} limit) input with ⟨outcome, loader⟩
  have stopped : ((Inquiry.begin verbosity path input).loadModule terminal limit).stopped = true ↔
      outcome.state = .consumerStopRequested := by
    rw [Inquiry.stopped_loadModule, Inquiry.begin, ended]
    exact beq_iff_eq
  have limited : outcome.state = .consumerStopRequested → limit ≠ 0 := by
    rintro isStopped rfl
    apply Loader.state_ne_of_unlimited {}
    rw [ended]
    exact isStopped
  by_cases usable : outcome.Usable
  · obtain ⟨header, rest, parsed, headed⟩ := Loader.exists_header {} limit ended usable.isMalformed
    obtain ⟨isOk, warned⟩ := Inquiry.loadModule_of_usable (.begin verbosity path input) terminal
      ended usable headed
    refine ⟨iff_of_true ⟨_, isOk⟩ usable, ?_, stopped, limited, ?_⟩
    · intro m isModule
      rw [isOk] at isModule
      cases isModule
      refine ⟨rfl, header, rest, parsed, headed, ?_⟩
      rw [warned]
      split <;> rfl
    · intro diagnostic isError
      rw [isOk] at isError
      cases isError
  · obtain ⟨isFailed, unchanged⟩ := Inquiry.loadModule_of_not_usable (.begin verbosity path input)
      terminal ended usable
    refine ⟨iff_of_false ?_ usable, ?_, stopped, limited, ?_⟩
    · rintro ⟨m, isModule⟩
      rw [isFailed] at isModule
      cases isModule
    · intro m isModule
      rw [isFailed] at isModule
      cases isModule
    · intro diagnostic isError
      rw [isFailed] at isError
      cases isError
      refine ⟨rfl, ?_⟩
      rw [unchanged]
      rfl

end SpirvInspector
