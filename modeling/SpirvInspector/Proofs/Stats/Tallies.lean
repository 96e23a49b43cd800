import Mathlib.Algebra.GroupWithZero.Nat
import SpirvInspector.Proofs.Load.Completion
import SpirvInspector.Stats.Usage

/-!
# Statistics agree with the module they describe

The usages of a module are a table ordered by opcode, which holds every opcode that occurs, with the
number of its occurrences. The number of words comes from the size of the file, the number of
instructions from the stream, and the numbers of functions and blocks from the layout; of a module
that was loaded to its end they all tell the same.
-/

set_option autoImplicit false

namespace SpirvInspector

namespace OpcodeUsage

/-- The count under an opcode, which is zero for an opcode that is not listed. -/
def countOf (opcode : Opcode) (usages : List OpcodeUsage) : Nat :=
  (usages.map fun usage => if usage.opcode = opcode then usage.count else 0).sum

def Ascending (usages : List OpcodeUsage) : Prop :=
  usages.Pairwise fun first second => first.opcode < second.opcode

variable {usages : List OpcodeUsage} (opcode : Opcode) (operands : Nat)

theorem mem_opcodes_tally (other : Opcode) :
    other ∈ (tally opcode operands usages).map OpcodeUsage.opcode ↔
      other = opcode ∨ other ∈ usages.map OpcodeUsage.opcode := by
  induction usages with
  | nil => simp [tally, fresh, add]
  | cons usage usages inductionHypothesis =>
    rw [tally]
    split
    · simp [fresh, add]
    · split
      · next same => simp [add, same]
      · simp only [List.map_cons, List.mem_cons, inductionHypothesis]
        exact or_left_comm

theorem ascending_tally (ascending : Ascending usages) :
    Ascending (tally opcode operands usages) := by
  induction usages with
  | nil => exact List.pairwise_singleton _ _
  | cons usage usages inductionHypothesis =>
    obtain ⟨below, others⟩ := List.pairwise_cons.mp ascending
    rw [tally]
    split
    · next before =>
      refine List.pairwise_cons.mpr ⟨?_, ascending⟩
      intro later isLater
      rcases List.mem_cons.mp isLater with rfl | isBehind
      · exact before
      · exact UInt16.lt_trans before (below later isBehind)
    · next notBefore =>
      split
      · exact List.pairwise_cons.mpr ⟨below, others⟩
      · next different =>
        have behind : usage.opcode < opcode :=
          UInt16.lt_of_le_of_ne (UInt16.not_lt.mp notBefore) (Ne.symm different)
        refine List.pairwise_cons.mpr ⟨?_, inductionHypothesis others⟩
        intro later isLater
        have listed := (mem_opcodes_tally opcode operands later.opcode).mp
          (List.mem_map_of_mem isLater)
        rcases listed with same | isListed
        · rw [same]
          exact behind
        · obtain ⟨earlier, isEarlier, same⟩ := List.mem_map.mp isListed
          rw [← same]
          exact below earlier isEarlier

theorem countOf_tally (other : Opcode) :
    countOf other (tally opcode operands usages) =
      countOf other usages + if opcode = other then 1 else 0 := by
  induction usages with
  | nil => simp [tally, countOf, fresh, add]
  | cons usage usages inductionHypothesis =>
    have cons (first : OpcodeUsage) (later : List OpcodeUsage) :
        countOf other (first :: later) =
          (if first.opcode = other then first.count else 0) + countOf other later := rfl
    rw [tally]
    split
    · rw [cons]
      simp [fresh, add]
      omega
    · split
      · next same =>
        rw [cons, cons, same]
        by_cases isOther : usage.opcode = other <;> simp [add, isOther]
        omega
      · rw [cons, cons, inductionHypothesis]
        omega

theorem sum_tally :
    ((tally opcode operands usages).map OpcodeUsage.count).sum =
      (usages.map OpcodeUsage.count).sum + 1 := by
  induction usages with
  | nil => rfl
  | cons usage usages inductionHypothesis =>
    rw [tally]
    split
    · simp [fresh, add]
      omega
    · split
      · simp [add]
        omega
      · simp only [List.map_cons, List.sum_cons, inductionHypothesis]
        omega

theorem countOf_eq_zero (unlisted : ∀ usage ∈ usages, usage.opcode ≠ opcode) :
    countOf opcode usages = 0 := by
  rw [countOf, List.sum_eq_zero_iff_forall_eq_nat, List.forall_mem_map]
  intro usage isUsage
  exact if_neg (unlisted usage isUsage)

/-- Where each opcode is listed once, its count is that of its entry. -/
theorem countOf_of_mem {usage : OpcodeUsage} (ascending : Ascending usages)
    (isUsage : usage ∈ usages) : countOf usage.opcode usages = usage.count := by
  induction usages with
  | nil => cases isUsage
  | cons first later inductionHypothesis =>
    obtain ⟨below, others⟩ := List.pairwise_cons.mp ascending
    rw [countOf, List.map_cons, List.sum_cons]
    rcases List.mem_cons.mp isUsage with rfl | isLater
    · have unlisted : ∀ other ∈ later, other.opcode ≠ usage.opcode := by
        intro other isOther
        exact Ne.symm (UInt16.ne_of_lt (below other isOther))
      rw [if_pos rfl]
      exact congrArg (usage.count + ·) (countOf_eq_zero _ unlisted)
    · rw [if_neg (UInt16.ne_of_lt (below usage isLater)), Nat.zero_add]
      exact inductionHypothesis others isLater

end OpcodeUsage

namespace ModuleStats

open OpcodeUsage

/-- `Tallied stats insts`: the instructions are those that were counted. -/
structure Tallied (stats : ModuleStats) (insts : List Instruction) : Prop where
  instructions : stats.instructions = insts.length
  ascending : Ascending stats.usages
  listed : ∀ opcode, opcode ∈ stats.usages.map OpcodeUsage.opcode ↔
    ∃ inst ∈ insts, inst.opcode = opcode
  counted : ∀ opcode, countOf opcode stats.usages = insts.countP (·.opcode = opcode)
  total : (stats.usages.map OpcodeUsage.count).sum = insts.length

theorem size_add (sampler : Sampler) (x : Float) : (sampler.add x).size = sampler.size + 1 := by
  unfold Sampler.add
  split
  · next none => rw [none]
  · rfl

namespace Tallied

theorem none (words functions blocks : Nat) : Tallied ⟨words, functions, blocks, {}, []⟩ [] where
  instructions := rfl
  ascending := List.Pairwise.nil
  listed := by simp
  counted := by simp [countOf]
  total := rfl

theorem add {stats : ModuleStats} {insts : List Instruction} (tallied : Tallied stats insts)
    (inst : Instruction) : Tallied (stats.add inst) (insts ++ [inst]) where
  instructions := by
    rw [List.length_append, ← tallied.instructions]
    exact size_add _ _
  ascending := ascending_tally _ _ tallied.ascending
  listed opcode := by
    refine (mem_opcodes_tally _ _ opcode).trans ?_
    rw [tallied.listed]
    simp [or_and_right, exists_or, or_comm, eq_comm]
  counted opcode := by
    refine (countOf_tally _ _ opcode).trans ?_
    rw [tallied.counted, List.countP_append, List.countP_singleton]
    simp
  total := by
    refine (sum_tally _ _).trans ?_
    rw [tallied.total, List.length_append, List.length_singleton]

theorem foldl {stats : ModuleStats} {insts : List Instruction} (tallied : Tallied stats insts)
    (later : List Instruction) :
    Tallied (later.foldl ModuleStats.add stats) (insts ++ later) := by
  induction later generalizing stats insts with
  | nil => rwa [List.append_nil]
  | cons inst later inductionHypothesis =>
    rw [List.append_cons]
    exact inductionHypothesis (tallied.add inst)

end Tallied

theorem tallied_ofModule (m : Module) (fileBytes : Nat) :
    Tallied (ofModule m fileBytes) m.instructions.toList := by
  rw [ofModule, ← Array.foldl_toList]
  exact (Tallied.none _ _ _).foldl _

/-- Counting instructions leaves what the file and the layout tell. -/
theorem foldl_add (insts : List Instruction) (stats : ModuleStats) :
    (insts.foldl add stats).words = stats.words ∧
      (insts.foldl add stats).functions = stats.functions ∧
      (insts.foldl add stats).blocks = stats.blocks := by
  induction insts generalizing stats with
  | nil => exact ⟨rfl, rfl, rfl⟩
  | cons inst later inductionHypothesis => exact inductionHypothesis (stats.add inst)

theorem totals_ofModule (m : Module) (fileBytes : Nat) :
    (ofModule m fileBytes).words = fileBytes / 4 ∧
      (ofModule m fileBytes).functions = m.functions.size ∧
      (ofModule m fileBytes).blocks = m.blocks.length := by
  rw [ofModule, ← Array.foldl_toList]
  obtain ⟨words, functions, blocks⟩ := foldl_add m.instructions.toList
    ⟨fileBytes / 4, m.functions.size,
      m.functions.foldl (fun total function => total + function.blocks.size) 0, {}, []⟩
  have counted (functions : List Function) (start : Nat) :
      functions.foldl (fun total function => total + function.blocks.size) start =
        start + (functions.flatMap fun function => function.blocks.toList).length := by
    induction functions generalizing start with
    | nil => rfl
    | cons function later inductionHypothesis =>
      rw [List.foldl_cons, inductionHypothesis, List.flatMap_cons, List.length_append,
        ← Array.length_toList, Nat.add_assoc]
  refine ⟨words, functions, blocks.trans ?_⟩
  rw [← Array.foldl_toList, counted, Nat.zero_add]
  rfl

section Frequency

/-- More frequent, or as frequent and of a lower opcode. -/
def Outranks (first second : OpcodeUsage) : Prop :=
  second.count < first.count ∨ first.count = second.count ∧ first.opcode < second.opcode

theorem frequency_trans (a b c : OpcodeUsage) :
    decide (b.count ≤ a.count) = true → decide (c.count ≤ b.count) = true →
      decide (c.count ≤ a.count) = true := by
  simp only [decide_eq_true_eq]
  omega

theorem frequency_total (a b : OpcodeUsage) :
    (decide (b.count ≤ a.count) || decide (a.count ≤ b.count)) = true := by
  simp only [Bool.or_eq_true, decide_eq_true_eq]
  omega

variable (stats : ModuleStats)

theorem perm_byFrequency : stats.byFrequency.Perm stats.usages :=
  List.mergeSort_perm _ _

theorem count_le_byFrequency :
    stats.byFrequency.Pairwise fun first second => second.count ≤ first.count := by
  have sorted := List.pairwise_mergeSort frequency_trans frequency_total stats.usages
  simp only [decide_eq_true_eq] at sorted
  exact sorted

/-- Opcodes that are equally frequent stay in the order of the table. -/
theorem filter_byFrequency (n : Nat) :
    stats.byFrequency.filter (·.count = n) = stats.usages.filter (·.count = n) := by
  have equals : (stats.usages.filter (·.count = n)).Pairwise fun first second =>
      decide (second.count ≤ first.count) = true := by
    apply List.pairwise_of_forall_mem_list
    intro first isFirst second isSecond
    simp only [List.mem_filter, decide_eq_true_eq] at isFirst isSecond ⊢
    omega
  have kept : (stats.usages.filter (·.count = n)).Sublist stats.byFrequency :=
    List.sublist_mergeSort frequency_trans frequency_total equals List.filter_sublist
  have filtered := kept.filter (·.count = n)
  simp only [List.filter_filter, Bool.and_self] at filtered
  exact (filtered.eq_of_length (stats.perm_byFrequency.filter _).length_eq.symm).symm

theorem pairwise_byFrequency (ascending : Ascending stats.usages) :
    stats.byFrequency.Pairwise Outranks := by
  rw [List.pairwise_iff_forall_sublist]
  intro first second isPair
  rcases Nat.lt_or_eq_of_le (List.pairwise_iff_forall_sublist.mp stats.count_le_byFrequency isPair)
    with less | same
  · exact .inl less
  · have equals : [first, second].Sublist (stats.usages.filter (·.count = first.count)) := by
      rw [← filter_byFrequency]
      have filtered := isPair.filter (fun usage => decide (usage.count = first.count))
      simpa [same] using filtered
    have inTable := equals.trans List.filter_sublist
    exact .inr ⟨same.symm, List.pairwise_iff_forall_sublist.mp ascending inTable⟩

end Frequency

/-- `Agrees stats entries`: what the statistics say is told by the instructions of the stream. -/
structure Agrees (stats : ModuleStats) (entries : List Framed) : Prop where
  words : stats.words = Header.wordCount + Framed.words entries
  instructions : stats.instructions = entries.length
  total : (stats.usages.map OpcodeUsage.count).sum = entries.length
  /-- The opcodes that occur are listed, each one once. -/
  listed : ∀ opcode, opcode ∈ stats.usages.map OpcodeUsage.opcode ↔
    ∃ entry ∈ entries, entry.2.opcode = opcode
  ascending : stats.usages.Pairwise fun first second => first.opcode < second.opcode
  counted : ∀ usage ∈ stats.usages,
    usage.count = entries.countP fun entry => entry.2.opcode = usage.opcode
  definitions : stats.functions = entries.countP fun entry => entry.2.opcode == Opcode.opFunction
  closings : stats.functions = entries.countP fun entry => entry.2.opcode == Opcode.opFunctionEnd
  labels : stats.blocks = entries.countP fun entry => entry.2.opcode == Opcode.opLabel
  terminators : stats.blocks = entries.countP fun entry => entry.2.opcode.isTerminator
  permuted : stats.byFrequency.Perm stats.usages
  ranked : stats.byFrequency.Pairwise fun first second =>
    second.count < first.count ∨ first.count = second.count ∧ first.opcode < second.opcode

theorem agrees_of_completed {bytes : Bytes} {entries : List Framed} {m : Module}
    (completed : Completed bytes entries m) : Agrees (ofModule m bytes.length) entries := by
  have tallied := tallied_ofModule m bytes.length
  obtain ⟨words, functions, blocks⟩ := totals_ofModule m bytes.length
  have marked (mark : Landmark) :
      mark.count m = entries.countP fun entry => mark.marks entry.2.opcode := by
    rw [completed.landmarks mark, List.countP_map]
    rfl
  rw [completed.instructions] at tallied
  constructor
  case words => rw [words, completed.words]
  case instructions => rw [tallied.instructions, List.length_map]
  case total => rw [tallied.total, List.length_map]
  case listed =>
    intro opcode
    rw [tallied.listed]
    simp only [List.mem_map, exists_exists_and_eq_and]
  case ascending => exact tallied.ascending
  case counted =>
    intro usage isUsage
    rw [← countOf_of_mem tallied.ascending isUsage, tallied.counted, List.countP_map]
    rfl
  case definitions => exact functions.trans (marked .definition)
  case closings => exact functions.trans (marked .closing)
  case labels => exact blocks.trans (marked .label)
  case terminators => exact blocks.trans (marked .terminator)
  case permuted => exact perm_byFrequency _
  case ranked => exact pairwise_byFrequency _ tallied.ascending

end ModuleStats

/-- The statistics of a module that was loaded to its end agree with all that was delivered. -/
theorem stats_agree {m loaded : Module} {verbosity : Int} {bytes trace : Bytes}
    {outcome : Outcome} (loads : m.load 0 verbosity bytes = ⟨outcome, loaded, trace⟩)
    (complete : outcome.state = .complete) :
    ∃ header entries, transcript bytes = moduleEvents header entries none ∧
      loaded.instructions.toList = entries.map Prod.snd ∧
      (ModuleStats.ofModule loaded bytes.length).Agrees entries := by
  obtain ⟨entries, completed⟩ := completed_of_load loads complete
  obtain ⟨header, delivered⟩ := completed.delivered
  exact ⟨header, entries, delivered, completed.instructions,
    ModuleStats.agrees_of_completed completed⟩

/-- A function of one block, behind two types of the same opcode, and a ragged tail. -/
def smallFunction : Bytes :=
  Word.serialize [Header.magicNumber, 0x10400, 0, 6, 0, 0x20013, 1, 0x20013, 2, 0x30021, 3, 1,
    0x50036, 1, 4, 0, 3, 0x200f8, 5, 0x100fd, 0x10038] ++ [7]

theorem stats_smallFunction :
    ∃ outcome loaded trace, ({} : Module).load 0 0 smallFunction = ⟨outcome, loaded, trace⟩ ∧
      outcome.state = .complete ∧ ∃ header entries,
        transcript smallFunction = moduleEvents header entries none ∧
        (ModuleStats.ofModule loaded smallFunction.length).Agrees entries ∧
        entries.length = 7 := by
  have complete : (({} : Module).load 0 0 smallFunction).outcome.state = .complete := by
    decide +kernel
  have size : (({} : Module).load 0 0 smallFunction).module.instructions.size = 7 := by
    decide +kernel
  rcases loads : ({} : Module).load 0 0 smallFunction with ⟨outcome, loaded, trace⟩
  rw [loads] at complete size
  obtain ⟨header, entries, delivered, instructions, agrees⟩ := stats_agree loads complete
  refine ⟨outcome, loaded, trace, rfl, complete, header, entries, delivered, agrees, ?_⟩
  have length := congrArg List.length instructions
  rw [Array.length_toList, List.length_map] at length
  exact length.symm.trans size

end SpirvInspector
