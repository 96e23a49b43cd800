import SpirvInspector.Module.Listing
import SpirvInspector.Proofs.Grammar.Descriptions
import SpirvInspector.Proofs.Load.Completion

/-!
# The lines of a listing

A listing is written line by line: headings, and each instruction of the layout once. Nothing that
an instruction is written with breaks its line, neither numerals nor symbols nor names, except for
the newlines that a string literal holds.
-/

set_option autoImplicit false

namespace SpirvInspector

open Text

namespace Text

theorem newline_notMem_decimal (n : Nat) : Bytes.newline ∉ decimal n := by
  intro isIn
  obtain ⟨d, isDigit, isNewline⟩ := List.mem_map.mp isIn
  have small : d < 16 := Nat.lt_trans (lt_of_mem_digits (by decide) isDigit) (by decide)
  have shown := isHexDigit_digitByte small
  rw [isNewline] at shown
  cases shown

theorem newline_notMem_hexadecimal {n : Nat} {text : Bytes} (hexadecimal : Hexadecimal n text) :
    Bytes.newline ∉ text :=
  hexadecimal.notMem (by decide) rfl

theorem newline_notMem_intercalate {parts : List Bytes}
    (unbroken : ∀ part ∈ parts, Bytes.newline ∉ part) :
    Bytes.newline ∉ (ascii "|").intercalate parts := by
  induction parts with
  | nil => exact List.not_mem_nil
  | cons part later inductionHypothesis =>
    obtain ⟨first, others⟩ := List.forall_mem_cons.mp unbroken
    cases later with
    | nil => simpa using first
    | cons next later =>
      have bar : Bytes.newline ∉ ascii "|" := by decide
      have behind := inductionHypothesis others
      simp only [List.intercalate_cons_cons, List.mem_append, not_or]
      exact ⟨⟨first, bar⟩, behind⟩

theorem newline_notMem_expand {names : List BitName}
    (unbroken : ∀ name ∈ names, Bytes.newline ∉ name.symbol) (value : UInt64) :
    Bytes.newline ∉ BitSet.expand value names := by
  have describes := BitSet.describes_expand value names
  generalize BitSet.expand value names = text at describes
  cases describes with
  | exact split first same => exact unbroken _ (by simp [split])
  | zero => decide
  | @parts claimed remainder leftover nonzero unnamed claims rest =>
    apply newline_notMem_intercalate
    intro part isPart
    rcases List.mem_append.mp isPart with isSymbol | isLeftover
    · obtain ⟨name, isClaimed, rfl⟩ := List.mem_map.mp isSymbol
      exact unbroken name (claims.ordered.subset isClaimed)
    · cases rest with
      | nothing => cases isLeftover
      | shown remains hexadecimal =>
        rw [List.mem_singleton.mp isLeftover]
        exact newline_notMem_hexadecimal hexadecimal

end Text

theorem OperandKind.newline_notMem_describe (kind : OperandKind) (value : UInt32) :
    Bytes.newline ∉ kind.describe value := by
  have symbols : ∀ kind ∈ all, ∀ enumerant ∈ kind.enumerants,
      Bytes.newline ∉ ascii enumerant.symbol := by decide +kernel
  have unbroken := symbols kind kind.mem_all
  cases shape : kind.shape with
  | bits enumerants =>
    rw [describe_of_bits shape]
    apply newline_notMem_expand
    intro name isName
    obtain ⟨enumerant, isEnumerant, rfl⟩ := List.mem_map.mp isName
    exact unbroken enumerant isEnumerant
  | _ =>
    simp only [describe, shape]
    split
    · next enumerant known => exact unbroken enumerant (mem_of_enumerant? known).1
    · exact newline_notMem_hexadecimal (hexadecimal_hexMarked _)

theorem Opcode.newline_notMem_name (opcode : Opcode) : Bytes.newline ∉ ascii opcode.name := by
  have names : ∀ form ∈ InstructionForm.all, Bytes.newline ∉ ascii form.name := by decide +kernel
  unfold name
  split
  · next form known => exact names form (InstructionForm.mem_all_of_ofOpcode? known)
  · decide

/-- The newlines that an operand holds. -/
def Operand.newlines (operand : Operand) : Nat :=
  match operand.value with
  | .string text => text.count Bytes.newline
  | _ => 0

/-- The newlines in the string literals of an instruction. -/
def Instruction.newlines (inst : Instruction) : Nat :=
  (inst.operands.map Operand.newlines).sum

theorem Operand.count_newline_render (operand : Operand) :
    operand.render.count Bytes.newline = operand.newlines := by
  have quote : (ascii "\"").count Bytes.newline = 0 := by decide
  have percent : (ascii "%").count Bytes.newline = 0 := by decide
  have number (n : Nat) : (decimal n).count Bytes.newline = 0 :=
    List.count_eq_zero.mpr (newline_notMem_decimal n)
  rcases operand with ⟨kind, value⟩
  cases value with
  | id id => simp [render, newlines, percent, number]
  | number32 value | number64 value => simp [render, newlines, number]
  | string text => simp [render, newlines, quote]
  | enumerated value =>
    apply List.count_eq_zero.mpr
    cases kind with
    | listed kind => exact kind.newline_notMem_describe value
    | unlisted ordinal => exact newline_notMem_hexadecimal (hexadecimal_hexMarked _)

namespace Instruction

theorem newline_notMem_idText (id : Word) : Bytes.newline ∉ idText id := by
  have percent : Bytes.newline ∉ ascii "%" := by decide
  simp [idText, percent, newline_notMem_decimal]

theorem count_newline_render (inst : Instruction) :
    inst.render.count Bytes.newline = inst.newlines := by
  have blank : (ascii " ").count Bytes.newline = 0 := by decide
  have equals : (ascii " = ").count Bytes.newline = 0 := by decide
  have ids (id : Word) : (idText id).count Bytes.newline = 0 :=
    List.count_eq_zero.mpr (newline_notMem_idText id)
  have name : (ascii inst.name).count Bytes.newline = 0 :=
    List.count_eq_zero.mpr inst.opcode.newline_notMem_name
  have operands : (inst.operands.flatMap fun operand => ascii " " ++ operand.render).count
      Bytes.newline = inst.newlines := by
    simp [List.count_flatMap, newlines, Function.comp_def, blank, Operand.count_newline_render]
  rw [render, List.count_append, List.count_append, List.count_append, operands, name]
  cases inst.resultId <;> cases inst.resultType <;> simp [equals, blank, ids]

end Instruction

/-- A line of a listing. -/
inductive ListingLine
  | heading (text : Bytes)
  | instruction (indent : Nat) (inst : Instruction)

namespace ListingLine

def render : ListingLine → Bytes
  | heading text => Listing.heading text
  | instruction indent inst => Listing.instruction indent inst

def headings : ListingLine → List Bytes
  | heading text => [text]
  | instruction _ _ => []

def instructions : ListingLine → List Instruction
  | heading _ => []
  | instruction _ inst => [inst]

/-- Each line ends with a newline, and all other newlines come from string literals. -/
theorem count_newline_lines {lines : List ListingLine}
    (unbroken : ∀ text ∈ lines.flatMap headings, Bytes.newline ∉ text) :
    (lines.flatMap render).count Bytes.newline =
      (lines.flatMap headings).length + (lines.flatMap instructions).length +
        ((lines.flatMap instructions).map Instruction.newlines).sum := by
  induction lines with
  | nil => rfl
  | cons line later inductionHypothesis =>
    rw [List.flatMap_cons, List.forall_mem_append] at unbroken
    have behind := inductionHypothesis unbroken.2
    rw [List.flatMap_cons, List.count_append, behind]
    cases line with
    | heading text =>
      have semicolon : (ascii "; ").count Bytes.newline = 0 := by decide
      have here : text.count Bytes.newline = 0 :=
        List.count_eq_zero.mpr (unbroken.1 text (List.mem_singleton_self text))
      have ended : (render (heading text)).count Bytes.newline = 1 := by
        simp [render, Listing.heading, Listing.line, semicolon, here]
      simp only [ended, headings, instructions, List.flatMap_cons, List.length_append,
        List.length_singleton, List.nil_append]
      omega
    | instruction indent inst =>
      have indented : (List.replicate indent Bytes.space).count Bytes.newline = 0 := by
        simp [List.count_replicate, Bytes.space, Bytes.newline]
      have ended : (render (instruction indent inst)).count Bytes.newline = inst.newlines + 1 := by
        simp [render, Listing.instruction, Listing.line, indented, inst.count_newline_render]
      simp only [ended, headings, instructions, List.flatMap_cons, List.nil_append,
        List.singleton_append, List.map_cons, List.sum_cons, List.length_cons]
      omega

end ListingLine

namespace Listing

def groupLines (title : String) (insts : List Instruction) : List ListingLine :=
  if insts.isEmpty then [] else .heading (ascii title) :: insts.map (.instruction 2)

def blockLines (block : Block) : List ListingLine :=
  .instruction 2 block.label :: block.body.toList.map (.instruction 4)

def functionTitle (function : Function) : Bytes :=
  ascii "function" ++
    match function.id with
    | some id => ascii " " ++ Instruction.idText id
    | none => []

def functionLines (function : Function) : List ListingLine :=
  .heading (functionTitle function) :: .instruction 2 function.definition ::
    (function.parameters.toList.map (.instruction 2) ++
      function.blocks.toList.flatMap blockLines ++
      function.closing.toList.map (.instruction 2))

end Listing

/-- The lines of a listing, from the header to the last function. -/
def Module.lines (m : Module) : List ListingLine :=
  m.header.toList.map (fun header => .heading header.render) ++
    m.sections.flatMap (fun (title, insts) => Listing.groupLines title insts) ++
    m.functions.toList.flatMap Listing.functionLines

/-- The headings of a listing: one for the header, for each section that is not empty, and for each
function. -/
def Module.headings (m : Module) : List Bytes :=
  m.header.toList.map Header.render ++
    (m.sections.filter fun entry => !entry.2.isEmpty).map (fun entry => ascii entry.1) ++
    m.functions.toList.map Listing.functionTitle

namespace Listing

section Views

variable {α : Type} (view : ListingLine → List α)

/-- What is seen of a group is seen line by line. -/
theorem flatMap_groupLines (title : String) (insts : List Instruction) :
    (groupLines title insts).flatMap view =
      if insts.isEmpty then []
      else view (.heading (ascii title)) ++
        insts.flatMap fun inst => view (.instruction 2 inst) := by
  unfold groupLines
  split
  · rfl
  · rw [List.flatMap_cons, List.flatMap_map]

theorem flatMap_functionLines (function : Function) :
    (functionLines function).flatMap view =
      view (.heading (functionTitle function)) ++ view (.instruction 2 function.definition) ++
        (function.parameters.toList.flatMap fun inst => view (.instruction 2 inst)) ++
        (function.blocks.toList.flatMap fun block =>
          view (.instruction 2 block.label) ++
            block.body.toList.flatMap fun inst => view (.instruction 4 inst)) ++
        (function.closing.toList.flatMap fun inst => view (.instruction 2 inst)) := by
  simp only [functionLines, blockLines, List.flatMap_cons, List.flatMap_append, List.flatMap_map,
    List.flatMap_assoc, List.append_assoc]

end Views

variable (title : String) (insts : List Instruction) (function : Function)

theorem render_groupLines :
    (groupLines title insts).flatMap ListingLine.render = group title insts :=
  flatMap_groupLines _ title insts

theorem render_functionLines :
    (functionLines function).flatMap ListingLine.render = Listing.function function :=
  flatMap_functionLines _ function

theorem headings_groupLines :
    (groupLines title insts).flatMap ListingLine.headings =
      if insts.isEmpty then [] else [ascii title] := by
  rw [flatMap_groupLines]
  cases insts <;> simp [ListingLine.headings, List.flatMap_eq_nil_iff]

theorem headings_functionLines :
    (functionLines function).flatMap ListingLine.headings = [functionTitle function] := by
  rw [flatMap_functionLines]
  simp [ListingLine.headings, List.flatMap_eq_nil_iff]

theorem instructions_groupLines :
    (groupLines title insts).flatMap ListingLine.instructions = insts := by
  rw [flatMap_groupLines]
  cases insts <;> simp [ListingLine.instructions]

theorem instructions_functionLines :
    (functionLines function).flatMap ListingLine.instructions = function.instructions := by
  rw [flatMap_functionLines]
  simp [ListingLine.instructions, Function.instructions]
  rfl

end Listing

namespace Module

variable (m : Module)

theorem listing_eq_lines : m.listing = m.lines.flatMap ListingLine.render := by
  simp only [lines, List.flatMap_append, List.flatMap_map, List.flatMap_assoc,
    Listing.render_groupLines, Listing.render_functionLines]
  cases header : m.header <;> simp [listing, header, ListingLine.render]

theorem headings_lines : m.lines.flatMap ListingLine.headings = m.headings := by
  simp only [lines, List.flatMap_append, List.flatMap_map, List.flatMap_assoc,
    Listing.headings_groupLines, Listing.headings_functionLines, ListingLine.headings]
  rw [headings, ← List.map_eq_flatMap, ← List.map_eq_flatMap]
  congr 2
  induction m.sections with
  | nil => rfl
  | cons entry later inductionHypothesis =>
    rw [List.flatMap_cons, inductionHypothesis]
    cases none : entry.2.isEmpty <;> simp [none]

theorem instructions_lines : m.lines.flatMap ListingLine.instructions = m.inLayout := by
  simp only [lines, List.flatMap_append, List.flatMap_map, List.flatMap_assoc,
    Listing.instructions_groupLines, Listing.instructions_functionLines, ListingLine.instructions]
  simp [inLayout]

end Module

theorem Header.newline_notMem_render (header : Header) : Bytes.newline ∉ header.render := by
  have digits (columns n : Nat) : Bytes.newline ∉ hex columns n := notMem_hex rfl
  have word (word : Word) : Bytes.newline ∉ wordText word := by
    have mark : Bytes.newline ∉ ascii "0x" := by decide
    simp [wordText, mark, digits]
  have point : Bytes.newline ∉ ascii "." := by decide
  have words : ∀ text ∈ ["magic ", ", version ", ", generator ", " (tool ", " v", "), bound ",
      ", reserved "], Bytes.newline ∉ ascii text := by decide
  simp only [List.forall_mem_cons] at words
  by_cases unreserved : header.reserved = 0 <;>
    simp [render, versionText, unreserved, words, word, point, newline_notMem_decimal]

theorem Listing.newline_notMem_functionTitle (function : Function) :
    Bytes.newline ∉ functionTitle function := by
  have title : Bytes.newline ∉ ascii "function" := by decide
  have blank : Bytes.newline ∉ ascii " " := by decide
  unfold functionTitle
  cases function.id <;> simp [title, blank, Instruction.newline_notMem_idText]

namespace Module

theorem newline_notMem_headings {m : Module} {text : Bytes} (isHeading : text ∈ m.headings) :
    Bytes.newline ∉ text := by
  simp only [headings, List.mem_append, List.mem_map, List.mem_filter] at isHeading
  rcases isHeading with (⟨header, -, rfl⟩ | ⟨entry, ⟨isEntry, -⟩, rfl⟩) | ⟨function, -, rfl⟩
  · exact header.newline_notMem_render
  · -- The titles are the same for all modules.
    have titles : ∀ title ∈ (sections {}).map Prod.fst, Bytes.newline ∉ ascii title := by decide
    have isTitle : entry.1 ∈ m.sections.map Prod.fst := List.mem_map_of_mem isEntry
    exact titles entry.1 isTitle
  · exact Listing.newline_notMem_functionTitle function

theorem count_newline_listing (m : Module) :
    m.listing.count Bytes.newline =
      m.headings.length + m.inLayout.length + (m.inLayout.map Instruction.newlines).sum := by
  have unbroken : ∀ text ∈ m.lines.flatMap ListingLine.headings, Bytes.newline ∉ text := by
    rw [headings_lines]
    intro text isHeading
    exact newline_notMem_headings isHeading
  rw [listing_eq_lines, ListingLine.count_newline_lines unbroken, headings_lines,
    instructions_lines]

theorem length_headings {m : Module} (headed : m.header.isSome = true) :
    m.headings.length =
      1 + m.sections.countP (fun entry => !entry.2.isEmpty) + m.functions.size := by
  obtain ⟨header, isHeader⟩ := Option.isSome_iff_exists.mp headed
  simp only [headings, isHeader, List.countP_eq_length_filter, List.length_append, List.length_map,
    Option.toList_some, List.length_singleton, Array.length_toList]

end Module

theorem Instruction.newlines_eq_zero_iff {inst : Instruction} :
    inst.newlines = 0 ↔
      ∀ operand ∈ inst.operands, ∀ text, operand.value = .string text → Bytes.newline ∉ text := by
  have held (operand : Operand) : operand.newlines = 0 ↔
      ∀ text, operand.value = .string text → Bytes.newline ∉ text := by
    rcases operand with ⟨kind, value⟩
    cases value <;> simp [Operand.newlines, List.count_eq_zero]
  simp [newlines, List.sum_eq_zero_iff_forall_eq_nat, held]

/-- The listing of a module that was loaded to its end has a line for each instruction and for each
heading, and no newline but those at the ends of the lines and those that string literals hold. So
the lines can be counted by newlines if and only if no string literal holds one. -/
theorem listing_lines {m loaded : Module} {verbosity : Int} {bytes trace : Bytes}
    {outcome : Outcome} (loads : m.load 0 verbosity bytes = ⟨outcome, loaded, trace⟩)
    (complete : outcome.state = .complete) :
    (loaded.listing = loaded.lines.flatMap ListingLine.render ∧
      (loaded.lines.flatMap ListingLine.instructions).Perm loaded.instructions.toList ∧
      (loaded.lines.flatMap ListingLine.headings).length =
        1 + loaded.sections.countP (fun entry => !entry.2.isEmpty) + loaded.functions.size) ∧
    loaded.listing.count Bytes.newline =
      loaded.instructions.size +
        (1 + loaded.sections.countP (fun entry => !entry.2.isEmpty) + loaded.functions.size) +
        (loaded.instructions.toList.map Instruction.newlines).sum ∧
    (loaded.listing.count Bytes.newline =
        loaded.instructions.size +
          (1 + loaded.sections.countP (fun entry => !entry.2.isEmpty) + loaded.functions.size) ↔
      ∀ inst ∈ loaded.instructions, ∀ operand ∈ inst.operands, ∀ text,
        operand.value = .string text → Bytes.newline ∉ text) := by
  obtain ⟨entries, completed⟩ := completed_of_load loads complete
  have layout : loaded.inLayout.Perm loaded.instructions.toList := by
    rw [completed.instructions]
    exact completed.layout
  have size : loaded.inLayout.length = loaded.instructions.size := by
    rw [layout.length_eq, Array.length_toList]
  have counted := loaded.count_newline_listing
  rw [Module.length_headings completed.headed, size, (layout.map Instruction.newlines).sum_eq]
    at counted
  refine ⟨⟨loaded.listing_eq_lines, ?_, ?_⟩, ?_, ?_⟩
  · rw [loaded.instructions_lines]
    exact layout
  · rw [loaded.headings_lines, Module.length_headings completed.headed]
  · omega
  · have unbroken : (loaded.instructions.toList.map Instruction.newlines).sum = 0 ↔
        ∀ inst ∈ loaded.instructions, inst.newlines = 0 := by
      simp [List.sum_eq_zero_iff_forall_eq_nat]
    simp only [← Instruction.newlines_eq_zero_iff]
    rw [← unbroken]
    omega

/-- A module of one source extension, whose name is a newline. -/
def brokenExtension : Bytes :=
  Word.serialize [Header.magicNumber, 0x10400, 0, 1, 0, 0x20004, 10]

/-- Two headings and an instruction are written with four newlines. -/
theorem listing_brokenExtension :
    ∃ outcome loaded trace, ({} : Module).load 0 0 brokenExtension = ⟨outcome, loaded, trace⟩ ∧
      outcome.state = .complete ∧ loaded.instructions.size = 1 ∧
      (loaded.lines.flatMap ListingLine.headings).length = 2 ∧
      loaded.listing.count Bytes.newline = 4 := by
  have complete : (({} : Module).load 0 0 brokenExtension).outcome.state = .complete := by
    decide +kernel
  have size : (({} : Module).load 0 0 brokenExtension).module.instructions.size = 1 := by
    decide +kernel
  have sections : (({} : Module).load 0 0 brokenExtension).module.sections.countP
      (fun entry => !entry.2.isEmpty) = 1 := by decide +kernel
  have functions : (({} : Module).load 0 0 brokenExtension).module.functions.size = 0 := by
    decide +kernel
  have newlines : ((({} : Module).load 0 0 brokenExtension).module.instructions.toList.map
      Instruction.newlines).sum = 1 := by decide +kernel
  rcases loads : ({} : Module).load 0 0 brokenExtension with ⟨outcome, loaded, trace⟩
  rw [loads] at complete size sections functions newlines
  obtain ⟨⟨-, -, headings⟩, count, -⟩ := listing_lines loads complete
  dsimp only at size sections functions newlines
  rw [sections, functions] at headings count
  rw [size, newlines] at count
  exact ⟨outcome, loaded, trace, rfl, complete, size, headings, count⟩

/-- Newlines do not count the lines of every listing. -/
theorem not_forall_count_newline :
    ¬∀ bytes : Bytes, (({} : Module).load 0 0 bytes).outcome.state = .complete →
      (({} : Module).load 0 0 bytes).module.listing.count Bytes.newline =
        (({} : Module).load 0 0 bytes).module.instructions.size +
          (1 + (({} : Module).load 0 0 bytes).module.sections.countP
              (fun entry => !entry.2.isEmpty) +
            (({} : Module).load 0 0 bytes).module.functions.size) := by
  intro counted
  have broken := counted brokenExtension (by decide +kernel)
  revert broken
  decide +kernel

end SpirvInspector
