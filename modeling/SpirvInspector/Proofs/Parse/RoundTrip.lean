import SpirvInspector.Proofs.Parse.Delivery

/-!
# Reading undoes writing, and writing undoes reading

A module that is written and then read comes back with its header and its instructions. A module
that was read is written back as its own bytes, up to filler and a ragged tail.
-/

set_option autoImplicit false

namespace SpirvInspector

namespace Instruction

/-- The frame of an instruction that is written at this offset and index. -/
def frame (inst : Instruction) (offset index : Nat) : Frame :=
  ⟨offset, index, inst.firstWord, (Operand.listCells inst.content).map Cell.byte⟩

theorem map_byte_cells (inst : Instruction) :
    inst.cells.map Cell.byte =
      inst.firstWord.bytes ++ (Operand.listCells inst.content).map Cell.byte := by
  rw [cells, List.map_append, Word.map_byte_cells]

theorem wordCount_pos (inst : Instruction) : 0 < inst.wordCount := by
  unfold wordCount
  omega

variable {inst : Instruction}

theorem frame_holds (conforms : inst.Conforms) (short : inst.wordCount < 0x10000)
    (offset index : Nat) : (inst.frame offset index).Holds inst :=
  ⟨(opcodeOf_firstWord short).symm, (wordCountOf_firstWord short).symm, .written _, conforms⟩

theorem read_firstWord {form : InstructionForm}
    (known : InstructionForm.ofOpcode? inst.opcode = some form) (short : inst.wordCount < 0x10000)
    (offset index : Nat) (later : Bytes) :
    Frame.read offset index inst.firstWord
      ((Operand.listCells inst.content).map Cell.byte ++ later) =
        .ok (inst.frame offset index, form) := by
  have count := wordCountOf_firstWord short
  have length : ((Operand.listCells inst.content).map Cell.byte).length =
      4 * (Frame.wordCountOf inst.firstWord - 1) := by
    simp [count, wordCount]
  rw [Frame.read_of_known offset index (by rw [count]; exact inst.wordCount_pos)
    (by rwa [opcodeOf_firstWord short]) (by simp [← length]), List.take_left' length]
  rfl

end Instruction

namespace Framed

/-- Instructions that are written one behind the other, with their frames. -/
def written (offset index : Nat) : List Instruction → List Framed
  | [] => []
  | inst :: later =>
    (inst.frame offset index, inst) :: written (offset + 4 * inst.wordCount) (index + 1) later

theorem map_snd_written (offset index : Nat) (insts : List Instruction) :
    (written offset index insts).map Prod.snd = insts := by
  induction insts generalizing offset index with
  | nil => rfl
  | cons inst later inductionHypothesis => simp [written, inductionHypothesis]

end Framed

theorem Scan.written {insts : List Instruction} (conform : ∀ inst ∈ insts, inst.Conforms)
    (short : ∀ inst ∈ insts, inst.wordCount < 0x10000) (offset index : Nat) :
    Scan offset index ((insts.flatMap Instruction.cells).map Cell.byte)
      (Framed.written offset index insts) none := by
  induction insts generalizing offset index with
  | nil => exact .halt (.finished (by simp))
  | cons inst later inductionHypothesis =>
    have conforms := conform inst List.mem_cons_self
    have fits := short inst List.mem_cons_self
    obtain ⟨form, known, -⟩ := id conforms
    have framed := Instruction.read_firstWord known fits offset index
      ((later.flatMap Instruction.cells).map Cell.byte)
    obtain ⟨whole, isKnown, -⟩ := Frame.whole_of_read framed
    have holds := Instruction.frame_holds conforms fits offset index
    have parsed := Frame.instruction_of_holds whole isKnown holds
    have others := inductionHypothesis
      (fun other isOther => conform other (List.mem_cons_of_mem _ isOther))
      (fun other isOther => short other (List.mem_cons_of_mem _ isOther))
      (offset + 4 * inst.wordCount) (index + 1)
    rw [List.flatMap_cons, List.map_append, Instruction.map_byte_cells, List.append_assoc]
    have behind : (((Operand.listCells inst.content).map Cell.byte) ++
        (later.flatMap Instruction.cells).map Cell.byte).drop
          (4 * ((inst.frame offset index).wordCount - 1)) =
        (later.flatMap Instruction.cells).map Cell.byte := List.drop_left' whole.window
    apply Scan.instruction framed parsed
    rw [behind, ← holds.wordCount]
    exact others

/-- A written module is read back as it is: all of its instructions are delivered, each with the
place it was written to. -/
theorem parse_moduleBytes {header : Header} {insts : List Instruction}
    (magic : header.magic = Header.magicNumber) (conform : ∀ inst ∈ insts, inst.Conforms)
    (short : ∀ inst ∈ insts, inst.wordCount < 0x10000) :
    parse (.recorder none) #[] (moduleBytes header insts) =
        (.ofState .complete,
          (moduleEvents header (Framed.written Header.byteCount 1 insts) none).toArray) ∧
      (Framed.written Header.byteCount 1 insts).map Prod.snd = insts := by
  have split : moduleBytes header insts =
      Word.serialize header.words ++ (insts.flatMap Instruction.cells).map Cell.byte := by
    rw [moduleBytes, moduleCells, List.map_append, Header.map_byte_cells]
  have opened := Header.parse_words header ((insts.flatMap Instruction.cells).map Cell.byte)
  rw [← split, if_pos magic] at opened
  have offers := Offers.opened opened (Scan.written conform short _ _)
  rw [parse_of_offers _ _ offers, Sink.offer_recorder, Framed.map_snd_written]
  simp

/-- A store to an aligned address: the lower bit of its memory access has no parameter, the higher
one has. -/
def alignedStore : Instruction :=
  ⟨62, none, none, [⟨.listed .idRef, .id 1⟩, ⟨.listed .idRef, .id 2⟩,
    ⟨.listed .memoryAccess, .enumerated 3⟩, ⟨.listed .literalInteger, .number32 16⟩]⟩

theorem alignedStore_conforms : alignedStore.Conforms := by
  have pointer : Groups [.idRef] [⟨.listed .idRef, .id 1⟩] := .cons (.id rfl 1) .nil .nil
  have object : Groups [.idRef] [⟨.listed .idRef, .id 2⟩] := .cons (.id rfl 2) .nil .nil
  have bits : List.Forall₂
      (fun bit enumerant => OperandKind.memoryAccess.enumerant? bit = some enumerant)
      (OperandKind.setBits 3) [⟨"Volatile", 1, []⟩, ⟨"Aligned", 2, [.literalInteger]⟩] :=
    .cons rfl (.cons rfl .nil)
  have alignment : Groups [.literalInteger] [⟨.listed .literalInteger, .number32 16⟩] :=
    .cons (.number rfl 16) .nil .nil
  have access : Groups [.memoryAccess]
      [⟨.listed .memoryAccess, .enumerated 3⟩, ⟨.listed .literalInteger, .number32 16⟩] :=
    .cons (.bits rfl bits) alignment .nil
  refine ⟨_, rfl, ?_⟩
  exact .group (by decide) (by decide) pointer (.group (by decide) (by decide) object
    (.group (by decide) (by decide) access .done))

theorem parse_alignedStore :
    alignedStore.Conforms ∧ alignedStore.wordCount = 5 ∧
      parse (.recorder none) #[]
          (moduleBytes ⟨Header.magicNumber, 0x10400, 0, 3, 0⟩ [alignedStore]) =
        (.ofState .complete, #[.start, .header ⟨Header.magicNumber, 0x10400, 0, 3, 0⟩,
          .instruction (alignedStore.frame 20 1) alignedStore, .finish]) :=
  ⟨alignedStore_conforms, rfl, (parse_moduleBytes rfl (by simp [alignedStore_conforms])
    (by simp; decide)).1⟩

/-- Byte strings that differ at most where the cells are filler. -/
def AgreeOn (cells : List Cell) (one other : Bytes) : Prop :=
  one.length = other.length ∧ ∀ i : Nat, cells[i]? ≠ some .filler → one[i]? = other[i]?

theorem Spells.agree {cells : List Cell} {one other : Bytes} (spelled : Spells cells one)
    (spelledToo : Spells cells other) : AgreeOn cells one other :=
  ⟨spelled.length_eq.trans spelledToo.length_eq.symm, fun _ isData =>
    (spelled.getElem?_eq isData).trans (spelledToo.getElem?_eq isData).symm⟩

namespace Laid

variable {bytes : Bytes} {offset index : Nat} {entries : List Framed}

theorem conforms (laid : Laid bytes offset index entries) :
    ∀ entry ∈ entries, entry.2.Conforms := by
  induction laid with
  | nil => simp
  | cons holds there others inductionHypothesis =>
    simpa using ⟨holds.conforms, fun frame inst => inductionHypothesis (frame, inst)⟩

theorem within (laid : Laid bytes offset index entries) (inside : offset ≤ bytes.length) :
    offset + 4 * Framed.words entries ≤ bytes.length := by
  induction laid with
  | nil => simpa using inside
  | @cons frame inst later holds there others inductionHypothesis =>
    have whole := holds.whole
    have length := congrArg List.length there
    simp only [List.length_take, List.length_drop, List.length_append, Word.length_bytes,
      whole.window] at length
    have positive := whole.positive
    have behind := inductionHypothesis (by omega)
    simp only [Framed.words_cons]
    omega

theorem spells (laid : Laid bytes offset index entries) :
    Spells ((entries.map Prod.snd).flatMap Instruction.cells)
      ((bytes.drop offset).take (4 * Framed.words entries)) := by
  induction laid with
  | nil => simp [Spells]
  | @cons frame inst later holds there others inductionHypothesis =>
    -- The first word is not among the operands; its two halves determine it.
    have first : Spells inst.cells
        ((bytes.drop frame.offset).take (4 * frame.wordCount)) := by
      rw [there, Instruction.eq_firstWord holds.wordCount holds.opcode]
      exact ((Spells.data_iff _ _).mpr rfl).append holds.spelled
    rw [Framed.words_cons, Nat.mul_add, List.take_add, List.drop_drop]
    exact first.append inductionHypothesis

end Laid

/-- A byte string that is read as a whole module. -/
structure Accepted (bytes : Bytes) (header : Header) (entries : List Framed) : Prop where
  delivered : transcript bytes = moduleEvents header entries none
  laid : Laid bytes Header.byteCount 1 entries
  tiled : Header.byteCount + 4 * Framed.words entries = 4 * (bytes.length / 4)
  spelled : Spells (moduleCells header (entries.map Prod.snd)) (bytes.take (4 * (bytes.length / 4)))

theorem exists_accepted {bytes : Bytes} (complete : (verdict bytes).state = .complete) :
    ∃ header entries, Accepted bytes header entries := by
  obtain ⟨events, ending, offers⟩ := exists_offers bytes
  rw [offers.verdict_eq] at complete
  rcases offers.complete_or_malformed with
    ⟨-, header, rest, entries, parsed, scan, rfl⟩ | ⟨malformed, -⟩
  · obtain ⟨front, back⟩ := Header.take_drop_of_parse parsed
    obtain ⟨laid, halt⟩ := scan.laid back
    have tiled : Header.byteCount + 4 * Framed.words entries = 4 * (bytes.length / 4) := by
      have headed := congrArg List.length front
      rw [Header.length_serialize_words, List.length_take] at headed
      have within := laid.within (by omega)
      have ragged := halt.ragged
      rw [List.length_drop] at ragged
      simp only [Header.byteCount, Header.wordCount] at *
      omega
    refine ⟨header, entries, offers.transcript_eq, laid, tiled, ?_⟩
    rw [← tiled, List.take_add, front, ← Header.map_byte_cells]
    exact (Spells.written _).append laid.spells
  · rw [complete] at malformed
    cases malformed

theorem moduleEvents_inj {header otherHeader : Header} {entries otherEntries : List Framed}
    (same : moduleEvents header entries none = moduleEvents otherHeader otherEntries none) :
    header = otherHeader ∧ entries = otherEntries := by
  have injective : Function.Injective Framed.event := by
    rintro ⟨frame, inst⟩ ⟨otherFrame, otherInst⟩ equal
    simpa [Framed.event] using equal
  simp only [moduleEvents, List.cons.injEq, Event.header.injEq, List.append_cancel_right_eq,
    true_and] at same
  exact ⟨same.1, (List.map_injective_iff.mpr injective) same.2⟩

theorem Accepted.unique {bytes : Bytes} {header otherHeader : Header}
    {entries otherEntries : List Framed} (accepted : Accepted bytes header entries)
    (delivered : transcript bytes = moduleEvents otherHeader otherEntries none) :
    Accepted bytes otherHeader otherEntries := by
  rw [accepted.delivered] at delivered
  obtain ⟨rfl, rfl⟩ := moduleEvents_inj delivered
  exact accepted

/-- A module that is read to its end is written back as its own bytes, up to filler and a ragged
tail. So what was delivered leaves no other choice for the bytes. -/
theorem moduleBytes_of_complete {bytes : Bytes} (complete : (verdict bytes).state = .complete) :
    ∃ header entries, transcript bytes = moduleEvents header entries none ∧
      (∀ entry ∈ entries, ∃ form, InstructionForm.ofOpcode? entry.2.opcode = some form ∧
        Fills form.operands entry.2.resultType entry.2.resultId entry.2.operands ∧
        (entry.2.resultType.isSome ↔ ∃ logical ∈ form.operands, logical.kind = .idResultType) ∧
        (entry.2.resultId.isSome ↔ ∃ logical ∈ form.operands, logical.kind = .idResult)) ∧
      Laid bytes Header.byteCount 1 entries ∧
      Header.byteCount + 4 * Framed.words entries = 4 * (bytes.length / 4) ∧
      AgreeOn (moduleCells header (entries.map Prod.snd))
        (moduleBytes header (entries.map Prod.snd)) (bytes.take (4 * (bytes.length / 4))) ∧
      (∀ i : Nat, (moduleCells header (entries.map Prod.snd))[i]? = some .filler →
        (moduleBytes header (entries.map Prod.snd))[i]? = some 0) ∧
      ∀ other otherEntries, (verdict other).state = .complete →
        transcript other = moduleEvents header otherEntries none →
        otherEntries.map Prod.snd = entries.map Prod.snd →
        AgreeOn (moduleCells header (entries.map Prod.snd)) (bytes.take (4 * (bytes.length / 4)))
          (other.take (4 * (other.length / 4))) := by
  obtain ⟨header, entries, accepted⟩ := exists_accepted complete
  refine ⟨header, entries, accepted.delivered, ?_, accepted.laid, accepted.tiled,
    (Spells.written _).agree accepted.spelled, ?_, ?_⟩
  · intro entry isEntry
    obtain ⟨form, known, fills⟩ := accepted.laid.conforms entry isEntry
    exact ⟨form, known, fills, fills.isSome_iff (InstructionForm.mem_all_of_ofOpcode? known)⟩
  · intro i isFiller
    rw [moduleBytes, List.getElem?_map, isFiller]
    rfl
  · intro other otherEntries otherComplete delivered same
    obtain ⟨_, _, otherAccepted⟩ := exists_accepted otherComplete
    have spelled := (otherAccepted.unique delivered).spelled
    rw [same] at spelled
    exact accepted.spelled.agree spelled

/-- A module of one instruction with a string, which has other filler than zero, and a ragged tail
of two bytes. -/
def paddedExtension : Bytes :=
  Word.serialize [Header.magicNumber, 0x10400, 0, 1, 0, 0x20004] ++ [97, 0, 7, 9] ++ [1, 2]

theorem moduleBytes_paddedExtension :
    (verdict paddedExtension).state = .complete ∧
      ∃ header entries, transcript paddedExtension = moduleEvents header entries none ∧
        AgreeOn (moduleCells header (entries.map Prod.snd))
          (moduleBytes header (entries.map Prod.snd)) (paddedExtension.take 28) := by
  have complete : (verdict paddedExtension).state = .complete := by decide +kernel
  obtain ⟨header, entries, delivered, -, -, -, agree, -⟩ := moduleBytes_of_complete complete
  exact ⟨complete, header, entries, delivered, agree⟩

end SpirvInspector
