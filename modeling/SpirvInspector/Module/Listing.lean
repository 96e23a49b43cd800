import SpirvInspector.Module.Layout

/-!
# Module listing

One line for each instruction, grouped under headings that start with a semicolon. A section without
instructions has no heading. The body of a block is indented under its label.
-/

set_option autoImplicit false

namespace SpirvInspector

namespace Listing

def line (text : Bytes) : Bytes :=
  text ++ [Bytes.newline]

def heading (text : Bytes) : Bytes :=
  line (ascii "; " ++ text)

def instruction (indent : Nat) (inst : Instruction) : Bytes :=
  line (List.replicate indent Bytes.space ++ inst.render)

def group (title : String) (insts : List Instruction) : Bytes :=
  if insts.isEmpty then [] else heading (ascii title) ++ insts.flatMap (instruction 2)

def block (block : Block) : Bytes :=
  instruction 2 block.label ++ block.body.toList.flatMap (instruction 4)

def function (function : Function) : Bytes :=
  let title := ascii "function" ++
    match function.id with
    | some id => ascii " " ++ Instruction.idText id
    | none => []
  heading title ++ instruction 2 function.definition ++
    function.parameters.toList.flatMap (instruction 2) ++
    function.blocks.toList.flatMap block ++
    function.closing.toList.flatMap (instruction 2)

end Listing

namespace Module

def listing (m : Module) : Bytes :=
  (match m.header with
    | some header => Listing.heading header.render
    | none => []) ++
  m.sections.flatMap (fun (title, insts) => Listing.group title insts) ++
  m.functions.toList.flatMap Listing.function

end Module

end SpirvInspector
