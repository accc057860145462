/-!
# Node kinds

The kinds of nodes that a graph is made of, with the typed inputs and the output of each.

## Main definitions

* `ValueType`, `Slot` : what flows along a link, and where it arrives.
* `NodeKind` : the kinds, with `name`, `title`, `inputs` and `output`.
-/

namespace Darkroom

/-- The types of values that flow along links. -/
inductive ValueType where
  | int
  | float
  | string
  | image
  | none
  deriving DecidableEq, Repr

/-- The readable name of a type. -/
def ValueType.name : ValueType → String
  | int => "Int"
  | float => "Float"
  | string => "String"
  | image => "Image"
  | none => "None"

/-- A typed input of a node. -/
structure Slot where
  name : String
  label : String
  type : ValueType
  deriving DecidableEq, Repr

/-- The kinds of nodes. -/
inductive NodeKind where
  | int
  | float
  | string
  | image
  | sepia
  | grey
  | invert
  | bright
  | gaussian
  | scalePixel
  | scale
  | movePixel
  | move
  | rotate
  | addTextPixel
  | addText
  | endNode
  deriving DecidableEq, Repr

/-- The slot that an image arrives on. -/
def imageSlot : Slot := ⟨"firstLink", "Image", .image⟩

namespace NodeKind

/-- All kinds. -/
def all : List NodeKind :=
  [int, float, string, image, sepia, grey, invert, bright, gaussian, scalePixel, scale, movePixel,
    move, rotate, addTextPixel, addText, endNode]

/-- The name of a kind in files. -/
def name : NodeKind → String
  | int => "INT"
  | float => "FLOAT"
  | string => "STRING"
  | image => "IMAGE"
  | sepia => "SEPIA"
  | grey => "GREY"
  | invert => "INVERT"
  | bright => "BRIGHT"
  | gaussian => "GAUSSIAN"
  | scalePixel => "SCALE_PIXEL"
  | scale => "SCALE"
  | movePixel => "MOVE_PIXEL"
  | move => "MOVE"
  | rotate => "ROTATE"
  | addTextPixel => "ADD_TEXT_PIXEL"
  | addText => "ADD_TEXT"
  | endNode => "END_NODE"

/-- The title of a kind in the editor. -/
def title : NodeKind → String
  | int => "Int"
  | float => "Float"
  | string => "String"
  | image => "Image"
  | sepia => "Sepia"
  | grey => "Grey"
  | invert => "Invert"
  | bright => "Bright"
  | gaussian => "Gaussian"
  | scalePixel => "Scale Pixel"
  | scale => "Scale"
  | movePixel | move => "Move"
  | rotate => "Rotate"
  | addTextPixel | addText => "Add Text"
  | endNode => "Save Image"

/-- The inputs of a kind in order. -/
def inputs : NodeKind → List Slot
  | int | float | string | image => []
  | sepia | grey | invert | endNode => [imageSlot]
  | bright | rotate => [imageSlot, ⟨"secondLink", "Float", .float⟩]
  | gaussian => [imageSlot, ⟨"secondLink", "Int", .int⟩]
  | scalePixel | movePixel =>
    [imageSlot, ⟨"secondLink", "int x", .int⟩, ⟨"thirdLink", "int y", .int⟩]
  | scale | move =>
    [imageSlot, ⟨"secondLink", "float x", .float⟩, ⟨"thirdLink", "float y", .float⟩]
  | addTextPixel =>
    [imageSlot, ⟨"secondLink", "int x", .int⟩, ⟨"thirdLink", "int y", .int⟩,
      ⟨"fourthLink", "String", .string⟩, ⟨"fifthLink", "Scale", .float⟩]
  | addText =>
    [imageSlot, ⟨"secondLink", "float x", .float⟩, ⟨"thirdLink", "float y", .float⟩,
      ⟨"fourthLink", "String", .string⟩, ⟨"fifthLink", "Scale", .float⟩]

/-- The input of a kind with a given name. -/
def input? (kind : NodeKind) (slot : String) : Option Slot := kind.inputs.find? (·.name = slot)

/-- The type of the values that a kind produces. -/
def output : NodeKind → ValueType
  | int => .int
  | float => .float
  | string => .string
  | endNode => .none
  | _ => .image

/-- Whether nodes of a kind carry a value or a path of their own. -/
def holdsData : NodeKind → Bool
  | int | float | string | image => true
  | _ => false

/-- What a new node carries. -/
def defaultData : NodeKind → Option String
  | int => some "0"
  | float => some "0.0"
  | string => some ""
  | _ => none

end NodeKind

end Darkroom
