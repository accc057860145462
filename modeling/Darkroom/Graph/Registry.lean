import Darkroom.Graph.Kind

/-!
# Registries

A registry lists the kinds that may be reached by name.  The end node is always among them.

## Main definitions

* `Registry`, `Registry.full`, `Registry.ofKinds` : the kinds that a program allows.
* `Registry.resolve?` : the kind of a name, in any case.
* `Registry.palette` : the kinds that a user can place.
-/

namespace Darkroom

/-- The kinds that may be reached by name. -/
structure Registry where
  kinds : List NodeKind
  deriving DecidableEq, Repr

namespace Registry

/-- The registry of all kinds. -/
def full : Registry := ⟨NodeKind.all⟩

/-- The registry of some kinds and the end node. -/
def ofKinds (kinds : List NodeKind) : Registry :=
  ⟨if kinds.contains .endNode then kinds else kinds ++ [.endNode]⟩

/-- The registered kind of a name, letters compared without regard to case. -/
def resolve? (registry : Registry) (name : String) : Option NodeKind :=
  registry.kinds.find? fun kind => kind.name.toLower = name.toLower

/-- Whether a kind is registered. -/
def isRegistered (registry : Registry) (kind : NodeKind) : Bool := registry.kinds.contains kind

/-- The order of the kinds in the editor. -/
def paletteOrder : List NodeKind :=
  [.int, .float, .string, .image, .sepia, .grey, .invert, .bright, .gaussian, .rotate, .scalePixel,
    .scale, .movePixel, .move, .addTextPixel, .addText]

/-- The registered kinds that a user can place, in the order of the editor. -/
def palette (registry : Registry) : List NodeKind :=
  paletteOrder.filter fun kind => registry.kinds.contains kind

end Registry

end Darkroom
