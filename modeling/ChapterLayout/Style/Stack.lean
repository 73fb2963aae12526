import ChapterLayout.Style.Frame

/-! # The stack of open elements

Two lists are kept: the open elements, also those without style, so that a closing tag finds its
partner, and the style frames in force. Only the serial number of an element tells which frames are
its own. `Stack.push` opens an element and adds its frames, and `Stack.pop?` closes the most recent
element of a name, wherever it stands in the stack, and removes all frames with its number. -/

namespace ChapterLayout

/-- An element that is open. -/
structure OpenElement where
  name : Text
  serial : Nat
  deriving DecidableEq, Repr

/-- The open elements, the frames in force, and the number of elements opened so far. -/
structure Stack where
  /-- The open elements, the most recent one first. -/
  elements : List OpenElement := []
  /-- The frames in force, the oldest one first. -/
  frames : List Frame := []
  opened : Nat := 0
  deriving DecidableEq, Repr

namespace Stack

/-- The frames in force, those of the oldest element first. -/
def active (stack : Stack) : List Frame := stack.frames

/-- The serial number of the element that is opened next. -/
def nextSerial (stack : Stack) : Nat := stack.opened + 1

/-- The frames that an opening tag contributes if it is opened next. -/
def nextFrames (stack : Stack) (name : Text) (attributes : List Attribute)
    (classStyles : ClassStyles) : List Frame :=
  Frame.forTag name attributes stack.nextSerial classStyles

/-- Opens an element. -/
def push (stack : Stack) (name : Text) (attributes : List Attribute) (classStyles : ClassStyles) :
    Stack :=
  { elements := ⟨name, stack.nextSerial⟩ :: stack.elements
    frames := stack.frames ++ stack.nextFrames name attributes classStyles
    opened := stack.nextSerial }

/-- The stack with the given elements left, and without the frames of the given number. -/
def leave (stack : Stack) (elements : List OpenElement) (serial : Nat) : Stack :=
  { stack with elements, frames := stack.frames.filter (·.serial ≠ serial) }

/-- Closes the most recent element called `name`: its serial number and the stack without it, or
nothing if no such element is open. -/
def pop? (stack : Stack) (name : Text) : Option (Nat × Stack) :=
  (stack.elements.find? (·.name == name)).map fun element =>
    (element.serial, stack.leave (stack.elements.eraseP (·.name == name)) element.serial)

end Stack

end ChapterLayout
