import ChapterLayout.Surface.Terminal

/-! # Escape sequences

The codes that common terminals understand: an escape sequence for every attribute of an appearance,
and one that resets them all. `Escapes.style` is the styler that writes them, and `Terminal.render`
renders a terminal with it. -/

namespace ChapterLayout

namespace Escapes

/-- The escape sequence with the given parameter. -/
def control (parameter : Nat) : Text := ['\x1b', '['] ++ Text.ofNat parameter ++ ['m']

/-- The number of a colour. -/
def colorNumber : Color → Nat
  | .black => 0
  | .red => 1
  | .green => 2
  | .yellow => 3
  | .blue => 4
  | .magenta => 5
  | .cyan => 6
  | .white => 7

/-- The parameters that switch on the attributes of an appearance. -/
def parameters (a : Appearance) : List Nat :=
  (a.foreground.map (30 + colorNumber ·)).toList ++
    (a.background.map (40 + colorNumber ·)).toList ++
    (if a.bold then [1] else []) ++ (if a.dim then [2] else []) ++
    (if a.underline then [4] else []) ++ (if a.italic then [3] else []) ++
    (if a.reverse then [7] else []) ++ (if a.strikethrough then [9] else [])

/-- The codes of an appearance. -/
def codes (a : Appearance) : Text := (parameters a).flatMap control

/-- The code that resets all attributes. -/
def reset : Text := control 0

/-- The text between the codes of an appearance and a reset. -/
def style : Styler := fun a s => codes a ++ s ++ reset

end Escapes

/-- The lines of the terminal as text with escape sequences. -/
def Terminal.render (terminal : Terminal) : List Text := terminal.renderWith Escapes.style

end ChapterLayout
