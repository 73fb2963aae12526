/-! # Slices counted from either end

`Slice.cut l start stop` is the part of a list between two signed positions. A negative position
counts from the end of the list, a position beyond an end stands for that end, and a stop before the
start gives the empty list. -/

namespace ChapterLayout.Slice

/-- The position in a list of `length` items that the signed position `i` stands for. -/
def position (length : Nat) (i : Int) : Nat :=
  if i < 0 then (i + length).toNat else min i.toNat length

/-- The items from position `start` up to, and not including, position `stop`. -/
def cut {α : Type} (l : List α) (start stop : Int) : List α :=
  (l.take (position l.length stop)).drop (position l.length start)

end ChapterLayout.Slice
