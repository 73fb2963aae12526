/-! # Sets of code points

A class of characters given by ranges of code points, kept as a search tree so that a lookup takes
a number of steps logarithmic in the number of ranges. `CodeSet.ofRanges` builds the tree from the
ranges in ascending order, and `CodeSet.contains` looks a code point up. -/

namespace ChapterLayout

/-- A search tree of disjoint ranges `lo … hi` of code points, both ends included. -/
inductive CodeSet where
  | empty
  | node (below : CodeSet) (lo hi : Nat) (above : CodeSet)

namespace CodeSet

/-- Whether the code point lies in one of the ranges. -/
def contains : CodeSet → Nat → Bool
  | empty, _ => false
  | node below lo hi above, code =>
    if code < lo then below.contains code
    else if hi < code then above.contains code
    else true

/-- The tree of the first `2 ^ depth - 1` ranges of a list, and the ranges left over. -/
def build : (depth : Nat) → List (Nat × Nat) → CodeSet × List (Nat × Nat)
  | 0, ranges => (empty, ranges)
  | depth + 1, ranges =>
    let (below, rest) := build depth ranges
    match rest with
    | [] => (below, [])
    | (lo, hi) :: rest =>
      let (above, rest) := build depth rest
      (node below lo hi above, rest)

/-- The set of the code points in the given ranges, which are disjoint and ascend. -/
def ofRanges (ranges : List (Nat × Nat)) : CodeSet := (build (ranges.length.log2 + 1) ranges).1

end CodeSet

end ChapterLayout
