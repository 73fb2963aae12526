import ChapterLayout.Proofs.Limits
import ChapterLayout.Proofs.Style.Clamp
import ChapterLayout.Surface.Drawing

/-! # What is painted on a surface

The highlights of an excerpt are drawn line by line, each moved into its line, while a look-up tests
one column against the ends of the range. `DrawRequest.InBounds` says that a request stays on the
lines that are shown, and `DrawRequest.Paints` that it paints a column:

* **`Drawing.exists_paintRange_iff`** — the highlights of a range paint exactly the columns that it
  contains, for whatever integers its ends are;
* **`excerptAt?_isSome_iff`** — the look-up finds an excerpt where the range of one contains the
  column;
* **`draw_paints`** — so nothing is drawn off the page, and what is painted for excerpts is what the
  look-up finds. -/

namespace ChapterLayout

namespace DrawRequest

/-- Whether a request stays on the lines that are shown: a highlight has columns of a line, and
virtual text stands before a column of a line or at its end. -/
def InBounds (shown : List Line) : DrawRequest → Prop
  | .lines all => all = shown
  | .highlight line startCol endCol _ => ∃ text, lineAt? shown line = some text ∧
      0 ≤ startCol ∧ startCol < endCol ∧ endCol ≤ text.length
  | .virtualText line col _ _ => ∃ text, lineAt? shown line = some text ∧
      0 ≤ col ∧ col ≤ text.length

/-- Whether a request paints a column of a line with a group. -/
def Paints (group : Group) (line col : Int) : DrawRequest → Prop
  | .highlight line' startCol endCol group' =>
    group' = group ∧ line' = line ∧ startCol ≤ col ∧ col < endCol
  | _ => False

end DrawRequest

/-- A range contains the columns from its start on the first line to its end on the last one. -/
theorem TextRange.contains_iff {range : TextRange} {line col : Int} :
    range.contains line col = true ↔ (range.startLine ≤ line ∧ line ≤ range.endLine) ∧
      (line = range.startLine → range.startCol ≤ col) ∧
      (line = range.endLine → col < range.endCol) := by
  simp only [contains, Bool.and_eq_true, Bool.not_eq_true', Bool.and_eq_false_iff,
    decide_eq_true_eq, decide_eq_false_iff_not, beq_eq_false_iff_ne, Int.not_lt, Int.not_le]
  omega

namespace Drawing

variable {lines : List Line} {line : Line} {index col startCol endCol : Int} {group : Group}
  {request : DrawRequest}

/-! ## (1) One highlight -/

/-- What is painted of a highlight is what its line has of it. -/
theorem paint?_eq_some_iff : paint? lines index startCol endCol group = some request ↔
    ∃ line, lineAt? lines index = some line ∧
      clampColumn startCol line.length < clampColumn endCol line.length ∧
      request = .highlight index (clampColumn startCol line.length)
        (clampColumn endCol line.length) group := by
  rw [paint?]
  cases lineAt? lines index with
  | none => simp
  | some line => simp [eq_comm]

/-- A request is made for columns of a line only. -/
theorem inBounds_of_paint? (h : paint? lines index startCol endCol group = some request) :
    request.InBounds lines := by
  obtain ⟨line, hline, hlt, rfl⟩ := paint?_eq_some_iff.1 h
  refine ⟨line, hline, ?_⟩
  unfold clampColumn at hlt ⊢
  omega

/-- A highlight paints the columns of its line from its start to its end. -/
theorem exists_paint?_iff (hline : lineAt? lines index = some line) (hcol : 0 ≤ col)
    (hlength : col < line.length) :
    (∃ request, paint? lines index startCol endCol group = some request ∧
      request.Paints group index col) ↔ startCol ≤ col ∧ col < endCol := by
  constructor
  · rintro ⟨request, hpaint, hcovers⟩
    obtain ⟨line', hline', -, rfl⟩ := paint?_eq_some_iff.1 hpaint
    obtain rfl : line = line' := Option.some.inj (hline.symm.trans hline')
    obtain ⟨-, -, hstart, hend⟩ := hcovers
    unfold clampColumn at hstart hend
    omega
  · rintro ⟨hstart, hend⟩
    have hcovers : clampColumn startCol line.length ≤ col ∧
        col < clampColumn endCol line.length := by
      unfold clampColumn
      omega
    exact ⟨_, paint?_eq_some_iff.2 ⟨line, hline, Int.lt_of_le_of_lt hcovers.1 hcovers.2, rfl⟩,
      rfl, rfl, hcovers⟩

/-! ## (2) The highlights of a range -/

variable {range : TextRange}

/-- A range is highlighted on each of its lines that exist. -/
theorem mem_paintRange : request ∈ paintRange lines range group ↔
    ∃ index line, lineAt? lines index = some line ∧
      range.startLine ≤ index ∧ index ≤ range.endLine ∧
      paint? lines index (if index = range.startLine then range.startCol else 0)
        (if index = range.endLine then range.endCol else line.length) group = some request := by
  simp only [paintRange, List.mem_filterMap, paintRange?, Option.ite_none_right_eq_some, and_assoc]
  constructor
  · rintro ⟨⟨line, n⟩, hmem, hrest⟩
    exact ⟨n, line, (lineAt?_natCast lines n).trans (List.mem_zipIdx_iff_getElem?.1 hmem), hrest⟩
  · rintro ⟨index, line, hline, hrest⟩
    obtain ⟨n, rfl, hn⟩ := exists_of_lineAt? hline
    exact ⟨(line, n), List.mem_zipIdx_iff_getElem?.2 hn, hrest⟩

/-- The requests of a range are within the lines. -/
theorem inBounds_of_mem_paintRange (h : request ∈ paintRange lines range group) :
    request.InBounds lines := by
  obtain ⟨index, line, -, -, -, hpaint⟩ := mem_paintRange.1 h
  exact inBounds_of_paint? hpaint

/-- **The highlights of a range** paint exactly the columns that it contains. -/
theorem exists_paintRange_iff (hline : lineAt? lines index = some line) (hcol : 0 ≤ col)
    (hlength : col < line.length) :
    (∃ request ∈ paintRange lines range group, request.Paints group index col) ↔
      range.contains index col = true := by
  have hends : ((if index = range.startLine then range.startCol else 0) ≤ col ∧
      col < if index = range.endLine then range.endCol else (line.length : Int)) ↔
      (index = range.startLine → range.startCol ≤ col) ∧
        (index = range.endLine → col < range.endCol) := by
    split <;> split <;> simp_all
  rw [TextRange.contains_iff, ← hends]
  constructor
  · rintro ⟨request, hmem, hpaints⟩
    obtain ⟨index', line', hline', hstart, hend, hpaint⟩ := mem_paintRange.1 hmem
    -- Every request of the range paints its own line.
    have hindex : index' = index := by
      obtain ⟨_, -, -, rfl⟩ := paint?_eq_some_iff.1 hpaint
      exact hpaints.2.1
    subst hindex
    obtain rfl : line' = line := Option.some.inj (hline'.symm.trans hline)
    exact ⟨⟨hstart, hend⟩,
      (exists_paint?_iff hline hcol hlength).1 ⟨request, hpaint, hpaints⟩⟩
  · rintro ⟨⟨hstart, hend⟩, hcols⟩
    obtain ⟨request, hpaint, hpaints⟩ := (exists_paint?_iff hline hcol hlength).2 hcols
    exact ⟨request, mem_paintRange.2 ⟨index, line, hline, hstart, hend, hpaint⟩, hpaints⟩

/-! ## (3) The requests of a page -/

variable {page : Page} {width : Int} {entry : ResolvedExcerpt}

/-- The requests that centre lines are within the lines. -/
theorem inBounds_of_mem_centering (h : request ∈ centering page width) :
    request.InBounds page.lines := by
  obtain ⟨⟨index, padding⟩, hmem, rfl⟩ := List.mem_map.1 h
  obtain ⟨index', -, hpadding⟩ := List.mem_filterMap.1 (List.mem_filter.1 hmem).1
  obtain ⟨line, hline, heq⟩ := Option.map_eq_some_iff.1 hpadding
  obtain ⟨rfl, -⟩ := Prod.mk.inj heq
  exact ⟨line, hline, Int.le_refl 0, by omega⟩

/-- The requests of the highlights are within the lines. -/
theorem inBounds_of_mem_highlighting (h : request ∈ highlighting page) :
    request.InBounds page.lines := by
  obtain ⟨span, -, hpaint⟩ := List.mem_filterMap.1 h
  exact inBounds_of_paint? hpaint

/-- A mark of a note stands on the last line of its range. -/
theorem markNote?_eq_some {note : Option Text} (h : markNote? lines range note = some request) :
    ∃ line, lineAt? lines range.endLine = some line ∧
      request = .virtualText range.endLine (clampColumn range.endCol line.length) noteMark
        Group.noteIndicator := by
  rw [markNote?] at h
  split at h
  · cases h
  · obtain ⟨line, hline, rfl⟩ := Option.map_eq_some_iff.1 h
    exact ⟨line, hline, rfl⟩

/-- The requests of an excerpt are within the lines. -/
theorem inBounds_of_mem_marking (h : request ∈ marking lines entry) : request.InBounds lines := by
  rw [marking] at h
  split at h
  · simp at h
  · rcases List.mem_append.1 h with hrange | hnote
    · exact inBounds_of_mem_paintRange hrange
    · obtain ⟨line, hline, rfl⟩ := markNote?_eq_some (Option.mem_toList.1 hnote)
      refine ⟨line, hline, ?_⟩
      unfold clampColumn
      omega

/-- **What is drawn for an excerpt** paints exactly the columns that its range contains. -/
theorem exists_marking_iff (hline : lineAt? lines index = some line) (hcol : 0 ≤ col)
    (hlength : col < line.length) :
    (∃ request ∈ marking lines entry,
      request.Paints (Group.excerpt entry.excerpt.color) index col) ↔
      ∃ range, entry.range = some range ∧ range.contains index col = true := by
  rw [marking]
  cases hrange : entry.range with
  | none => simp
  | some range =>
    simp only [Option.some.injEq, exists_eq_left', List.mem_append, or_and_right, exists_or]
    rw [exists_paintRange_iff hline hcol hlength, or_iff_left]
    -- The mark of a note is no highlight.
    rintro ⟨request, hnote, hpaints⟩
    obtain ⟨_, -, rfl⟩ := markNote?_eq_some (Option.mem_toList.1 hnote)
    exact hpaints

/-- No padding is longer than half of the width. -/
theorem padding_le {index padding : Int} (h : (index, padding) ∈ paddings page width) :
    0 ≤ padding ∧ 2 * padding ≤ max width 0 := by
  obtain ⟨_, -, hpadding⟩ := List.mem_filterMap.1 h
  obtain ⟨line, -, heq⟩ := Option.map_eq_some_iff.1 hpadding
  obtain ⟨-, rfl⟩ := Prod.mk.inj heq
  unfold Text.centerPadding
  dsimp only
  split <;> omega

end Drawing

/-! ## (4) Painting and looking up -/

/-- **The look-up** finds an excerpt where the range of one contains the column. -/
theorem excerptAt?_isSome_iff {resolved : List ResolvedExcerpt} {line col : Int} :
    (excerptAt? resolved line col).isSome = true ↔
      ∃ entry ∈ resolved, ∃ range, entry.range = some range ∧ range.contains line col = true := by
  simp only [excerptAt?, Option.isSome_map, List.find?_isSome, Option.any_eq_true]

/-- A page with excerpts is drawn as without them, and the requests for each excerpt follow. -/
theorem draw_eq_append (page : Page) (width : Int) (excerpts : List ResolvedExcerpt) :
    draw page width excerpts =
      draw page width ++ excerpts.flatMap (Drawing.marking page.lines) := by
  simp [draw]

/-- **Every request is within the lines** of the page. -/
theorem inBounds_of_mem_draw {page : Page} {width : Int} {excerpts : List ResolvedExcerpt}
    {request : DrawRequest} (h : request ∈ draw page width excerpts) :
    request.InBounds page.lines := by
  rw [draw, List.cons_append, List.cons_append, List.mem_cons, List.mem_append, List.mem_append]
    at h
  rcases h with rfl | (hcentering | hhighlighting) | hmarking
  · rfl
  · exact Drawing.inBounds_of_mem_centering hcentering
  · exact Drawing.inBounds_of_mem_highlighting hhighlighting
  · obtain ⟨entry, -, hmem⟩ := List.mem_flatMap.1 hmarking
    exact Drawing.inBounds_of_mem_marking hmem

/-- **What is painted for excerpts is what the look-up finds.** No request leaves the lines of the
page; the requests made for an excerpt paint a column of a line if and only if its range contains
that column; and so a column is painted for some excerpt if and only if the look-up finds one there.
A width that memory can hold twice over gives all these requests. -/
theorem draw_paints (page : Page) (width : Int) (excerpts : List ResolvedExcerpt) :
    (∀ request ∈ draw page width excerpts, request.InBounds page.lines) ∧
      draw page width excerpts =
        draw page width ++ excerpts.flatMap (Drawing.marking page.lines) ∧
      (∀ (index : Int) (line : Line) (col : Int),
        lineAt? page.lines index = some line → 0 ≤ col → col < line.length →
        (∀ entry, (∃ request ∈ Drawing.marking page.lines entry,
            request.Paints (Group.excerpt entry.excerpt.color) index col) ↔
          ∃ range, entry.range = some range ∧ range.contains index col = true) ∧
        ((∃ entry ∈ excerpts, ∃ request ∈ Drawing.marking page.lines entry,
            request.Paints (Group.excerpt entry.excerpt.color) index col) ↔
          (excerptAt? excerpts index col).isSome = true)) ∧
      (width < 2 * LimitError.memorySize →
        draw? page width excerpts = .ok (draw page width excerpts)) := by
  refine ⟨fun request h => inBounds_of_mem_draw h, draw_eq_append page width excerpts,
    fun index line col hline hcol hlength => ?_, fun hwidth => ?_⟩
  -- Each excerpt paints a column just if its range holds it, and so some excerpt does just if the
  -- lookup finds one.
  · have hentry : ∀ entry : ResolvedExcerpt,
        (∃ request ∈ Drawing.marking page.lines entry,
          request.Paints (Group.excerpt entry.excerpt.color) index col) ↔
        ∃ range, entry.range = some range ∧ range.contains index col = true :=
      fun _ => Drawing.exists_marking_iff hline hcol hlength
    refine ⟨hentry, ?_⟩
    rw [excerptAt?_isSome_iff]
    exact exists_congr fun entry => and_congr_right fun _ => hentry entry
  -- No padding is as long as memory can hold, so that the checked drawing does not fail.
  · have hcheck : LimitError.checkCopies ((Drawing.paddings page width).map (·.2)) = .ok () := by
      have hpaddings : ∀ count ∈ (Drawing.paddings page width).map (·.2),
          0 ≤ count ∧ count < LimitError.memorySize := by
        intro count hcount
        obtain ⟨⟨index, padding⟩, hmem, rfl⟩ := List.mem_map.1 hcount
        have hpadding := Drawing.padding_le hmem
        have hmemory := LimitError.memorySize_pos
        omega
      rw [LimitError.checkCopies_eq_ok_iff fun count hcount => (hpaddings count hcount).1]
      exact fun count hcount => (hpaddings count hcount).2
    rw [draw?, hcheck]
    rfl

/-- An excerpt with a note over three lines, one that ends before it starts, one that reaches beyond
the page on both sides, and one that was not found. -/
theorem draw_paints_across :
    let page : Page := { lines := ["ab cd".toList, [], "ef".toList], centered := [0, 7] }
    let excerpts : List ResolvedExcerpt :=
      [⟨{ text := "cd ef".toList, note := some "n".toList }, some ⟨0, 3, 2, 2⟩⟩,
        ⟨{ text := "x".toList }, some ⟨2, 1, 2, 0⟩⟩,
        ⟨{ text := "y".toList, color := "red".toList }, some ⟨-1, 9, 1, 5⟩⟩,
        ⟨{ text := "z".toList }, none⟩]
    let yellow := Group.excerpt "yellow".toList
    draw? page 9 excerpts = .ok [.lines page.lines, .virtualText 0 0 "  ".toList Group.plain,
        .highlight 0 3 5 yellow, .highlight 2 0 2 yellow,
        .virtualText 2 2 Drawing.noteMark Group.noteIndicator,
        .highlight 0 0 5 (Group.excerpt "red".toList)] ∧
      (∀ request ∈ draw page 9 excerpts, request.InBounds page.lines) ∧
      ((∃ entry ∈ excerpts, ∃ request ∈ Drawing.marking page.lines entry,
          request.Paints (Group.excerpt entry.excerpt.color) 2 1) ↔
        (excerptAt? excerpts 2 1).isSome = true) := by
  intro page excerpts yellow
  have hpaints := draw_paints page 9 excerpts
  have hline : lineAt? page.lines 2 = some "ef".toList := rfl
  refine ⟨?_, hpaints.1, (hpaints.2.2.1 2 _ 1 hline (by decide) (by decide)).2⟩
  rw [hpaints.2.2.2 (by decide)]
  exact congrArg Except.ok (by decide +kernel)

end ChapterLayout
