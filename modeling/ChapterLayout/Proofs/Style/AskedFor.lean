import ChapterLayout.Style.Span

/-! # What style frames ask for

A style frame asks for a group that the text under it is painted with, and the frame of a link asks
for a place that the text leads to. Both are said of the frames alone, and a word is given neither
more nor less:

* **`Mark.AsksFor`**, **`Mark.LinksTo`** — the group and the place that a mark asks for;
* **`Frame.AskFor`**, **`Frame.LinkTo`** — the groups that frames ask for, and the one place that
  the lowest link among them leads to;
* **`Mark.group?_eq_some_iff`**, **`Mark.target?_eq_some_iff`** — the records of a word are made
  for what its marks ask for. -/

namespace ChapterLayout

/-! ## (1) Marks -/

namespace Mark

/-- The group that a mark asks for: a style its own one, a link that leads somewhere an underline,
and a mapped class the group it is mapped to. -/
inductive AsksFor : Mark → Group → Prop where
  | style {kind : StyleKind} (hlink : kind ≠ .link) (hclass : kind ≠ .cssClass) :
      AsksFor (.style kind) kind.value
  | underline {href : Text} (hne : href ≠ []) : AsksFor (.link (some href)) Group.underline
  | classGroup {group : Group} (hne : group ≠ []) : AsksFor (.classGroup group) group

/-- The place that a mark links to. An anchor without a target links nowhere. -/
inductive LinksTo : Mark → Text → Prop where
  | link {href : Text} (hne : href ≠ []) : LinksTo (.link (some href)) href

variable {mark : Mark} {group : Group} {href : Text}

/-- A word is painted with the groups that its marks ask for. -/
theorem group?_eq_some_iff : mark.group? = some group ↔ mark.AsksFor group := by
  constructor
  · intro h
    cases mark with
    | style kind =>
      have hlink : kind ≠ .link := by
        rintro rfl
        cases h
      have hclass : kind ≠ .cssClass := by
        rintro rfl
        cases h
      -- The other kinds have groups of their own.
      have hown : kind.group? = some kind.value := by cases kind <;> first | rfl | contradiction
      obtain rfl : kind.value = group := Option.some.inj (hown.symm.trans h)
      exact .style hlink hclass
    | link href =>
      cases href with
      | none => cases h
      | some href =>
        cases href with
        | nil => cases h
        | cons c href =>
          obtain rfl : Group.underline = group := Option.some.inj h
          exact .underline (List.cons_ne_nil c href)
    | classGroup own =>
      cases own with
      | nil => cases h
      | cons c own =>
        obtain rfl : c :: own = group := Option.some.inj h
        exact .classGroup (List.cons_ne_nil c own)
  · rintro (⟨hlink, hclass⟩ | hne | hne)
    · rename_i kind
      show kind.group? = some kind.value
      cases kind <;> first | rfl | contradiction
    · exact if_neg (by simpa using hne)
    · exact if_neg (by simpa using hne)

/-- A word leads to the places that its marks link to. -/
theorem target?_eq_some_iff : mark.target? = some href ↔ mark.LinksTo href := by
  constructor
  · intro h
    match mark, h with
    | .link (some (c :: rest)), h =>
      obtain rfl : c :: rest = href := Option.some.inj h
      exact .link (List.cons_ne_nil c rest)
  · rintro ⟨hne⟩
    exact if_neg (by simpa using hne)

instance (mark : Mark) (group : Group) : Decidable (mark.AsksFor group) :=
  decidable_of_iff _ group?_eq_some_iff

instance (mark : Mark) (href : Text) : Decidable (mark.LinksTo href) :=
  decidable_of_iff _ target?_eq_some_iff

/-- A mark without a target links nowhere. -/
theorem target?_eq_none_iff : mark.target? = none ↔ ∀ href, ¬mark.LinksTo href := by
  rw [Option.eq_none_iff_forall_ne_some]
  exact forall_congr' fun href => not_congr target?_eq_some_iff

end Mark

/-! ## (2) Frames -/

namespace Frame

variable {frames : List Frame} {group : Group} {href : Text}

/-- Whether one of the frames asks for a group. -/
def AskFor (frames : List Frame) (group : Group) : Prop :=
  ∃ frame ∈ frames, frame.mark.AsksFor group

instance (frames : List Frame) (group : Group) : Decidable (AskFor frames group) :=
  inferInstanceAs (Decidable (∃ frame ∈ frames, frame.mark.AsksFor group))

/-- Whether the lowest of the frames that link anywhere links to the given place. -/
def LinkTo (frames : List Frame) (href : Text) : Prop :=
  ∃ below frame above, frames = below ++ frame :: above ∧ frame.mark.LinksTo href ∧
    ∀ lower ∈ below, ∀ other, ¬lower.mark.LinksTo other

/-- Whether none of the frames links anywhere. -/
def LinkNowhere (frames : List Frame) : Prop :=
  ∀ frame ∈ frames, ∀ href, ¬frame.mark.LinksTo href

/-- The groups of the spans of a word are those that its frames ask for. -/
theorem mem_groups_iff :
    group ∈ frames.filterMap (·.mark.group?) ↔ AskFor frames group := by
  rw [List.mem_filterMap]
  exact exists_congr fun frame => and_congr_right fun _ => Mark.group?_eq_some_iff

/-- The first link of a word leads where its lowest link leads. -/
theorem head?_targets_eq_some_iff :
    (frames.filterMap (·.mark.target?)).head? = some href ↔ LinkTo frames href := by
  rw [List.head?_filterMap, List.findSome?_eq_some_iff]
  refine exists_congr fun below => exists_congr fun frame => exists_congr fun above =>
    and_congr_right fun _ => and_congr Mark.target?_eq_some_iff ?_
  exact forall₂_congr fun lower _ => Mark.target?_eq_none_iff

/-- A word has no link if its frames link nowhere. -/
theorem head?_targets_eq_none_iff :
    (frames.filterMap (·.mark.target?)).head? = none ↔ LinkNowhere frames := by
  rw [List.head?_filterMap, List.findSome?_eq_none_iff]
  exact forall₂_congr fun frame _ => Mark.target?_eq_none_iff

end Frame

end ChapterLayout
