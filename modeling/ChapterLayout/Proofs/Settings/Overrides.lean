import Mathlib.Data.List.Nodup
import ChapterLayout.Proofs.Lists
import ChapterLayout.Settings.Draft

/-! # Overrides one after the other

Overrides are a mapping from names to values, and what comes out depends on what is given for every
name and not on the order of the entries. A setting takes the value that is given for it. Units go
into the bundle of the draft, and only where no unit is given, a bundle may be given as a whole:

* **`Draft.Overridden`** — what a draft comes to when values are given for some names;
* **`Draft.exists_override`** — overriding a draft comes to just that;
* **`Draft.Overridden.trans`** — two overrides one after the other come to one;
* **`Draft.override_override`** — so they are the same as one with the entries of both. A bundle of
  the first mapping and units that only the second one gives are the exception: the units then go
  into the bundle of the first mapping, or into that of the draft. -/

namespace ChapterLayout

/-! ## (1) Names -/

namespace Setting

/-- A setting is found by its name. -/
theorem ofName?_name (setting : Setting) : ofName? setting.name = some setting := by
  cases setting <;> rfl

/-- What is found by a name has that name. -/
theorem name_of_ofName? {name : Text} {setting : Setting} (h : ofName? name = some setting) :
    name = setting.name := by
  rw [ofName?] at h
  have hfound := List.find?_some h
  exact (eq_of_beq hfound).symm

/-- No two settings have the same name. -/
theorem name_injective : Function.Injective name := by
  intro s t h
  rw [← Option.some.injEq, ← ofName?_name, h, ofName?_name]

/-- No setting is called like a unit. -/
theorem unit_ofName?_name (setting : Setting) : SpacingUnit.ofName? setting.name = none := by
  cases setting <;> rfl

end Setting

namespace SpacingUnit

/-- A unit is found by its name. -/
theorem ofName?_name (unit : SpacingUnit) : ofName? unit.name = some unit := by
  cases unit <;> rfl

/-- What is found by a name has that name. -/
theorem name_of_ofName? {name : Text} {unit : SpacingUnit} (h : ofName? name = some unit) :
    name = unit.name := by
  rw [ofName?] at h
  have hfound := List.find?_some h
  exact (eq_of_beq hfound).symm

end SpacingUnit

/-! ## (2) Bundles -/

namespace Value

/-- Whether a value is a bundle of units. -/
def IsBundle (v : Value) : Prop := ∃ i l p, v = units i l p

/-- The bundle with the values that are given for some of its units. -/
def withUnits (f : SpacingUnit → Option Value) : Value → Value
  | units i l p =>
    units ((f .indentSize).getD i) ((f .listIndent).getD l) ((f .paragraphSpacing).getD p)
  | v => v

variable {v : Value} {f g : SpacingUnit → Option Value}

/-- A bundle is still one with other values for its units. -/
theorem IsBundle.withUnits (h : v.IsBundle) (f : SpacingUnit → Option Value) :
    (v.withUnits f).IsBundle := by
  obtain ⟨i, l, p, rfl⟩ := h
  exact ⟨_, _, _, rfl⟩

/-- Without values for units the bundle stays. -/
theorem withUnits_of_none (h : ∀ unit, f unit = none) (v : Value) : v.withUnits f = v := by
  cases v <;> simp [withUnits, h]

/-- Of two values for a unit the second one stays. -/
theorem withUnits_withUnits (f g : SpacingUnit → Option Value) (v : Value) :
    (v.withUnits f).withUnits g = v.withUnits fun unit => (g unit).or (f unit) := by
  have hunit : ∀ (unit : SpacingUnit) (x : Value),
      (g unit).getD ((f unit).getD x) = ((g unit).or (f unit)).getD x := by
    intro unit x
    cases g unit <;> rfl
  cases v <;> simp only [withUnits, hunit]

/-- Units that are set one after the other are those of their list. -/
theorem foldlM_setUnit? (h : v.IsBundle) {entries : List (SpacingUnit × Value)}
    (hnodup : (entries.map (·.1)).Nodup) :
    entries.foldlM (fun bundle (unit, x) => bundle.setUnit? unit x) v =
      some (v.withUnits fun unit => entries.lookup unit) := by
  induction entries generalizing v with
  | nil => exact congrArg some (withUnits_of_none (fun _ => rfl) v).symm
  | cons entry entries ih =>
    obtain ⟨unit, x⟩ := entry
    obtain ⟨hnew, hrest⟩ := List.nodup_cons.1 hnodup
    -- The value that is set first is not set again.
    have hnone : entries.lookup unit = none := Lists.lookup_of_not_mem hnew
    obtain ⟨i, l, p, rfl⟩ := h
    rw [List.foldlM_cons]
    cases unit
    all_goals
      refine (ih ⟨_, _, _, rfl⟩ hrest).trans ?_
      simp only [withUnits, hnone]
      rfl

end Value

namespace Draft

variable {draft first result : Draft} {a b c entries m : List (Text × Value)} {name : Text}
  {f g : Text → Option Value}

/-! ## (3) Settings -/

/-- A setting has the value it was set to. -/
theorem get_set_self (draft : Draft) (setting : Setting) (v : Value) :
    (draft.set setting v).get setting = v := by
  cases setting <;> rfl

/-- The other settings keep their values. -/
theorem get_set_of_ne {setting other : Setting} (h : other ≠ setting) (draft : Draft) (v : Value) :
    (draft.set setting v).get other = draft.get other := by
  cases setting <;> cases other <;> first | rfl | exact absurd rfl h

/-- A draft is what it holds. -/
theorem ext_get (h : ∀ setting, first.get setting = result.get setting) : first = result := by
  cases first
  cases result
  congr
  · exact h .maxWidth
  · exact h .justify
  · exact h .typography
  · exact h .classStyles
  · exact h .threshold
  · exact h .asciiEntities
  · exact h .maxFileSize

/-- Settings that are set one after the other are those of their list. -/
theorem exists_setAll? (hnodup : (entries.map (·.1)).Nodup)
    (hsetting : ∀ entry ∈ entries, (Setting.ofName? entry.1).isSome = true) (draft : Draft) :
    ∃ result, draft.setAll? entries = some result ∧
      ∀ setting, result.get setting = (entries.lookup setting.name).getD (draft.get setting) := by
  induction entries generalizing draft with
  | nil => exact ⟨draft, rfl, fun _ => rfl⟩
  | cons entry entries ih =>
    obtain ⟨name, v⟩ := entry
    obtain ⟨hnew, hrest⟩ := List.nodup_cons.1 hnodup
    obtain ⟨hname, hnames⟩ := List.forall_mem_cons.1 hsetting
    obtain ⟨setting, hname⟩ := Option.isSome_iff_exists.1 hname
    obtain ⟨result, hresult, hget⟩ := ih hrest hnames (draft.set setting v)
    refine ⟨result, ?_, fun other => ?_⟩
    · simp only [setAll?, List.foldlM_cons, hname, Option.map_some]
      exact hresult
    · obtain rfl := Setting.name_of_ofName? hname
      rw [hget, List.lookup_cons]
      by_cases hother : other = setting
      · -- The value that is set first is not set again.
        subst hother
        rw [Lists.lookup_of_not_mem hnew, beq_self_eq_true, get_set_self]
        rfl
      · have hne : (other.name == setting.name) = false :=
          beq_eq_false_iff_ne.2 fun heq => hother (Setting.name_injective heq)
        rw [hne, get_set_of_ne hother]

/-! ## (4) Mappings -/

/-- Whether a name is that of a setting or of a unit. -/
def isKnown (name : Text) : Bool :=
  (Setting.ofName? name).isSome || (SpacingUnit.ofName? name).isSome

/-- Whether entries are a mapping whose values can all be taken: every name is known, and no name
has two values. -/
structure IsMapping (entries : List (Text × Value)) : Prop where
  nodup : (entries.map (·.1)).Nodup
  known : ∀ name ∈ entries.map (·.1), isKnown name = true

instance (entries : List (Text × Value)) : Decidable (IsMapping entries) :=
  decidable_of_iff ((entries.map (·.1)).Nodup ∧ ∀ name ∈ entries.map (·.1), isKnown name = true)
    ⟨fun h => ⟨h.1, h.2⟩, fun h => ⟨h.1, h.2⟩⟩

/-- The value that a mapping gives for a name, if it gives any. -/
def given (entries : List (Text × Value)) (name : Text) : Option Value :=
  (effective entries).lookup name

/-- Whether a mapping gives a value for a unit. -/
def GivesUnits (entries : List (Text × Value)) : Prop :=
  ∃ unit : SpacingUnit, given entries unit.name ≠ none

/-- A mapping gives no units just if it has no value for any name of a unit. -/
theorem not_givesUnits_iff :
    ¬GivesUnits entries ↔ ∀ unit : SpacingUnit, given entries unit.name = none := by
  simp only [GivesUnits, not_exists, not_not]

/-- Entries without a value are no part of the mapping. -/
theorem IsMapping.effective (h : IsMapping entries) : IsMapping (effective entries) := by
  have hsub : ((Draft.effective entries).map (·.1)).Sublist (entries.map (·.1)) :=
    List.filter_sublist.map _
  exact ⟨h.nodup.sublist hsub, fun name hname => h.known name (hsub.subset hname)⟩

/-- The units of a mapping have the values that it has for their names. -/
theorem lookup_unitEntries (entries : List (Text × Value)) (unit : SpacingUnit) :
    (unitEntries entries).lookup unit = entries.lookup unit.name := by
  induction entries with
  | nil => rfl
  | cons entry entries ih =>
    obtain ⟨name, v⟩ := entry
    rw [List.lookup_cons, ← ih]
    -- An entry of another name is no unit, and one of a unit has the name of no other.
    cases hname : SpacingUnit.ofName? name with
    | none =>
      have hne : (unit.name == name) = false := beq_eq_false_iff_ne.2 fun heq => by
        rw [← heq, SpacingUnit.ofName?_name] at hname
        cases hname
      rw [hne]
      simp [unitEntries, hname]
    | some other =>
      obtain rfl := SpacingUnit.name_of_ofName? hname
      have hunits : unitEntries ((other.name, v) :: entries) =
          (other, v) :: unitEntries entries := by simp [unitEntries, hname]
      have hsame : (unit.name == other.name) = (unit == other) := by
        cases unit <;> cases other <;> rfl
      rw [hunits, List.lookup_cons, hsame]

/-- The units of a mapping come once each. -/
theorem nodup_unitEntries (h : (entries.map (·.1)).Nodup) :
    ((unitEntries entries).map (·.1)).Nodup := by
  have hkeys : (unitEntries entries).map (·.1) =
      (entries.map (·.1)).filterMap SpacingUnit.ofName? := by
    rw [unitEntries, List.map_filterMap, List.filterMap_map]
    congr 1
    funext entry
    cases h : SpacingUnit.ofName? entry.1 <;> simp [h]
  rw [hkeys]
  refine h.filterMap fun name other unit hname hother => ?_
  rw [SpacingUnit.name_of_ofName? hname, SpacingUnit.name_of_ofName? hother]

/-- The other entries have the values of the mapping for settings. -/
theorem lookup_settingEntries (entries : List (Text × Value)) (setting : Setting) :
    (settingEntries entries).lookup setting.name = entries.lookup setting.name := by
  induction entries with
  | nil => rfl
  | cons entry entries ih =>
    obtain ⟨name, v⟩ := entry
    rw [List.lookup_cons, ← ih]
    cases hname : SpacingUnit.ofName? name with
    | none =>
      have hsettings : settingEntries ((name, v) :: entries) =
          (name, v) :: settingEntries entries := by simp [settingEntries, hname]
      rw [hsettings, List.lookup_cons]
    | some unit =>
      have hne : (setting.name == name) = false := beq_eq_false_iff_ne.2 fun heq => by
        rw [← heq, Setting.unit_ofName?_name] at hname
        cases hname
      rw [hne]
      simp [settingEntries, hname]

/-- What is no unit of a mapping is a setting. -/
theorem IsMapping.settingEntries (h : IsMapping entries) :
    ((settingEntries entries).map (·.1)).Nodup ∧
      ∀ entry ∈ Draft.settingEntries entries, (Setting.ofName? entry.1).isSome = true := by
  refine ⟨h.nodup.sublist (List.filter_sublist.map _), fun entry hentry => ?_⟩
  obtain ⟨hmem, hunit⟩ := List.mem_filter.1 hentry
  have hknown := h.known entry.1 (List.mem_map.2 ⟨entry, hmem, rfl⟩)
  rw [isKnown, Bool.or_eq_true] at hknown
  refine hknown.resolve_right fun hsome => ?_
  rw [Option.isNone_iff_eq_none.1 hunit] at hsome
  cases hsome

/-! ## (5) What overriding comes to -/

/-- What a draft comes to when values are given for some names. Every setting takes the value that
is given for it. Units go into the bundle of the draft, and a bundle as a whole is taken only where
no units are given. -/
structure Overridden (draft : Draft) (f : Text → Option Value) (result : Draft) : Prop where
  setting : ∀ setting : Setting, setting ≠ .typography →
    result.get setting = (f setting.name).getD (draft.get setting)
  units : (∃ unit : SpacingUnit, f unit.name ≠ none) →
    result.typography = draft.typography.withUnits fun unit => f unit.name
  bundle : (∀ unit : SpacingUnit, f unit.name = none) →
    result.typography = (f Setting.typography.name).getD draft.typography

/-- **Overriding a draft** with a mapping gives a draft, if there is a bundle for the units. -/
theorem exists_override (hm : IsMapping m) (hbundle : GivesUnits m → draft.typography.IsBundle) :
    ∃ result, draft.override m = .ok result ∧ draft.Overridden (given m) result := by
  obtain ⟨hnodup, hsetting⟩ := hm.effective.settingEntries
  obtain ⟨changed, hchanged, hget⟩ := exists_setAll? hnodup hsetting draft
  have hgiven : ∀ setting : Setting,
      changed.get setting = (given m setting.name).getD (draft.get setting) := by
    intro setting
    rw [hget, lookup_settingEntries]
    rfl
  have hunits : ∀ unit : SpacingUnit,
      (unitEntries (effective m)).lookup unit = given m unit.name := fun unit =>
    lookup_unitEntries _ unit
  simp only [override, hchanged]
  -- Without units the bundle is that of the settings, and with some it is rebuilt.
  cases hentries : unitEntries (effective m) with
  | nil =>
    have hnone : ∀ unit : SpacingUnit, given m unit.name = none := by
      intro unit
      rw [← hunits, hentries]
      rfl
    exact ⟨changed, rfl, fun setting _ => hgiven setting,
      fun ⟨unit, hunit⟩ => absurd (hnone unit) hunit, fun _ => hgiven .typography⟩
  | cons entry rest =>
    have hsome : given m entry.1.name ≠ none := by
      rw [← hunits, hentries, List.lookup_cons, beq_self_eq_true]
      exact Option.some_ne_none _
    have hwith : draft.bundleWith? (entry :: rest) =
        some (draft.typography.withUnits fun unit => given m unit.name) := by
      rw [← hentries, bundleWith?,
        Value.foldlM_setUnit? (hbundle ⟨entry.1, hsome⟩) (nodup_unitEntries hm.effective.nodup)]
      simp only [hunits]
    simp only [hwith]
    refine ⟨_, rfl, fun setting hne => ?_, fun _ => rfl, fun hnone => absurd (hnone _) hsome⟩
    -- Only the bundle differs from what the settings entries make.
    rw [← hgiven setting]
    cases setting <;> first | rfl | exact absurd rfl hne

/-- Values are given for some units, or for none. -/
theorem exists_unit_or (f : Text → Option Value) :
    (∃ unit : SpacingUnit, f unit.name ≠ none) ∨ ∀ unit : SpacingUnit, f unit.name = none := by
  by_cases hnone : ∀ unit : SpacingUnit, f unit.name = none
  · exact .inr hnone
  · exact .inl (not_forall.1 hnone)

namespace Overridden

/-- The result depends on what is given and on nothing else. -/
theorem unique {result' : Draft} (h : draft.Overridden f result)
    (h' : draft.Overridden f result') : result = result' := by
  refine ext_get fun setting => ?_
  by_cases hsetting : setting = .typography
  · subst hsetting
    rcases exists_unit_or f with hunits | hnone
    · exact (h.units hunits).trans (h'.units hunits).symm
    · exact (h.bundle hnone).trans (h'.bundle hnone).symm
  · rw [h.setting setting hsetting, h'.setting setting hsetting]

/-- What is overridden holds a bundle, unless another value is given for the bundle as a whole. -/
theorem isBundle (h : draft.Overridden f first) (hbundle : draft.typography.IsBundle)
    (hkeep : f Setting.typography.name = none ∨ ∃ unit : SpacingUnit, f unit.name ≠ none) :
    first.typography.IsBundle := by
  rcases exists_unit_or f with hunits | hnone
  · rw [h.units hunits]
    exact hbundle.withUnits _
  · rw [h.bundle hnone, hkeep.resolve_right fun ⟨unit, hne⟩ => hne (hnone unit)]
    exact hbundle

/-- **Two overrides one after the other** come to one, where the second value stays. The second
gives no bundle as a whole, and the first gives one only if it also gives units or the second gives
none. -/
theorem trans (h : draft.Overridden f first) (h' : first.Overridden g result)
    (hg : g Setting.typography.name = none)
    (hkeep : f Setting.typography.name = none ∨ (∃ unit : SpacingUnit, f unit.name ≠ none) ∨
      ∀ unit : SpacingUnit, g unit.name = none) :
    draft.Overridden (fun name => (g name).or (f name)) result := by
  refine ⟨fun setting hne => ?_, fun hunits => ?_, fun hnone => ?_⟩
  · rw [h'.setting setting hne, h.setting setting hne]
    cases g setting.name <;> rfl
  · -- Both bundles are made from that of the draft.
    rw [← Value.withUnits_withUnits (fun unit => f unit.name) fun unit => g unit.name]
    have hfirst : (∀ unit : SpacingUnit, g unit.name = none) ∨
        first.typography = draft.typography.withUnits fun unit => f unit.name := by
      rcases hkeep with hwhole | hf | hnone
      · rcases exists_unit_or f with hf | hnone
        · exact .inr (h.units hf)
        · rw [h.bundle hnone, hwhole, Value.withUnits_of_none hnone]
          exact .inr rfl
      · exact .inr (h.units hf)
      · exact .inl hnone
    rcases exists_unit_or g with hsome | hnone
    · rw [h'.units hsome, hfirst.resolve_left fun hnone => ?_]
      obtain ⟨unit, hne⟩ := hsome
      exact hne (hnone unit)
    · have hf : ∃ unit : SpacingUnit, f unit.name ≠ none := by
        obtain ⟨unit, hunit⟩ := hunits
        rw [hnone unit] at hunit
        exact ⟨unit, hunit⟩
      rw [h'.bundle hnone, hg, Value.withUnits_of_none hnone, h.units hf]
      rfl
  · have hboth : ∀ unit : SpacingUnit, g unit.name = none ∧ f unit.name = none := fun unit =>
      Option.or_eq_none_iff.1 (hnone unit)
    rw [h'.bundle fun unit => (hboth unit).1, h.bundle fun unit => (hboth unit).2, hg]
    rfl

end Overridden

/-! ## (6) Two mappings -/

/-- Whether a mapping gives what two others give, and for a name that both give the value of the
second. -/
structure IsMerged (a b c : List (Text × Value)) : Prop where
  setting : ∀ setting : Setting,
    given c setting.name = (given b setting.name).or (given a setting.name)
  unit : ∀ unit : SpacingUnit, given c unit.name = (given b unit.name).or (given a unit.name)

/-- Only what is given for settings and units counts. -/
theorem Overridden.congr (h : draft.Overridden f result)
    (hsetting : ∀ setting : Setting, g setting.name = f setting.name)
    (hunit : ∀ unit : SpacingUnit, g unit.name = f unit.name) : draft.Overridden g result := by
  refine ⟨fun setting hne => ?_, fun hunits => ?_, fun hnone => ?_⟩
  · rw [hsetting, h.setting setting hne]
  · simp only [hunit] at hunits ⊢
    exact h.units hunits
  · simp only [hunit] at hnone
    rw [hsetting, h.bundle hnone]

/-- **Overrides compose.** Overriding a draft that holds a bundle with one mapping and then with
another one that gives no bundle as a whole is overriding it with the entries of both, where those
of the second win; all three have a result. If the first mapping gives a bundle, it has to give
units too, or the second gives none; and that bundle is what the draft holds in the end if no units
are given at all. -/
theorem override_override (hbundle : draft.typography.IsBundle) (ha : IsMapping a)
    (hb : IsMapping b) (hc : IsMapping c) (hmerged : IsMerged a b c)
    (hwhole : given b Setting.typography.name = none)
    (hkeep : given a Setting.typography.name = none ∨ GivesUnits a ∨ ¬GivesUnits b) :
    ∃ first result, draft.override a = .ok first ∧ first.override b = .ok result ∧
      draft.override c = .ok result ∧
      ∀ v, given a Setting.typography.name = some v → ¬GivesUnits c → result.typography = v := by
  have hkeep' : given a Setting.typography.name = none ∨ GivesUnits a ∨
      ∀ unit : SpacingUnit, given b unit.name = none :=
    hkeep.imp_right (.imp_right not_givesUnits_iff.1)
  obtain ⟨first, hfirst, hoverridden⟩ := exists_override ha fun _ => hbundle
  have hfirstBundle : GivesUnits b → first.typography.IsBundle := fun hunits =>
    hoverridden.isBundle hbundle (hkeep.imp_right fun h => h.resolve_right (not_not.2 hunits))
  obtain ⟨result, hresult, hoverridden'⟩ := exists_override hb hfirstBundle
  obtain ⟨result', hresult', hmerge⟩ := exists_override hc fun _ => hbundle
  have hboth := (hoverridden.trans hoverridden' hwhole hkeep').congr hmerged.setting hmerged.unit
  obtain rfl := hboth.unique hmerge
  refine ⟨first, result, hfirst, hresult, hresult', fun v hv hunits => ?_⟩
  rw [hboth.bundle (not_givesUnits_iff.1 hunits), hmerged.setting, hwhole, hv]
  rfl

/-- The second value of a unit stays, whatever the order of the entries. -/
theorem override_override_twice :
    let a : List (Text × Value) := [(Setting.maxWidth.name, .integer 60),
      (Setting.typography.name, .null), (SpacingUnit.listIndent.name, .integer 4)]
    let b : List (Text × Value) := [(SpacingUnit.listIndent.name, .integer 3),
      (Setting.maxWidth.name, .null), (SpacingUnit.indentSize.name, .integer 6)]
    let c : List (Text × Value) := [(SpacingUnit.indentSize.name, .integer 6),
      (SpacingUnit.listIndent.name, .integer 3), (Setting.maxWidth.name, .integer 60)]
    IsMapping a ∧ IsMapping b ∧ IsMapping c ∧ IsMerged a b c ∧ GivesUnits a ∧
      ∃ first result, ({} : Draft).override a = .ok first ∧ first.override b = .ok result ∧
        ({} : Draft).override c = .ok result := by
  intro a b c
  have ha : IsMapping a := by decide
  have hb : IsMapping b := by decide
  have hc : IsMapping c := by decide
  have hmerged : IsMerged a b c :=
    ⟨fun setting => by cases setting <;> rfl, fun unit => by cases unit <;> rfl⟩
  have hunits : GivesUnits a := ⟨.listIndent, Option.some_ne_none _⟩
  have hbundle : ({} : Draft).typography.IsBundle := ⟨_, _, _, rfl⟩
  obtain ⟨first, result, hfirst, hresult, hresult', -⟩ :=
    override_override hbundle ha hb hc hmerged rfl (.inr (.inl hunits))
  exact ⟨ha, hb, hc, hmerged, hunits, first, result, hfirst, hresult, hresult'⟩

/-- A bundle and a unit that are given one after the other are both taken, and the bundle is lost if
they are given together. -/
theorem override_override_bundle :
    let a : List (Text × Value) :=
      [(Setting.typography.name, .units (.integer 8) (.integer 2) (.integer 1))]
    let b : List (Text × Value) := [(SpacingUnit.listIndent.name, .integer 4)]
    IsMapping a ∧ IsMapping b ∧ IsMapping (a ++ b) ∧ IsMerged a b (a ++ b) ∧
      given b Setting.typography.name = none ∧
      ∃ first result result', ({} : Draft).override a = .ok first ∧
        first.override b = .ok result ∧ ({} : Draft).override (a ++ b) = .ok result' ∧
        result.typography = .units (.integer 8) (.integer 4) (.integer 1) ∧
        result'.typography = .units (.integer 4) (.integer 4) (.integer 1) ∧ result ≠ result' := by
  intro a b
  refine ⟨by decide, by decide, by decide, ?_, rfl, _, _, _, rfl, rfl, rfl, rfl, rfl, fun h => ?_⟩
  · exact ⟨fun setting => by cases setting <;> rfl, fun unit => by cases unit <;> rfl⟩
  · cases congrArg Draft.typography h

end Draft

end ChapterLayout
