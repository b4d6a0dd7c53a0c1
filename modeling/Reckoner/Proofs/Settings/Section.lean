/-
Module: Reckoner.Proofs.Settings.Section
Layer: Proofs
Purpose: What a section says about the settings. Entries that are not named after settings are left
  out before the section is checked, and the others are checked one after the other. So each setting
  is looked up by its name and converted on its own, and the outcome depends on nothing but the
  entries that are named after settings: not on their order, not on further entries, and not on what
  becomes of the other settings. What is refused is named in the order of the settings. The names
  that are not settings are warned of all at once, in ascending order, whatever the outcome is.
Main exports: Settings.Field.said, Settings.foldl_check, Settings.checkInTurn_eq_ok_iff,
  Settings.checkInTurn_eq_error_iff, Settings.known, Settings.refusedFields,
  Settings.checkInTurn_congr, Settings.filter_unknownNames, Settings.warningsFor_eq,
  Settings.ofSection_fieldwise
-/
import Reckoner.Settings.Checking
import Mathlib.Data.List.Nodup

namespace Reckoner.Settings

/-!
### Single settings
-/

namespace Field

/-- What a section says about a setting: the default if nothing, and nothing if its datum is
    refused. -/
def said (conversions : Conversions) (entries : Section) (field : Field) : Option field.Content :=
  match entries.lookup field.name with
  | none => some (field.content standard)
  | some datum => conversions field datum

theorem mem_all (field : Field) : field ∈ all := by
  cases field <;> decide

theorem nodup_all : all.Nodup := by decide

theorem name_inj {field other : Field} : field.name = other.name ↔ field = other := by
  cases field <;> cases other <;> decide

@[simp] theorem content_put_self (field : Field) (value : field.Content) (settings : Settings) :
    field.content (field.put value settings) = value := by
  cases field <;> rfl

theorem content_put_of_ne {field other : Field} (h : other ≠ field) (value : field.Content)
    (settings : Settings) : other.content (field.put value settings) = other.content settings := by
  cases field <;> cases other <;> first | rfl | exact absurd rfl h

theorem ext_content {settings others : Settings}
    (h : ∀ field : Field, field.content settings = field.content others) : settings = others := by
  obtain ⟨prompt, showTree, color, treeStyle, errorStyle⟩ := settings
  obtain ⟨prompt', showTree', color', treeStyle', errorStyle'⟩ := others
  cases h .prompt
  cases h .showTree
  cases h .color
  cases h .treeStyle
  cases h .errorStyle
  rfl

end Field

/-!
### All settings of a section
-/

variable {conversions : Conversions} {entries others : Section}

/-- A setting whose datum is not refused has afterwards what the section says about it, if it had
    its default before. -/
theorem check_of_said {checked : Checked} {field : Field} {value : field.Content}
    (h : field.said conversions entries = some value)
    (hfresh : field.content checked.settings = field.content standard) :
    (checked.check conversions entries field).refused = checked.refused ∧
      field.content (checked.check conversions entries field).settings = value := by
  cases hlookup : entries.lookup field.name with
  | none =>
      simp only [Field.said, hlookup, Option.some.injEq] at h
      simp only [Checked.check, hlookup, hfresh, h, and_self]
  | some datum =>
      simp only [Field.said, hlookup] at h
      simp only [Checked.check, hlookup, h, Field.content_put_self, and_self]

theorem check_of_refused {field : Field} (h : field.said conversions entries = none)
    (checked : Checked) :
    checked.check conversions entries field =
      { checked with refused := checked.refused ++ [field] } := by
  cases hlookup : entries.lookup field.name with
  | none => simp only [Field.said, hlookup, reduceCtorEq] at h
  | some datum =>
      simp only [Field.said, hlookup] at h
      simp only [Checked.check, hlookup, h]

/-- Checking a setting leaves all others as they are. -/
theorem content_check_of_ne {field other : Field} (h : other ≠ field) (checked : Checked) :
    other.content (checked.check conversions entries field).settings =
      other.content checked.settings := by
  unfold Checked.check
  split
  · rfl
  · split
    · exact Field.content_put_of_ne h _ _
    · rfl

/-- The settings that have been checked are what the section says about them, the refused ones are
    noted in order, and all others are left as they are. The induction is on the settings that are
    still to be checked; each of them has its default until then. -/
theorem foldl_check (fields : List Field) (hnodup : fields.Nodup) (checked : Checked)
    (hfresh : ∀ field ∈ fields, field.content checked.settings = field.content standard) :
    (fields.foldl (Checked.check conversions entries) checked).refused =
        checked.refused ++ fields.filter (fun field => (field.said conversions entries).isNone) ∧
      (∀ field ∈ fields, ∀ value, field.said conversions entries = some value →
        field.content (fields.foldl (Checked.check conversions entries) checked).settings =
          value) ∧
      ∀ field ∉ fields,
        field.content (fields.foldl (Checked.check conversions entries) checked).settings =
          field.content checked.settings := by
  induction fields generalizing checked with
  | nil => simp
  | cons first fields ih =>
      rw [List.nodup_cons] at hnodup
      have hne : ∀ field ∈ fields, field ≠ first := fun field hmem hfirst =>
        hnodup.1 (hfirst ▸ hmem)
      obtain ⟨hrefused, hsaid, hothers⟩ := ih hnodup.2
        (checked.check conversions entries first) fun field hmem =>
          (content_check_of_ne (hne field hmem) checked).trans
            (hfresh field (List.mem_cons_of_mem first hmem))
      refine ⟨?_, ?_, ?_⟩
      · rw [List.foldl_cons, hrefused]
        cases hfirst : first.said conversions entries with
        | none => simp [check_of_refused hfirst, hfirst]
        | some value =>
            have hkept := check_of_said hfirst (hfresh first List.mem_cons_self)
            simp [hkept.1, hfirst]
      · intro field hmem value hvalue
        rw [List.foldl_cons]
        rcases List.mem_cons.mp hmem with rfl | hmem
        · rw [hothers field hnodup.1]
          exact (check_of_said hvalue (hfresh field List.mem_cons_self)).2
        · exact hsaid field hmem value hvalue
      · intro field hmem
        rw [List.mem_cons, not_or] at hmem
        rw [List.foldl_cons, hothers field hmem.2, content_check_of_ne hmem.1]

/-- The settings for which a section has refused data, in their order. -/
def refusedIn (conversions : Conversions) (entries : Section) : List Field :=
  Field.all.filter fun field => (field.said conversions entries).isNone

/-- If something is refused, all that is refused is named. -/
theorem checkInTurn_of_refused (h : refusedIn conversions entries ≠ []) :
    checkInTurn conversions entries = .error (refusedIn conversions entries) := by
  have hrefused : (Field.all.foldl (Checked.check conversions entries) ⟨standard, []⟩).refused =
      refusedIn conversions entries :=
    (foldl_check Field.all Field.nodup_all ⟨standard, []⟩ fun _ _ => rfl).1
  rw [checkInTurn, Checked.outcome, hrefused]
  split
  · next hnil => exact absurd hnil h
  · rfl

/-- If nothing is refused, the settings are what the section says about each of them. -/
theorem checkInTurn_of_said {settings : Settings}
    (h : ∀ field : Field, field.said conversions entries = some (field.content settings)) :
    checkInTurn conversions entries = .ok settings := by
  obtain ⟨hrefused, hsaid, -⟩ :=
    @foldl_check conversions entries Field.all Field.nodup_all ⟨standard, []⟩ fun _ _ => rfl
  have hnil : (Field.all.filter fun field => (field.said conversions entries).isNone) = [] := by
    simp [h]
  rw [hnil] at hrefused
  rw [checkInTurn, Checked.outcome, hrefused]
  exact congrArg Except.ok
    (Field.ext_content fun field => hsaid field field.mem_all _ (h field))

/-- What a section says comes to settings, or it refuses something. -/
theorem exists_content_or_refused (conversions : Conversions) (entries : Section) :
    (∃ settings : Settings, ∀ field : Field,
        field.said conversions entries = some (field.content settings)) ∨
      refusedIn conversions entries ≠ [] := by
  by_cases h : refusedIn conversions entries = []
  · have hsome : ∀ field : Field, ∃ value, field.said conversions entries = some value := by
      intro field
      have hfield := List.filter_eq_nil_iff.mp h field field.mem_all
      exact Option.ne_none_iff_exists'.mp fun hnone => hfield (by rw [hnone]; rfl)
    choose value hvalue using hsome
    refine .inl ⟨⟨value .prompt, value .showTree, value .color, value .treeStyle,
      value .errorStyle⟩, fun field => ?_⟩
    cases field <;> exact hvalue _
  · exact .inr h

/-- The settings of a section are what it says about each of them. -/
theorem checkInTurn_eq_ok_iff {settings : Settings} :
    checkInTurn conversions entries = .ok settings ↔
      ∀ field : Field, field.said conversions entries = some (field.content settings) := by
  refine ⟨fun hok => ?_, checkInTurn_of_said⟩
  rcases exists_content_or_refused conversions entries with ⟨others, hsaid⟩ | hrefused
  · rw [checkInTurn_of_said hsaid] at hok
    cases hok
    exact hsaid
  · rw [checkInTurn_of_refused hrefused] at hok
    cases hok

/-- A section is refused for all the settings of which it says what is refused. -/
theorem checkInTurn_eq_error_iff {fields : List Field} :
    checkInTurn conversions entries = .error fields ↔
      fields ≠ [] ∧ fields = refusedIn conversions entries := by
  rcases exists_content_or_refused conversions entries with ⟨settings, hsaid⟩ | hrefused
  · have hnil : refusedIn conversions entries = [] := by
      simp [refusedIn, hsaid]
    rw [checkInTurn_of_said hsaid, hnil]
    constructor
    · intro h
      cases h
    · intro h
      exact absurd h.2 h.1
  · rw [checkInTurn_of_refused hrefused]
    constructor
    · intro h
      cases h
      exact ⟨hrefused, rfl⟩
    · rintro ⟨-, rfl⟩
      rfl

/-!
### Entries
-/

/-- Whether a name is that of a setting. -/
def isKnown (name : String) : Bool :=
  ["prompt", "show_tree", "color", "tree_style", "error_style"].contains name

/-- The entries of a section that are named after settings. -/
def known (entries : Section) : Section :=
  entries.filter fun entry => isKnown entry.1

/-- The settings for which a section has a datum that is refused, in their order. -/
def refusedFields (conversions : Conversions) (entries : Section) : List Field :=
  [.prompt, .showTree, .color, .treeStyle, .errorStyle].filter fun field : Field =>
    entries.any fun entry => entry.1 == field.name && (conversions field entry.2).isNone

theorem isKnown_eq (name : String) :
    isKnown name = (Field.all.map Field.name).contains name := rfl

theorem isKnown_iff {name : String} : isKnown name = true ↔ ∃ field : Field, field.name = name := by
  rw [isKnown_eq, List.contains_iff_mem, List.mem_map]
  constructor
  · rintro ⟨field, -, hname⟩
    exact ⟨field, hname⟩
  · rintro ⟨field, hname⟩
    exact ⟨field, field.mem_all, hname⟩

theorem lookup_cons_of_ne {name first : String} (h : name ≠ first) (datum : Datum)
    (entries : Section) : List.lookup name ((first, datum) :: entries) = entries.lookup name := by
  rw [List.lookup_cons, beq_false_of_ne h]

/-- In a section that has every name at most once, each datum is found by its name. -/
theorem lookup_eq_some_iff_mem (h : (entries.map Prod.fst).Nodup) {name : String} {datum : Datum} :
    entries.lookup name = some datum ↔ (name, datum) ∈ entries := by
  induction entries with
  | nil => simp
  | cons entry entries ih =>
      obtain ⟨first, other⟩ := entry
      rw [List.map_cons, List.nodup_cons] at h
      rw [List.mem_cons, Prod.mk.injEq]
      by_cases hname : name = first
      · subst hname
        have hfresh : (name, datum) ∉ entries := fun hmem =>
          h.1 (List.mem_map.mpr ⟨_, hmem, rfl⟩)
        simp [hfresh, eq_comm]
      · rw [lookup_cons_of_ne hname, ih h.2]
        simp [hname]

/-- What is found by the name of a setting is found among the entries named after settings. -/
theorem lookup_known (field : Field) (entries : Section) :
    (known entries).lookup field.name = entries.lookup field.name := by
  induction entries with
  | nil => rfl
  | cons entry entries ih =>
      obtain ⟨name, datum⟩ := entry
      by_cases hname : field.name = name
      · subst hname
        have hfield : isKnown field.name = true := isKnown_iff.mpr ⟨field, rfl⟩
        have hknown : known ((field.name, datum) :: entries) = (field.name, datum) :: known entries :=
          List.filter_cons_of_pos hfield
        rw [hknown, List.lookup_cons_self, List.lookup_cons_self]
      · rw [lookup_cons_of_ne hname, ← ih, known, List.filter_cons]
        split
        · exact lookup_cons_of_ne hname datum _
        · rfl

theorem nodup_known (h : (entries.map Prod.fst).Nodup) : ((known entries).map Prod.fst).Nodup :=
  h.sublist (List.filter_sublist.map Prod.fst)

/-- The order of the entries does not matter, nor does what is not named after a setting. -/
theorem lookup_congr (h : (entries.map Prod.fst).Nodup) (hothers : (others.map Prod.fst).Nodup)
    (hperm : (known others).Perm (known entries)) (field : Field) :
    others.lookup field.name = entries.lookup field.name := by
  rw [← lookup_known field others, ← lookup_known field entries]
  refine Option.ext fun datum => ?_
  rw [lookup_eq_some_iff_mem (nodup_known hothers), lookup_eq_some_iff_mem (nodup_known h),
    hperm.mem_iff]

/-- Sections in which the same is found by the names of settings are read alike. -/
theorem checkInTurn_congr
    (h : ∀ field : Field, others.lookup field.name = entries.lookup field.name) :
    checkInTurn conversions others = checkInTurn conversions entries := by
  have hsaid : ∀ field : Field, field.said conversions others = field.said conversions entries :=
    fun field => by rw [Field.said, Field.said, h field]
  cases hof : checkInTurn conversions entries with
  | ok settings =>
      rw [checkInTurn_eq_ok_iff] at hof ⊢
      simpa only [hsaid] using hof
  | error fields =>
      rw [checkInTurn_eq_error_iff] at hof ⊢
      simpa only [refusedIn, hsaid] using hof

/-- What a section says about a setting that it has an entry for. -/
theorem said_of_mem (h : (entries.map Prod.fst).Nodup) {field : Field} {datum : Datum}
    (hmem : (field.name, datum) ∈ entries) :
    field.said conversions entries = conversions field datum := by
  rw [Field.said, (lookup_eq_some_iff_mem h).mpr hmem]

/-- What a section says about a setting that it has no entry for. -/
theorem said_of_not_mem {field : Field} (h : field.name ∉ entries.map Prod.fst) :
    field.said conversions entries = some (field.content standard) := by
  have hnone : entries.lookup field.name = none := by
    rw [List.lookup_eq_none_iff]
    intro entry hmem
    simpa using fun hname : field.name = entry.1 => h (hname ▸ List.mem_map_of_mem hmem)
  rw [Field.said, hnone]

/-- An entry is refused if and only if what the section says about its setting is. -/
theorem isNone_said_iff (h : (entries.map Prod.fst).Nodup) {field : Field} :
    (field.said conversions entries).isNone = true ↔
      ∃ datum, (field.name, datum) ∈ entries ∧ conversions field datum = none := by
  rw [Option.isNone_iff_eq_none]
  constructor
  · intro hnone
    by_cases hmem : field.name ∈ entries.map Prod.fst
    · obtain ⟨⟨name, datum⟩, hmem, rfl⟩ := List.mem_map.mp hmem
      exact ⟨datum, hmem, (said_of_mem h hmem).symm.trans hnone⟩
    · rw [said_of_not_mem hmem] at hnone
      cases hnone
  · rintro ⟨datum, hmem, hnone⟩
    exact (said_of_mem h hmem).trans hnone

/-- What a section says about a setting is what each entry for it is converted to, and the default if
    there is none. -/
theorem said_eq_some_iff (h : (entries.map Prod.fst).Nodup) {field : Field}
    {value : field.Content} :
    field.said conversions entries = some value ↔
      (∀ datum, (field.name, datum) ∈ entries → conversions field datum = some value) ∧
        (field.name ∉ entries.map Prod.fst → value = field.content standard) := by
  by_cases hmem : field.name ∈ entries.map Prod.fst
  · obtain ⟨⟨name, datum⟩, hentry, rfl⟩ := List.mem_map.mp hmem
    rw [said_of_mem h hentry]
    constructor
    · intro hvalue
      refine ⟨fun other hother => ?_, fun hnot => absurd hmem hnot⟩
      exact (said_of_mem h hother).symm.trans ((said_of_mem h hentry).trans hvalue)
    · intro hall
      exact hall.1 datum hentry
  · rw [said_of_not_mem hmem, Option.some_inj]
    constructor
    · intro hvalue
      exact ⟨fun datum hentry => absurd (List.mem_map.mpr ⟨_, hentry, rfl⟩) hmem,
        fun _ => hvalue.symm⟩
    · intro hall
      exact (hall.2 hmem).symm

theorem mem_refusedFields {field : Field} :
    field ∈ refusedFields conversions entries ↔
      ∃ datum, (field.name, datum) ∈ entries ∧ conversions field datum = none := by
  rw [refusedFields, List.mem_filter, List.any_eq_true]
  constructor
  · rintro ⟨-, ⟨name, datum⟩, hmem, hrefused⟩
    rw [Bool.and_eq_true, beq_iff_eq, Option.isNone_iff_eq_none] at hrefused
    obtain ⟨rfl, hnone⟩ := hrefused
    exact ⟨datum, hmem, hnone⟩
  · rintro ⟨datum, hmem, hnone⟩
    exact ⟨field.mem_all, _, hmem, by simp [hnone]⟩

/-- What is refused is named in the order of the settings. -/
theorem refusedIn_eq (h : (entries.map Prod.fst).Nodup) :
    refusedIn conversions entries = refusedFields conversions entries := by
  have hrefused : ∀ field : Field, field ∈ refusedFields conversions entries ↔
      (entries.any fun entry =>
        entry.1 == field.name && (conversions field entry.2).isNone) = true :=
    fun field => by
      rw [refusedFields, List.mem_filter]
      exact and_iff_right field.mem_all
  refine List.filter_congr fun field _ => Bool.eq_iff_iff.mpr ?_
  rw [isNone_said_iff h, ← mem_refusedFields, hrefused]

/-- An entry on its own gives its setting what its datum is converted to, or is refused. -/
theorem checkInTurn_singleton (field : Field) (datum : Datum) :
    checkInTurn conversions [(field.name, datum)] =
      match conversions field datum with
      | some value => .ok (field.put value standard)
      | none => .error [field] := by
  have hnodup : ([(field.name, datum)].map Prod.fst).Nodup := List.nodup_singleton _
  have hself : field.said conversions [(field.name, datum)] = conversions field datum :=
    said_of_mem hnodup List.mem_cons_self
  have hothers : ∀ other : Field, other ≠ field →
      other.said conversions [(field.name, datum)] = some (other.content standard) :=
    fun other hne => said_of_not_mem (by simpa [Field.name_inj] using hne)
  split
  · next value hvalue =>
      rw [checkInTurn_eq_ok_iff]
      intro other
      by_cases hother : other = field
      · subst hother
        rw [hself, hvalue, Field.content_put_self]
      · rw [hothers other hother, Field.content_put_of_ne hother]
  · next hnone =>
      rw [checkInTurn_eq_error_iff]
      refine ⟨List.cons_ne_nil _ _, ?_⟩
      have hfilter : refusedIn conversions [(field.name, datum)] =
          Field.all.filter (· == field) := by
        refine List.filter_congr fun other _ => ?_
        by_cases hother : other = field
        · subst hother
          rw [hself, hnone, beq_self_eq_true, Option.isNone_none]
        · rw [hothers other hother, beq_false_of_ne hother, Option.isNone_some]
      rw [hfilter]
      cases field <;> rfl

/-!
### Warnings
-/

/-- Erasing what has occurred already leaves everything once. -/
theorem nodup_eraseDups {α : Type} [BEq α] [LawfulBEq α] :
    (items : List α) → items.eraseDups.Nodup
  | [] => List.nodup_nil
  | item :: items => by
      rw [List.eraseDups_cons, List.nodup_cons]
      refine ⟨?_, nodup_eraseDups _⟩
      rw [List.mem_eraseDups, List.mem_filter]
      simp
termination_by items => items.length
decreasing_by
  exact Nat.lt_succ_of_le (List.length_filter_le _ _)

/-- The names that are not settings are in ascending order, so that there is each of them once. -/
theorem pairwise_unknownNames (names : List String) : (unknownNames names).Pairwise (· < ·) := by
  have hperm := List.mergeSort_perm
    ((names.filter fun name => !(Field.all.map Field.name).contains name).eraseDups)
    (fun a b : String => decide (a ≤ b))
  have hnodup : (unknownNames names).Nodup := hperm.nodup_iff.mpr (nodup_eraseDups _)
  have hsorted : (unknownNames names).Pairwise fun a b => decide (a ≤ b) = true :=
    List.pairwise_mergeSort
      (fun a b c hab hbc => by
        simp only [decide_eq_true_eq] at hab hbc ⊢
        exact String.le_trans hab hbc)
      (fun a b => by
        simpa only [Bool.or_eq_true, decide_eq_true_eq] using String.le_total a b) _
  refine (hsorted.and hnodup).imp fun {a b} h => ?_
  obtain ⟨hle, hne⟩ := h
  rw [decide_eq_true_eq] at hle
  exact String.not_le.mp fun hge => hne (String.le_antisymm hle hge)

theorem mem_unknownNames {names : List String} {name : String} :
    name ∈ unknownNames names ↔ name ∈ names ∧ isKnown name = false := by
  rw [unknownNames, List.mem_mergeSort, List.mem_eraseDups, List.mem_filter, ← isKnown_eq,
    Bool.not_eq_true']

/-- What is left of a section without the unknown names are the entries named after settings. -/
theorem filter_unknownNames (entries : Section) :
    (entries.filter fun entry => !(unknownNames (entries.map Prod.fst)).contains entry.1) =
      known entries := by
  refine List.filter_congr fun entry hentry => ?_
  have hname : entry.1 ∈ entries.map Prod.fst := List.mem_map_of_mem hentry
  rw [Bool.not_eq_eq_eq_not, Bool.eq_iff_iff, List.contains_iff_mem, mem_unknownNames,
    and_iff_right hname, Bool.not_eq_true']

/-- There is one warning for all names that are not settings, or none. -/
theorem warningsFor_eq (source : String) (names : List String) :
    warningsFor source names =
      if unknownNames names = [] then [] else [.unknownNames source (unknownNames names)] := by
  unfold warningsFor
  split
  · next hnil => rw [if_pos hnil]
  · next hne => rw [if_neg hne]

/-!
### Outcomes
-/

section

variable {rules : Rules} (hrules : rules.ChecksInTurn)

include hrules

/-- Rules that check in turn do so with the entries that are left of a section. What is left out
    would have made no difference. -/
theorem validate_kept (h : (entries.map Prod.fst).Nodup) :
    rules.validate conversions
        (entries.filter fun entry => !(unknownNames (entries.map Prod.fst)).contains entry.1) =
      checkInTurn conversions entries := by
  have hknown : ∀ name ∈ (known entries).map Prod.fst, name ∈ Field.all.map Field.name := by
    intro name hname
    obtain ⟨entry, hentry, rfl⟩ := List.mem_map.mp hname
    rw [← List.contains_iff_mem, ← isKnown_eq]
    exact (List.mem_filter.mp hentry).2
  rw [filter_unknownNames, hrules conversions _ (nodup_known h) hknown,
    checkInTurn_congr fun field => lookup_known field entries]

theorem outcome_congr (source : String) (h : (entries.map Prod.fst).Nodup)
    (hothers : (others.map Prod.fst).Nodup)
    (hlookup : ∀ field : Field, others.lookup field.name = entries.lookup field.name) :
    (ofSection rules source others).outcome = (ofSection rules source entries).outcome := by
  simp only [ofSection, validate_kept hrules h, validate_kept hrules hothers,
    checkInTurn_congr hlookup]

/-- A section gives settings if and only if its entries do. -/
theorem outcome_eq_ok_iff {source : String} {settings : Settings}
    (h : (entries.map Prod.fst).Nodup) :
    (ofSection rules source entries).outcome = .ok settings ↔
      checkInTurn rules.conversions entries = .ok settings := by
  simp only [ofSection, validate_kept hrules h]
  cases checkInTurn rules.conversions entries <;> simp

/-- A section fails if and only if its entries are refused. -/
theorem outcome_eq_error_iff {source : String} {failure : Failure}
    (h : (entries.map Prod.fst).Nodup) :
    (ofSection rules source entries).outcome = .error failure ↔
      ∃ fields, checkInTurn rules.conversions entries = .error fields ∧
        failure = .refused source fields := by
  simp only [ofSection, validate_kept hrules h]
  cases checkInTurn rules.conversions entries <;> simp [eq_comm]

end

/-- Some entry is refused if and only if there is a setting to be named. -/
theorem refusedFields_ne_nil_iff :
    refusedFields conversions entries ≠ [] ↔
      ∃ field : Field, ∃ datum, (field.name, datum) ∈ entries ∧ conversions field datum = none := by
  constructor
  · intro hne
    obtain ⟨field, hmem⟩ := List.exists_mem_of_ne_nil _ hne
    exact ⟨field, mem_refusedFields.mp hmem⟩
  · rintro ⟨field, hentry⟩
    exact List.ne_nil_of_mem (mem_refusedFields.mpr hentry)

/-- A style is refused if and only if it is no text or the text is not read as a style, and it is
    given as it is written. -/
theorem validateStyle_bind {rules : Rules} (datum : Datum) :
    ((rules.readText datum).bind (validateStyle rules.parseStyle) = none ↔
        ∀ text, rules.readText datum = some text → ∃ fault, rules.parseStyle text = .error fault) ∧
      ∀ text, (rules.readText datum).bind (validateStyle rules.parseStyle) = some text ↔
        rules.readText datum = some text ∧ ∃ style, rules.parseStyle text = .ok style := by
  cases rules.readText datum with
  | none => simp
  | some text =>
      rw [Option.bind_some, validateStyle]
      cases hparse : rules.parseStyle text with
      | ok style => simp +contextual [hparse]
      | error fault => simp +contextual [hparse]

/-!
### The result
-/

/-- Reading a section ignores exactly the entries whose names are not settings. The outcome is that of
    the entries named after settings, and that of any section with the same such entries, in whatever
    order and among whatever others. An entry on its own either gives its setting a value or is
    refused: the prompt by the rules for texts, a switch by those for switches, and a style if it is
    no text or the text is not read as a style. A section is
    refused if and only if one of its entries is refused on its own, for all the settings of such
    entries in their order; and otherwise it gives every setting that it has an entry for what that
    entry gives it, and the default to the others. Whatever the outcome is, there is one warning that
    lists all the names that are not settings, once and in ascending order, or no warning if there
    are none. Of the rules it is only assumed that they check a section for one setting after the
    other if all its entries are named after settings. -/
theorem ofSection_fieldwise {rules : Rules} (hrules : rules.ChecksInTurn) (source : String)
    {entries : Section} (h : (entries.map Prod.fst).Nodup) :
    ((ofSection rules source (known entries)).outcome =
          (ofSection rules source entries).outcome ∧
        ∀ others : Section, (others.map Prod.fst).Nodup → (known others).Perm (known entries) →
          (ofSection rules source others).outcome = (ofSection rules source entries).outcome) ∧
      (∀ (field : Field) (datum : Datum), (ofSection rules source [(field.name, datum)]).outcome =
        match rules.conversions field datum with
        | some value => .ok (field.put value ⟨"> ", false, true, "bright_black", "red"⟩)
        | none => .error (.refused source [field])) ∧
      (∀ datum, rules.conversions .prompt datum = rules.readText datum ∧
        rules.conversions .showTree datum = rules.readSwitch datum ∧
        rules.conversions .color datum = rules.readSwitch datum) ∧
      (∀ convert ∈ [(rules.conversions .treeStyle : Datum → Option String),
          rules.conversions .errorStyle], ∀ datum,
        (convert datum = none ↔ ∀ text, rules.readText datum = some text →
          ∃ fault, rules.parseStyle text = .error fault) ∧
        ∀ text, convert datum = some text ↔
          rules.readText datum = some text ∧ ∃ style, rules.parseStyle text = .ok style) ∧
      (∀ failure, (ofSection rules source entries).outcome = .error failure ↔
        (∃ field : Field, ∃ datum,
          (field.name, datum) ∈ entries ∧ rules.conversions field datum = none) ∧
        failure = .refused source (refusedFields rules.conversions entries)) ∧
      (∀ settings, (ofSection rules source entries).outcome = .ok settings ↔
        ∀ field : Field,
          (∀ datum, (field.name, datum) ∈ entries →
            rules.conversions field datum = some (field.content settings)) ∧
          (field.name ∉ entries.map Prod.fst →
            field.content settings =
              field.content ⟨"> ", false, true, "bright_black", "red"⟩)) ∧
      ∃ names : List String, names.Pairwise (· < ·) ∧
        (∀ name, name ∈ names ↔ name ∈ entries.map Prod.fst ∧
          name ∉ ["prompt", "show_tree", "color", "tree_style", "error_style"]) ∧
        (ofSection rules source entries).warnings =
          if names = [] then [] else [.unknownNames source names] := by
  refine ⟨⟨?_, fun others hothers hperm => ?_⟩, fun field datum => ?_,
    fun _ => ⟨rfl, rfl, rfl⟩, fun convert hconvert datum => ?_, fun failure => ?_,
    fun settings => ?_, ?_⟩
  · -- without the other names
    exact outcome_congr hrules source h (nodup_known h) fun field => lookup_known field entries
  · -- in any order and with any other names
    exact outcome_congr hrules source h hothers (lookup_congr h hothers hperm)
  · -- an entry on its own
    have hnodup : ([(field.name, datum)].map Prod.fst).Nodup := List.nodup_singleton _
    simp only [ofSection, validate_kept hrules hnodup, checkInTurn_singleton]
    cases rules.conversions field datum <;> rfl
  · -- a style on its own
    have hbind : convert datum = (rules.readText datum).bind (validateStyle rules.parseStyle) := by
      rcases List.mem_pair.mp hconvert with rfl | rfl <;> rfl
    rw [hbind]
    exact validateStyle_bind datum
  · -- what is refused
    rw [outcome_eq_error_iff hrules h, ← refusedFields_ne_nil_iff, ← refusedIn_eq h]
    simp only [checkInTurn_eq_error_iff]
    constructor
    · rintro ⟨fields, ⟨hne, rfl⟩, rfl⟩
      exact ⟨hne, rfl⟩
    · rintro ⟨hne, rfl⟩
      exact ⟨_, ⟨hne, rfl⟩, rfl⟩
  · -- what is given
    rw [outcome_eq_ok_iff hrules h, checkInTurn_eq_ok_iff]
    exact forall_congr' fun field => said_eq_some_iff h
  · -- the warning
    refine ⟨_, pairwise_unknownNames _, fun name => ?_, warningsFor_eq _ _⟩
    rw [mem_unknownNames, isKnown, ← Bool.not_eq_true, List.contains_iff_mem]

/-- One switch is read and the other one is refused, among names that are not settings. -/
theorem ofSection_fieldwise_switches :
    let entries : Section := [("zeta", .integer 1), ("color", .text "OFF"),
      ("show_tree", .text "sometimes"), ("Alpha", .null)]
    Rules.lenient.ChecksInTurn ∧ (entries.map Prod.fst).Nodup ∧
      (ofSection .lenient "intcalc.toml" entries).outcome =
        .error (.refused "intcalc.toml" [.showTree]) ∧
      (ofSection .lenient "intcalc.toml" [("color", .text "OFF")]).outcome =
        .ok { standard with color := false } := by
  intro entries
  have hnodup : (entries.map Prod.fst).Nodup := by decide
  obtain ⟨-, hself, -, -, herror, -, -⟩ :=
    ofSection_fieldwise Rules.lenient_checksInTurn "intcalc.toml" hnodup
  refine ⟨Rules.lenient_checksInTurn, hnodup,
    (herror _).mpr ⟨⟨.showTree, .text "sometimes", ?_, ?_⟩, ?_⟩, hself .color _⟩
  · exact .tail _ (.tail _ (.head _))
  · decide
  · have hrefused : refusedFields Rules.lenient.conversions entries = [.showTree] := by decide
    rw [hrefused]

end Reckoner.Settings
