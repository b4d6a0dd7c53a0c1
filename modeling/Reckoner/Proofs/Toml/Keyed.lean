/-
Module: Reckoner.Proofs.Toml.Keyed
Layer: Proofs
Purpose: No document says anything twice. While a document is read every table that is open, and every
  one that is complete, has each of its names once. Storing keeps this, so every change at the end
  of a path does, so every statement does; what inline tables hold is changed in the same way. It
  carries over to the data that reading gives, however deep they are nested.
Main exports: Datum.Keyed, Toml.Item.Keyed, Toml.Entries.Keyed, Toml.changeAt_preserves,
  Toml.readKeyed, Toml.lines_keyed, Toml.read_keyed
-/
import Reckoner.Toml.Document
import Mathlib.Data.List.Nodup

namespace Reckoner

/-- Whether a datum has nothing inside of it. -/
def Datum.isPlain : Datum → Bool
  | list _ | table _ => false
  | _ => true

/-- In every table of a datum there is each name once. -/
inductive Datum.Keyed : Datum → Prop where
  | plain {datum : Datum} (h : datum.isPlain = true) : Keyed datum
  | list {items : List Datum} (h : ∀ item ∈ items, Keyed item) : Keyed (.list items)
  | table {entries : List (String × Datum)} (hnames : (entries.map Prod.fst).Nodup)
      (h : ∀ entry ∈ entries, Keyed entry.2) : Keyed (.table entries)

namespace Toml

/-- In every table of an item there is each name once. -/
inductive Item.Keyed : Item → Prop where
  | value {datum : Datum} (h : datum.Keyed) : Keyed (.value datum)
  | table {declared : Option Nat} {entries : Entries} (hnames : (entries.map Prod.fst).Nodup)
      (h : ∀ entry ∈ entries, Keyed entry.2) : Keyed (.table declared entries)
  | series {complete : List Datum} {last : Entries} (hcomplete : ∀ datum ∈ complete, datum.Keyed)
      (hnames : (last.map Prod.fst).Nodup) (h : ∀ entry ∈ last, Keyed entry.2) :
      Keyed (.series complete last)

/-- A table with each name once, in which the same holds of every table. -/
def Entries.Keyed (entries : Entries) : Prop :=
  (entries.map Prod.fst).Nodup ∧ ∀ entry ∈ entries, entry.2.Keyed

/-!
### Data of tables
-/

theorem map_fst_dataOf (entries : Entries) :
    (dataOf entries).map Prod.fst = entries.map Prod.fst := by
  induction entries with
  | nil => rfl
  | cons entry entries ih =>
      obtain ⟨key, item⟩ := entry
      rw [dataOf, List.map_cons, List.map_cons, ih]

theorem mem_dataOf {entries : Entries} {entry : String × Datum} :
    entry ∈ dataOf entries ↔ ∃ kept ∈ entries, entry = (kept.1, kept.2.datum) := by
  induction entries with
  | nil => simp [dataOf]
  | cons first entries ih =>
      obtain ⟨key, item⟩ := first
      simp [dataOf, ih]

/-- The data of a table have its names, so they are kept if all its items are. -/
theorem table_dataOf_keyed {entries : Entries} (hnames : (entries.map Prod.fst).Nodup)
    (h : ∀ entry ∈ entries, entry.2.datum.Keyed) : (Datum.table (dataOf entries)).Keyed := by
  refine .table (by rwa [map_fst_dataOf]) fun entry hmem => ?_
  obtain ⟨kept, hkept, rfl⟩ := mem_dataOf.mp hmem
  exact h kept hkept

theorem Item.Keyed.datum {item : Item} (h : item.Keyed) : item.datum.Keyed := by
  induction h with
  | value h => exact h
  | table hnames _ ih => exact table_dataOf_keyed hnames ih
  | series hcomplete hnames _ ih =>
      refine .list fun datum hmem => ?_
      rcases List.mem_append.mp hmem with hmem | hmem
      · exact hcomplete datum (List.mem_reverse.mp hmem)
      · rw [List.mem_singleton.mp hmem]
        exact table_dataOf_keyed hnames ih

theorem Entries.Keyed.dataOf {entries : Entries} (h : entries.Keyed) :
    (Datum.table (Toml.dataOf entries)).Keyed :=
  table_dataOf_keyed h.1 fun entry hmem => (h.2 entry hmem).datum

/-!
### Changes
-/

namespace Entries

theorem Keyed.nil : Keyed [] :=
  ⟨List.nodup_nil, by simp⟩

variable {entries : Entries} {key : String} {item : Item}

theorem mem_store {entry : String × Item} (h : entry ∈ store key item entries) :
    entry = (key, item) ∨ entry ∈ entries := by
  induction entries with
  | nil => exact .inl (List.mem_singleton.mp h)
  | cons first entries ih =>
      obtain ⟨other, old⟩ := first
      rw [store] at h
      split at h
      · rcases List.mem_cons.mp h with hfirst | hmem
        · exact .inl hfirst
        · exact .inr (.tail _ hmem)
      · rcases List.mem_cons.mp h with rfl | hmem
        · exact .inr (.head _)
        · exact (ih hmem).imp_right (.tail _)

/-- Storing puts a new name behind the others, if it is new. -/
theorem map_fst_store (key : String) (item : Item) (entries : Entries) :
    (store key item entries).map Prod.fst =
      if key ∈ entries.map Prod.fst then entries.map Prod.fst
      else entries.map Prod.fst ++ [key] := by
  induction entries with
  | nil => simp [store]
  | cons first entries ih =>
      obtain ⟨other, old⟩ := first
      rw [store]
      split
      · next hother => simp [hother]
      · next hother =>
          have hne : key ≠ other := fun h => hother h.symm
          simp only [List.map_cons, ih, List.mem_cons, hne, false_or]
          split <;> rfl

theorem Keyed.store (h : entries.Keyed) (hitem : item.Keyed) :
    (store key item entries).Keyed := by
  obtain ⟨hnames, hitems⟩ := h
  refine ⟨?_, fun entry hmem => ?_⟩
  · rw [map_fst_store]
    split
    · exact hnames
    · next hnew =>
        rw [← List.concat_eq_append]
        exact hnames.concat hnew
  · rcases mem_store hmem with rfl | hmem
    · exact hitem
    · exact hitems entry hmem

theorem Keyed.lookup (h : entries.Keyed) (hfound : entries.lookup key = some item) : item.Keyed := by
  obtain ⟨front, behind, rfl, -⟩ := List.lookup_eq_some_iff.mp hfound
  exact h.2 (key, item) (List.mem_append_right _ List.mem_cons_self)

theorem Keyed.insertValue {datum : Datum} {changed : Entries} (h : entries.Keyed)
    (hdatum : datum.Keyed) (hchange : insertValue key datum entries = some changed) :
    changed.Keyed := by
  rw [Entries.insertValue] at hchange
  split at hchange
  · cases hchange
    exact h.store (.value hdatum)
  · cases hchange

end Entries

/-- Whether a way of passing leads from what has each name once to what has, and back once this has
    been changed. -/
def Passing.Keeps (pass : Passing) : Prop :=
  ∀ found inside close, pass found = some (inside, close) →
    (∀ item, found = some item → item.Keyed) →
    inside.Keyed ∧ ∀ changed : Entries, changed.Keyed → (close changed).Keyed

theorem passHeader_keeps : Passing.Keeps passHeader := by
  intro found inside close hpass hfound
  unfold passHeader at hpass
  split at hpass
  · cases hpass
    exact ⟨.nil, fun changed h => .table h.1 h.2⟩
  · cases hpass
    cases hfound _ rfl with
    | table hnames h => exact ⟨⟨hnames, h⟩, fun changed h => .table h.1 h.2⟩
  · cases hpass
    cases hfound _ rfl with
    | series hcomplete hnames h =>
        exact ⟨⟨hnames, h⟩, fun changed h => .series hcomplete h.1 h.2⟩
  · cases hpass

theorem passDotted_keeps (current : Nat) : Passing.Keeps (passDotted current) := by
  intro found inside close hpass hfound
  unfold passDotted at hpass
  split at hpass
  · cases hpass
    exact ⟨.nil, fun changed h => .table h.1 h.2⟩
  · cases hpass
    cases hfound _ rfl with
    | table hnames h => exact ⟨⟨hnames, h⟩, fun changed h => .table h.1 h.2⟩
  · split at hpass
    · cases hpass
      cases hfound _ rfl with
      | table hnames h => exact ⟨⟨hnames, h⟩, fun changed h => .table h.1 h.2⟩
    · cases hpass
  · cases hpass
  · cases hpass

/-- Whether a change keeps every name once. -/
def Preserves (change : Entries → Option Entries) : Prop :=
  ∀ entries changed : Entries, entries.Keyed → change entries = some changed → changed.Keyed

/-- A change at the end of a path keeps every name once if it does so there. -/
theorem changeAt_preserves {pass : Passing} (hpass : pass.Keeps) {change : Entries → Option Entries}
    (hchange : Preserves change) (path : List String) : Preserves (changeAt pass path change) := by
  induction path with
  | nil => exact hchange
  | cons key path ih =>
      intro entries changed h hchanged
      rw [changeAt] at hchanged
      split at hchanged
      · cases hchanged
      · next inside close hinside =>
          obtain ⟨hkeyed, hclose⟩ := hpass _ inside close hinside fun item => h.lookup
          split at hchanged
          · cases hchanged
          · next between hbetween =>
              cases hchanged
              exact h.store (hclose between (ih inside between hkeyed hbetween))

theorem assign_preserves (current : Nat) (header : List String) (key : Key) {datum : Datum}
    (h : datum.Keyed) : Preserves (assign current header key datum) := by
  refine changeAt_preserves passHeader_keeps ?_ header
  refine changeAt_preserves (passDotted_keeps current) ?_ key.path
  exact fun entries changed hentries => hentries.insertValue h

theorem declareTable_preserves (current : Nat) (key : Key) :
    Preserves (declareTable current key) := by
  refine changeAt_preserves passHeader_keeps ?_ key.path
  intro inside changed hinside hchanged
  simp only at hchanged
  split at hchanged
  · cases hchanged
    exact hinside.store (.table List.nodup_nil (by simp))
  · next found hfound =>
      cases hchanged
      cases hinside.lookup hfound with
      | table hnames h => exact hinside.store (.table hnames h)
  · cases hchanged

theorem appendTable_preserves (key : Key) : Preserves (appendTable key) := by
  refine changeAt_preserves passHeader_keeps ?_ key.path
  intro inside changed hinside hchanged
  simp only at hchanged
  split at hchanged
  · cases hchanged
    exact hinside.store (.series (by simp) List.nodup_nil (by simp))
  · next complete last hfound =>
      cases hchanged
      cases hinside.lookup hfound with
      | series hcomplete hnames h =>
          refine hinside.store (.series ?_ List.nodup_nil (by simp))
          exact List.forall_mem_cons.mpr ⟨Entries.Keyed.dataOf ⟨hnames, h⟩, hcomplete⟩
  · cases hchanged

/-!
### Values
-/

theorem Reading.map_eq_ok_iff {α β : Type} {f : α → β} {reading : Reading α} {b : β}
    {rest : List Char} :
    reading.map f = .ok (b, rest) ↔ ∃ a, reading = .ok (a, rest) ∧ f a = b := by
  cases reading with
  | error fault => simp [Reading.map]
  | ok found =>
      obtain ⟨a, behind⟩ := found
      simp only [Reading.map, Except.ok.injEq, Prod.mk.injEq]
      constructor
      · rintro ⟨hb, hrest⟩
        exact ⟨a, ⟨rfl, hrest⟩, hb⟩
      · rintro ⟨_, ⟨rfl, hrest⟩, hb⟩
        exact ⟨hb, hrest⟩

theorem isPlain_of_basedInteger? {text rest : List Char} {datum : Datum}
    (h : basedInteger? text = some (datum, rest)) : datum.isPlain = true := by
  unfold basedInteger? at h
  split at h
  · split at h
    · cases h
    · obtain ⟨found, -, hfound⟩ := Option.map_eq_some_iff.mp h
      cases hfound
      rfl
  · cases h

theorem isPlain_of_decimalNumber? {text rest : List Char} {datum : Datum}
    (h : decimalNumber? text = .ok (some (datum, rest))) : datum.isPlain = true := by
  simp only [decimalNumber?] at h
  split at h
  · cases h
  · split at h
    · split at h
      · cases h
        rfl
      · cases h
    · cases h
      rfl

theorem isPlain_of_number? {text rest : List Char} {datum : Datum}
    (h : number? text = .ok (some (datum, rest))) : datum.isPlain = true := by
  unfold number? at h
  split at h
  · next hbased =>
      cases h
      exact isPlain_of_basedInteger? hbased
  · exact isPlain_of_decimalNumber? h

theorem isPlain_of_special? {text rest : List Char} {datum : Datum}
    (h : special? text = some (datum, rest)) : datum.isPlain = true := by
  simp only [special?] at h
  split at h
  · cases h
    rfl
  · cases h
    rfl
  · cases h

theorem isPlain_of_scalar {text rest : List Char} {datum : Datum}
    (h : scalar text = .ok (datum, rest)) : datum.isPlain = true := by
  unfold scalar at h
  split at h
  · obtain ⟨_, -, rfl⟩ := Reading.map_eq_ok_iff.mp h
    rfl
  · obtain ⟨_, -, rfl⟩ := Reading.map_eq_ok_iff.mp h
    rfl
  · obtain ⟨_, -, rfl⟩ := Reading.map_eq_ok_iff.mp h
    rfl
  · obtain ⟨_, -, rfl⟩ := Reading.map_eq_ok_iff.mp h
    rfl
  · cases h
    rfl
  · cases h
    rfl
  · split at h
    · cases h
    · cases h
      rfl
    · split at h
      · cases h
      · next hnumber =>
          cases h
          exact isPlain_of_number? hnumber
      · split at h
        · next hspecial =>
            cases h
            exact isPlain_of_special? hspecial
        · cases h

/-- What the readers of nested values have in common, given the fuel. -/
structure ReadKeyed (fuel : Nat) : Prop where
  value : ∀ text datum rest, Toml.value fuel text = .ok (datum, rest) → datum.Keyed
  items : ∀ text data rest, Toml.items fuel text = .ok (data, rest) → ∀ datum ∈ data, datum.Keyed
  fields : ∀ (entries changed : Entries) text rest, entries.Keyed →
    Toml.fields fuel entries text = .ok (changed, rest) → changed.Keyed

variable {fuel : Nat} {text rest : List Char}

/-- A value, given what arrays and inline tables hold. -/
theorem ReadKeyed.value_succ (ih : ReadKeyed fuel) {datum : Datum}
    (h : Toml.value (fuel + 1) text = .ok (datum, rest)) : datum.Keyed := by
  unfold Toml.value at h
  split at h
  · -- an array
    split at h
    · cases h
    · cases h
      exact .list (by simp)
    · obtain ⟨data, hdata, rfl⟩ := Reading.map_eq_ok_iff.mp h
      exact .list (ih.items _ data rest hdata)
  · -- an inline table
    split at h
    · cases h
      exact .table List.nodup_nil (by simp)
    · obtain ⟨entries, hentries, rfl⟩ := Reading.map_eq_ok_iff.mp h
      exact (ih.fields [] entries _ rest .nil hentries).dataOf
  · exact .plain (isPlain_of_scalar h)

/-- The items of an array, given the first one and the others. -/
theorem ReadKeyed.items_succ (ih : ReadKeyed fuel) {data : List Datum}
    (h : Toml.items (fuel + 1) text = .ok (data, rest)) : ∀ datum ∈ data, datum.Keyed := by
  rw [Toml.items] at h
  split at h
  · cases h
  · next datum behind hdatum =>
      have hkeyed := ih.value _ datum behind hdatum
      split at h
      · cases h
      · cases h
        simpa using hkeyed
      · split at h
        · cases h
        · cases h
          simpa using hkeyed
        · obtain ⟨others, hothers, rfl⟩ := Reading.map_eq_ok_iff.mp h
          exact List.forall_mem_cons.mpr ⟨hkeyed, ih.items _ others rest hothers⟩
      · cases h

/-- The assignments of an inline table, given the first one and the others. -/
theorem ReadKeyed.fields_succ (ih : ReadKeyed fuel) {entries changed : Entries}
    (hentries : entries.Keyed) (h : Toml.fields (fuel + 1) entries text = .ok (changed, rest)) :
    changed.Keyed := by
  rw [Toml.fields] at h
  split at h
  · cases h
  · split at h
    · cases h
    · next datum behind hdatum =>
        have hkeyed := ih.value _ datum behind hdatum
        split at h
        · cases h
        · next assigned hassigned =>
            have hassigned := assign_preserves 0 [] _ hkeyed entries assigned hentries hassigned
            split at h
            · cases h
              exact hassigned
            · exact ih.fields assigned changed _ rest hassigned h
            · cases h
  · cases h

/-- Every value has each name once in its tables, whatever fuel it is read with. -/
theorem readKeyed (fuel : Nat) : ReadKeyed fuel := by
  induction fuel with
  | zero =>
      refine ⟨fun text datum rest h => ?_, fun text data rest h => ?_,
        fun entries changed text rest _ h => ?_⟩
      · rw [Toml.value] at h
        cases h
      · rw [Toml.items] at h
        cases h
      · rw [Toml.fields] at h
        cases h
  | succ fuel ih =>
      exact ⟨fun _ _ _ => ih.value_succ, fun _ _ _ => ih.items_succ,
        fun _ _ _ _ => ih.fields_succ⟩

/-!
### Statements and documents
-/

theorem assignment_keyed {draft next : Draft} (hdraft : draft.entries.Keyed)
    (h : assignment draft text = .ok (next, rest)) : next.entries.Keyed := by
  unfold assignment at h
  split at h
  · cases h
  · split at h
    · cases h
    · next datum behind hdatum =>
        have hkeyed := (readKeyed _).value _ datum behind hdatum
        split at h
        · next entries hassigned =>
            cases h
            exact assign_preserves _ _ _ hkeyed _ entries hdraft hassigned
        · cases h
  · cases h

theorem header_keyed {isSeries : Bool} {draft next : Draft} (hdraft : draft.entries.Keyed)
    (h : header isSeries draft text = .ok (next, rest)) : next.entries.Keyed := by
  simp only [header] at h
  split at h
  · cases h
  · split at h
    · next entries behind hentries _ =>
        cases h
        split at hentries
        · exact appendTable_preserves _ _ entries hdraft hentries
        · exact declareTable_preserves _ _ _ entries hdraft hentries
    · cases h

theorem statement_keyed {draft next : Draft} (hdraft : draft.entries.Keyed)
    (h : statement draft text = .ok (next, rest)) : next.entries.Keyed := by
  unfold statement at h
  split at h
  · exact header_keyed hdraft h
  · exact header_keyed hdraft h
  · cases h
    exact hdraft
  · split at h
    · exact assignment_keyed hdraft h
    · split at h
      · cases h
        exact hdraft
      · cases h

theorem lines_keyed {fuel : Nat} {draft final : Draft} (hdraft : draft.entries.Keyed)
    (h : lines fuel draft text = .ok final) : final.entries.Keyed := by
  induction fuel generalizing draft text with
  | zero => cases h
  | succ fuel ih =>
      rw [lines] at h
      split at h
      · cases h
      · next next rest hstatement =>
          have hnext := statement_keyed hdraft hstatement
          split at h
          · cases h
          · cases h
            exact hnext
          · exact ih hnext h
          · cases h

/-- A document has each name once, and so has every table in it. -/
theorem read_keyed {text : String} {document : List (String × Datum)}
    (h : read text = .ok document) : (Datum.table document).Keyed := by
  simp only [read] at h
  split at h
  · next draft hlines =>
      cases h
      exact (lines_keyed .nil hlines).dataOf
  · cases h

end Toml

end Reckoner
