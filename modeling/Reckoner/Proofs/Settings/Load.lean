/-
Module: Reckoner.Proofs.Settings.Load
Layer: Proofs
Purpose: What becomes of a configuration file, whatever bytes it holds. Loading is documented to give
  settings or to refuse some, and to fall back on the defaults where a file cannot be read or says
  nothing. It does so for all contents but those of four kinds: bytes that encode no text, a text with
  an integer of too many digits, and a document in which the entry for the section says something
  without being a table, whether it lists names or not. No nesting is taken to be too deep to read.
Main exports: Settings.Documented, Settings.Reads, Settings.Says, Settings.Silent, Settings.Serves,
  Settings.Fails, Settings.serves_or_fails, Settings.load_documented_iff
-/
import Reckoner.Settings.Checking
import Reckoner.Settings.Load
import Reckoner.Proofs.Toml.Keyed

namespace Reckoner

/-- Whether a datum lists names, but no data for them. -/
def Datum.ListsNames : Datum → Prop
  | text _ => True
  | list items => ∃ names : List String, items = names.map .text
  | _ => False

namespace Settings

/-- What loading is documented to come to: settings, or a refusal of some. -/
def Documented (source : String) (outcome : Except Failure Settings) : Prop :=
  (∃ settings, outcome = .ok settings) ∨ ∃ fields, outcome = .error (.refused source fields)

/-!
### Contents and texts
-/

/-- A content is the encoding of a text that is read with the given result. -/
def Reads (content : ByteArray) (result : Except Toml.Fault Section) : Prop :=
  ∃ text : String, text.toUTF8 = content ∧ Toml.read text = result

/-- Decoding gives the text whose encoding the content is. -/
theorem fromUTF8?_eq_some_iff {content : ByteArray} {text : String} :
    String.fromUTF8? content = some text ↔ text.toUTF8 = content := by
  unfold String.fromUTF8?
  constructor
  · intro h
    split at h
    · cases h
      rfl
    · cases h
  · rintro rfl
    exact dif_pos text.isValidUTF8

variable {rules : Rules} {source : String} {content : ByteArray} {document : Section}

theorem load_of_text {text : String} (h : text.toUTF8 = content) :
    load rules source (.file content) = ofText rules source text := by
  rw [load, fromUTF8?_eq_some_iff.mpr h]

theorem load_of_document (h : Reads content (.ok document)) :
    load rules source (.file content) = ofDocument rules source document := by
  obtain ⟨text, htext, hread⟩ := h
  rw [load_of_text htext, ofText, hread]

theorem load_of_malformed (h : Reads content (.error .malformed)) :
    load rules source (.file content) = ⟨.ok standard, [.unreadable source]⟩ := by
  obtain ⟨text, htext, hread⟩ := h
  rw [load_of_text htext, ofText, hread]

theorem load_of_numeralTooLong (h : Reads content (.error .numeralTooLong)) :
    load rules source (.file content) = ⟨.error .numeralTooLong, []⟩ := by
  obtain ⟨text, htext, hread⟩ := h
  rw [load_of_text htext, ofText, hread]

theorem load_of_unencoded (h : ∀ text : String, text.toUTF8 ≠ content) :
    load rules source (.file content) = ⟨.error .encoding, []⟩ := by
  have hnone : String.fromUTF8? content = none :=
    Option.eq_none_iff_forall_ne_some.mpr fun text htext => h text (fromUTF8?_eq_some_iff.mp htext)
  rw [load, hnone]

/-- All that a content can be. -/
theorem exists_reads_or_unencoded (content : ByteArray) :
    (∀ text : String, text.toUTF8 ≠ content) ∨ Reads content (.error .malformed) ∨
      Reads content (.error .numeralTooLong) ∨ ∃ document, Reads content (.ok document) := by
  by_cases h : ∃ text : String, text.toUTF8 = content
  · obtain ⟨text, htext⟩ := h
    cases hread : Toml.read text with
    | ok document => exact .inr (.inr (.inr ⟨document, text, htext, hread⟩))
    | error fault =>
        cases fault with
        | malformed => exact .inr (.inl ⟨text, htext, hread⟩)
        | numeralTooLong => exact .inr (.inr (.inl ⟨text, htext, hread⟩))
  · exact .inl fun text htext => h ⟨text, htext⟩

/-!
### The entry for the section
-/

/-- The content is a document that has something to say under the name of the section. -/
def Says (content : ByteArray) (datum : Datum) : Prop :=
  ∃ document, Reads content (.ok document) ∧ document.lookup sectionName = some datum ∧
    datum.isEmpty = false

/-- The content is a document that has nothing to say under the name of the section. -/
def Silent (content : ByteArray) : Prop :=
  ∃ document, Reads content (.ok document) ∧
    ∀ datum, document.lookup sectionName = some datum → datum.isEmpty = true

variable {datum : Datum}

theorem load_of_silent (h : Silent content) :
    load rules source (.file content) = ⟨.ok standard, []⟩ := by
  obtain ⟨document, hreads, hempty⟩ := h
  rw [load_of_document hreads, ofDocument]
  split
  · rfl
  · next datum hdatum =>
      unfold ofDatum
      exact if_pos (hempty datum hdatum)

theorem load_of_entry (h : Says content datum) :
    load rules source (.file content) = ofDatum rules source datum := by
  obtain ⟨document, hreads, hdatum, -⟩ := h
  rw [load_of_document hreads, ofDocument, hdatum]

theorem Says.isEmpty_ne (h : Says content datum) : ¬ datum.isEmpty = true := by
  obtain ⟨document, -, -, hempty⟩ := h
  rw [hempty]
  exact Bool.false_ne_true

theorem load_of_table {entries : Section} (h : Says content (.table entries)) :
    load rules source (.file content) = ofSection rules source entries := by
  rw [load_of_entry h]
  simp only [ofDatum, if_neg h.isEmpty_ne]

theorem nodup_of_table {entries : Section} (h : Says content (.table entries)) :
    (entries.map Prod.fst).Nodup := by
  obtain ⟨document, ⟨text, -, hread⟩, hlookup, -⟩ := h
  obtain ⟨front, behind, rfl, -⟩ := List.lookup_eq_some_iff.mp hlookup
  have hkeyed := Toml.read_keyed hread
  cases hkeyed with
  | plain hplain => cases hplain
  | table _ hdata =>
      have htable := hdata (sectionName, .table entries)
        (List.mem_append_right _ List.mem_cons_self)
      cases htable with
      | plain hplain => cases hplain
      | table hnames _ => exact hnames

/-- The items of a list are all texts if and only if they are the texts of some names. -/
theorem texts?_eq_some_iff {items : List Datum} {names : List String} :
    texts? items = some names ↔ items = names.map .text := by
  induction items generalizing names with
  | nil => cases names <;> simp [texts?]
  | cons item items ih =>
      have hcons : texts? (item :: items) = item.text?.bind fun name =>
          (texts? items).map (name :: ·) := by
        rw [texts?, List.mapM_cons]
        cases item.text? <;> cases htexts : items.mapM Datum.text? <;> simp [texts?, htexts]
      rw [hcons]
      cases item with
      | text value =>
          cases names with
          | nil => simp [Datum.text?]
          | cons name names =>
              simp only [Datum.text?, Option.bind_some, Option.map_eq_some_iff, ih, List.cons.injEq,
                List.map_cons, Datum.text.injEq]
              constructor
              · rintro ⟨_, hitems, rfl, rfl⟩
                exact ⟨rfl, hitems⟩
              · rintro ⟨rfl, hitems⟩
                exact ⟨names, hitems, rfl, rfl⟩
      | _ => cases names <;> simp [Datum.text?]

theorem outcome_of_listsNames (h : Says content datum) (hnames : datum.ListsNames) :
    (load rules source (.file content)).outcome = .error .namesOnly := by
  rw [load_of_entry h]
  cases datum with
  | text value => simp only [ofDatum, if_neg h.isEmpty_ne]
  | list items =>
      obtain ⟨names, hitems⟩ := hnames
      simp only [ofDatum, if_neg h.isEmpty_ne, texts?_eq_some_iff.mpr hitems]
  | _ => exact hnames.elim

/-- What is no table and lists no names has no entries. -/
theorem outcome_of_noEntries (h : Says content datum) (htable : ∀ entries, datum ≠ .table entries)
    (hnames : ¬ datum.ListsNames) :
    (load rules source (.file content)).outcome = .error .noEntries := by
  rw [load_of_entry h]
  cases datum with
  | text value => exact absurd trivial hnames
  | table entries => exact absurd rfl (htable entries)
  | list items =>
      have hnone : texts? items = none := Option.eq_none_iff_forall_ne_some.mpr fun names htexts =>
        hnames ⟨names, texts?_eq_some_iff.mp htexts⟩
      simp only [ofDatum, if_neg h.isEmpty_ne, hnone]
  | _ => simp only [ofDatum, if_neg h.isEmpty_ne]

/-!
### Contents that are served, and contents that fail
-/

/-- The contents for which loading keeps to its documentation. -/
inductive Serves (content : ByteArray) : Prop where
  | malformed (h : Reads content (.error .malformed))
  | silent (h : Silent content)
  | table (entries : Section) (h : Says content (.table entries))

/-- The contents for which it does not, and how it fails. -/
inductive Fails (content : ByteArray) : Failure → Prop where
  | encoding (h : ∀ text : String, text.toUTF8 ≠ content) : Fails content .encoding
  | numeralTooLong (h : Reads content (.error .numeralTooLong)) : Fails content .numeralTooLong
  | namesOnly (datum : Datum) (h : Says content datum) (hnames : datum.ListsNames) :
      Fails content .namesOnly
  | noEntries (datum : Datum) (h : Says content datum) (htable : ∀ entries, datum ≠ .table entries)
      (hnames : ¬ datum.ListsNames) : Fails content .noEntries

/-- There are no other contents. -/
theorem serves_or_fails (content : ByteArray) :
    Serves content ∨ ∃ failure, Fails content failure := by
  rcases exists_reads_or_unencoded content with h | h | h | ⟨document, hreads⟩
  · exact .inr ⟨_, .encoding h⟩
  · exact .inl (.malformed h)
  · exact .inr ⟨_, .numeralTooLong h⟩
  · cases hlookup : document.lookup sectionName with
    | none =>
        refine .inl (.silent ⟨document, hreads, fun datum hdatum => ?_⟩)
        cases hlookup.symm.trans hdatum
    | some datum =>
        by_cases hempty : datum.isEmpty = true
        · refine .inl (.silent ⟨document, hreads, fun other hother => ?_⟩)
          cases hlookup.symm.trans hother
          exact hempty
        · have hsays : Says content datum :=
            ⟨document, hreads, hlookup, Bool.eq_false_iff.mpr hempty⟩
          by_cases htable : ∃ entries, datum = .table entries
          · obtain ⟨entries, rfl⟩ := htable
            exact .inl (.table entries hsays)
          · by_cases hnames : datum.ListsNames
            · exact .inr ⟨_, .namesOnly datum hsays hnames⟩
            · exact .inr ⟨_, .noEntries datum hsays (not_exists.mp htable) hnames⟩

theorem documented_ofSection (rules : Rules) (source : String) (entries : Section) :
    Documented source (ofSection rules source entries).outcome := by
  simp only [ofSection]
  split
  · next settings _ => exact .inl ⟨settings, rfl⟩
  · next fields _ => exact .inr ⟨fields, rfl⟩

theorem Serves.documented (h : Serves content) :
    Documented source (load rules source (.file content)).outcome := by
  cases h with
  | malformed h => exact .inl ⟨standard, by rw [load_of_malformed h]⟩
  | silent h => exact .inl ⟨standard, by rw [load_of_silent h]⟩
  | table entries h =>
      rw [load_of_table h]
      exact documented_ofSection rules source entries

theorem Fails.outcome {failure : Failure} (h : Fails content failure) :
    (load rules source (.file content)).outcome = .error failure := by
  cases h with
  | encoding h => rw [load_of_unencoded h]
  | numeralTooLong h => rw [load_of_numeralTooLong h]
  | namesOnly datum h hnames => exact outcome_of_listsNames h hnames
  | noEntries datum h htable hnames => exact outcome_of_noEntries h htable hnames

theorem Fails.ne_refused {failure : Failure} (h : Fails content failure) (fields : List Field) :
    failure ≠ .refused source fields := by
  rintro rfl
  cases h

theorem Fails.not_documented {failure : Failure} (h : Fails content failure) :
    ¬ Documented source (load rules source (.file content)).outcome := by
  rw [h.outcome]
  rintro (⟨settings, hok⟩ | ⟨fields, herror⟩)
  · cases hok
  · cases herror
    exact h.ne_refused fields rfl

/-- Loading a file, by whatever rules, comes to what is documented exactly for the contents that are
    no TOML document, that say nothing for the section, or that have a table for it. It fails in
    another way exactly for those that encode no text, that hold an integer of too many digits, or
    that have something else for the section. The defaults hold if the file cannot be opened, is no
    TOML document or says nothing for the section. A table for it has each name once, and is read as
    a section. All this is said of a reader for which no nesting is too deep. A reader that calls
    itself for every array in an array, and for every table in a table, runs out of stack in some
    hundred of them, and that would be one more way to fail. -/
theorem load_documented_iff (rules : Rules) (source : String) (content : ByteArray) :
    (Documented source (load rules source (.file content)).outcome ↔ Serves content) ∧
      (∀ failure, (∀ fields, failure ≠ .refused source fields) →
        ((load rules source (.file content)).outcome = .error failure ↔ Fails content failure)) ∧
      ((load rules source .directory).outcome = .ok standard ∧
        (Reads content (.error .malformed) ∨ Silent content →
          (load rules source (.file content)).outcome = .ok standard)) ∧
      ∀ entries, Says content (.table entries) →
        (entries.map Prod.fst).Nodup ∧
          load rules source (.file content) = ofSection rules source entries := by
  refine ⟨⟨fun hdocumented => ?_, Serves.documented⟩, fun failure hother => ⟨fun herror => ?_,
    Fails.outcome⟩, ⟨rfl, ?_⟩, fun entries hsays => ⟨nodup_of_table hsays, load_of_table hsays⟩⟩
  · rcases serves_or_fails content with hserves | ⟨failure, hfails⟩
    · exact hserves
    · exact absurd hdocumented hfails.not_documented
  · rcases serves_or_fails content with hserves | ⟨same, hfails⟩
    · have hdocumented : Documented source (load rules source (.file content)).outcome :=
        hserves.documented
      rcases hdocumented with ⟨settings, hok⟩ | ⟨fields, hrefused⟩
      · cases herror.symm.trans hok
      · cases herror.symm.trans hrefused
        exact absurd rfl (hother fields)
    · cases herror.symm.trans hfails.outcome
      exact hfails
  · rintro (hmalformed | hsilent)
    · rw [load_of_malformed hmalformed]
    · rw [load_of_silent hsilent]

/-- A single byte that begins no character. -/
theorem load_undocumented_byte :
    (load .lenient "intcalc.toml" (.file ⟨#[255]⟩)).outcome = .error .encoding ∧
      ¬ Documented "intcalc.toml" (load .lenient "intcalc.toml" (.file ⟨#[255]⟩)).outcome := by
  have herror : (load .lenient "intcalc.toml" (.file ⟨#[255]⟩)).outcome = .error .encoding := rfl
  refine ⟨herror, ?_⟩
  rw [herror]
  rintro (⟨settings, hok⟩ | ⟨fields, hrefused⟩)
  · cases hok
  · cases hrefused

end Settings

end Reckoner
