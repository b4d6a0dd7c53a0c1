/-
Module: Reckoner.Proofs.Text.Run
Layer: Proofs
Purpose: Maximal runs of a class of characters. A run is maximal if the characters next to it, as
  far as there are any, are outside the class. The laws say how the maximal runs of a text follow
  from those of its end when a run, or some characters outside the class, are put in front. The
  classes of digits, blanks and symbols exclude one another, so that a text falls into such pieces
  in one way.
Main exports: Text.Breaks, Text.trim_eq_iff, Text.IsMaximalRun, Text.isMaximalRun_append_of_pos,
  Text.isMaximalRun_append_of_neg, Text.isBlank_eq_false_of_isDecimal
-/
import Reckoner.Text.Class
import Reckoner.Token

namespace Reckoner.Text

/-- A text that does not go on with a character of class `p`: it is at its end, or its first
    character is outside. -/
def Breaks (p : Char → Bool) (text : List Char) : Prop :=
  ∀ c ∈ text.head?, p c = false

/-- Whether a text breaks a run is decided by its first character alone. -/
instance (p : Char → Bool) (text : List Char) : Decidable (Breaks p text) :=
  decidable_of_iff (text.head?.all fun c => !p c) (by simp [Breaks, Option.all_eq_true])

/-- A nonempty part of a text all of whose characters are of class `p`, with no further character of
    the class on either side. -/
structure IsMaximalRun (p : Char → Bool) (text run : List Char) : Prop where
  ne_nil : run ≠ []
  all : ∀ c ∈ run, p c = true
  maximal : ∃ before behind, text = before ++ run ++ behind ∧
    (∀ c ∈ before.getLast?, p c = false) ∧ Breaks p behind

section

variable {p : Char → Bool} {text run rest : List Char}

@[simp] theorem breaks_nil (p : Char → Bool) : Breaks p [] := by
  simp [Breaks]

@[simp] theorem breaks_cons (p : Char → Bool) (c : Char) (text : List Char) :
    Breaks p (c :: text) ↔ p c = false := by
  simp [Breaks]

/-- Characters outside the class in front of a text that does not go on with the class. -/
theorem breaks_append {front : List Char} (hout : ∀ c ∈ front, p c = false)
    (hbreaks : Breaks p rest) : Breaks p (front ++ rest) := by
  cases front with
  | nil => exact hbreaks
  | cons c front => simpa using hout c (by simp)

theorem breaks_dropWhile (p : Char → Bool) (text : List Char) : Breaks p (text.dropWhile p) := by
  intro c hc
  have hnot := List.head?_dropWhile_not p text
  rw [Option.mem_def] at hc
  rw [hc] at hnot
  simpa using hnot

/-- The longest run of a text that starts with a run and then breaks is that run. -/
theorem takeWhile_append_of_breaks (hall : ∀ c ∈ run, p c = true) (hbreaks : Breaks p rest) :
    (run ++ rest).takeWhile p = run := by
  rw [List.takeWhile_append_of_pos hall]
  cases rest with
  | nil => simp
  | cons c rest =>
      have hc : p c = false := (breaks_cons p c rest).mp hbreaks
      simp [hc]

/-- Behind the longest run of a text that starts with a run and then breaks is the rest. -/
theorem dropWhile_append_of_breaks (hall : ∀ c ∈ run, p c = true) (hbreaks : Breaks p rest) :
    (run ++ rest).dropWhile p = rest := by
  rw [List.dropWhile_append_of_pos hall]
  cases rest with
  | nil => rfl
  | cons c rest =>
      have hc : p c = false := (breaks_cons p c rest).mp hbreaks
      simp [hc]

/-- A text falls into a run, which may be empty, and a rest that breaks it. -/
theorem exists_run_append (p : Char → Bool) (text : List Char) :
    ∃ run rest, text = run ++ rest ∧ (∀ c ∈ run, p c = true) ∧ Breaks p rest :=
  ⟨text.takeWhile p, text.dropWhile p, List.takeWhile_append_dropWhile.symm,
    List.all_eq_true.mp List.all_takeWhile, breaks_dropWhile p text⟩

/-- Trimming leaves what stands between characters of the class, provided that it neither starts nor
    ends with one. -/
theorem trim_eq_iff {core : List Char} (hne : core ≠ []) (hfirst : Breaks p core)
    (hlast : Breaks p core.reverse) :
    trim p text = core ↔
      ∃ front back, (∀ c ∈ front, p c = true) ∧ (∀ c ∈ back, p c = true) ∧
        text = front ++ core ++ back := by
  constructor
  · intro h
    obtain ⟨front, rest, rfl, hfront, hrest⟩ := exists_run_append p text
    obtain ⟨back, middle, hmiddle, hback, hbreaks⟩ := exists_run_append p rest.reverse
    have hcore : core = middle.reverse := by
      rw [← h, trim, dropWhile_append_of_breaks hfront hrest, hmiddle,
        dropWhile_append_of_breaks hback hbreaks]
    refine ⟨front, back.reverse, hfront, fun c hc => hback c (List.mem_reverse.mp hc), ?_⟩
    rw [hcore, List.append_assoc, ← List.reverse_append, ← hmiddle, List.reverse_reverse]
  · rintro ⟨front, back, hfront, hback, rfl⟩
    have hbreaks : Breaks p (core ++ back) := by
      cases core with
      | nil => exact absurd rfl hne
      | cons c core => simpa using hfirst
    rw [trim, List.append_assoc, dropWhile_append_of_breaks hfront hbreaks, List.reverse_append,
      dropWhile_append_of_breaks (fun c hc => hback c (List.mem_reverse.mp hc)) hlast,
      List.reverse_reverse]

theorem not_isMaximalRun_nil (p : Char → Bool) (run : List Char) : ¬ IsMaximalRun p [] run := by
  intro h
  obtain ⟨before, behind, heq, -, -⟩ := h.maximal
  rw [eq_comm, List.append_eq_nil_iff, List.append_eq_nil_iff] at heq
  exact h.ne_nil heq.1.2

/-- Characters outside the class in front of a text do not change its maximal runs. -/
theorem isMaximalRun_append_of_neg {outside : List Char} (hout : ∀ c ∈ outside, p c = false) :
    IsMaximalRun p (outside ++ rest) run ↔ IsMaximalRun p rest run := by
  constructor
  · intro h
    obtain ⟨before, behind, heq, hbefore, hbehind⟩ := h.maximal
    rw [List.append_assoc] at heq
    rcases List.append_eq_append_iff.mp heq with ⟨front, rfl, hrest⟩ | ⟨front, rfl, hrest⟩
    · -- The run starts in the rest, with some of it in front.
      refine ⟨h.ne_nil, h.all, front, behind, by rw [hrest, List.append_assoc], ?_, hbehind⟩
      intro c hc
      apply hbefore c
      rw [Option.mem_def] at hc ⊢
      rw [List.getLast?_append, hc]
      rfl
    · -- The run would start outside the class, unless it starts with the rest.
      cases front with
      | nil => exact ⟨h.ne_nil, h.all, [], behind, by simpa using hrest.symm, by simp, hbehind⟩
      | cons c front =>
          cases run with
          | nil => exact absurd rfl h.ne_nil
          | cons d run =>
              simp only [List.cons_append, List.cons.injEq] at hrest
              have hin : p d = true := h.all d (by simp)
              have hnot : p c = false := hout c (by simp)
              rw [hrest.1, hnot] at hin
              exact absurd hin (by simp)
  · intro h
    obtain ⟨before, behind, heq, hbefore, hbehind⟩ := h.maximal
    refine ⟨h.ne_nil, h.all, outside ++ before, behind, by simp [heq], ?_, hbehind⟩
    intro c hc
    rw [Option.mem_def, List.getLast?_append] at hc
    cases hlast : before.getLast? with
    | some d =>
        rw [hlast] at hc
        exact hbefore c (by simpa [hlast] using hc)
    | none =>
        rw [hlast] at hc
        exact hout c (List.mem_of_getLast? (by simpa using hc))

/-- A run in front of a text that does not go on with the class is one more maximal run. -/
theorem isMaximalRun_append_of_pos {front : List Char} (hne : front ≠ [])
    (hall : ∀ c ∈ front, p c = true) (hbreaks : Breaks p rest) :
    IsMaximalRun p (front ++ rest) run ↔ run = front ∨ IsMaximalRun p rest run := by
  constructor
  · intro h
    obtain ⟨before, behind, heq, hbefore, hbehind⟩ := h.maximal
    rw [List.append_assoc] at heq
    cases before with
    | nil =>
        -- Both runs are the longest one at the start of the text.
        left
        have hfront := takeWhile_append_of_breaks hall hbreaks
        rw [heq, List.nil_append, takeWhile_append_of_breaks h.all hbehind] at hfront
        exact hfront
    | cons b before =>
        right
        rcases List.append_eq_append_iff.mp heq with ⟨others, hothers, hrest⟩ | ⟨others, rfl, -⟩
        · refine ⟨h.ne_nil, h.all, others, behind, by rw [hrest, List.append_assoc], ?_, hbehind⟩
          intro c hc
          apply hbefore c
          rw [Option.mem_def] at hc ⊢
          rw [hothers, List.getLast?_append, hc]
          rfl
        · -- The run would start right behind a character of the class.
          obtain ⟨d, hd⟩ : ∃ d, (b :: before).getLast? = some d := by simp [List.getLast?_cons]
          have hin : p d = true := hall d (List.mem_append_left _ (List.mem_of_getLast? hd))
          rw [hbefore d hd] at hin
          exact absurd hin (by simp)
  · rintro (rfl | h)
    · exact ⟨hne, hall, [], rest, rfl, by simp, hbreaks⟩
    · obtain ⟨before, behind, heq, hbefore, hbehind⟩ := h.maximal
      refine ⟨h.ne_nil, h.all, front ++ before, behind, by simp [heq], ?_, hbehind⟩
      cases before with
      | cons b before =>
          intro c hc
          apply hbefore c
          simpa [List.getLast?_append, List.getLast?_cons] using hc
      | nil =>
          -- A run at the start of the rest would go on where the rest breaks.
          obtain ⟨c, others, rfl⟩ := List.exists_cons_of_ne_nil h.ne_nil
          have hin : p c = true := h.all c (by simp)
          rw [heq] at hbreaks
          have hnot : p c = false := by simpa using hbreaks
          rw [hnot] at hin
          exact absurd hin (by simp)

end

/-!
### The classes exclude one another
-/

theorem isBlank_eq_false_of_isDecimal {c : Char} (h : isDecimal c = true) : isBlank c = false := by
  have hapart : ∀ base ∈ decimalZeros, ∀ run ∈ blankRuns, run.2 < base ∨ base + 9 < run.1 := by
    decide
  obtain ⟨base, hbase, hc⟩ := List.any_eq_true.mp h
  simp only [Bool.and_eq_true, decide_eq_true_eq] at hc
  rw [isBlank, List.any_eq_false]
  intro run hrun
  simp only [Bool.and_eq_true, decide_eq_true_eq]
  rcases hapart base hbase run hrun with hbelow | habove
  · omega
  · omega

theorem isDecimal_eq_false_of_isBlank {c : Char} (h : isBlank c = true) : isDecimal c = false := by
  cases hdecimal : isDecimal c with
  | false => rfl
  | true =>
      rw [isBlank_eq_false_of_isDecimal hdecimal] at h
      exact absurd h (by simp)

/-- The characters that are tokens of their own. -/
def symbols : List Char :=
  ['+', '-', '*', '/', '(', ')']

/-- The symbols are the characters that have a kind other than that of a bad character. -/
theorem ofChar_ne_bad_iff (c : Char) : Kind.ofChar c ≠ .bad ↔ c ∈ symbols := by
  constructor
  · intro h
    unfold Kind.ofChar at h
    split at h
    all_goals first | decide | exact absurd rfl h
  · intro h
    have hkinds : symbols.all (fun c => Kind.ofChar c ≠ .bad) = true := by decide
    exact of_decide_eq_true (List.all_eq_true.mp hkinds c h)

theorem isDecimal_eq_false_of_mem_symbols {c : Char} (h : c ∈ symbols) : isDecimal c = false := by
  have hsymbols : symbols.all (fun c => isDecimal c = false) = true := by decide
  exact of_decide_eq_true (List.all_eq_true.mp hsymbols c h)

theorem isBlank_eq_false_of_mem_symbols {c : Char} (h : c ∈ symbols) : isBlank c = false := by
  have hsymbols : symbols.all (fun c => isBlank c = false) = true := by decide
  exact of_decide_eq_true (List.all_eq_true.mp hsymbols c h)

end Reckoner.Text
