/-
Module: Reckoner.Proofs.Numeral.Literal
Layer: Proofs
Purpose: The texts that denote an integer of any size. Such a text has one or more groups of digits
  with single underscores between them, at most one sign in front of the first group, and padding
  around. Reading finds an integer in no other text, and in these it finds the one that the sign and
  the digits denote, unless there are too many digits.
Main exports: Numeral.Sign, Numeral.Grouped, Numeral.Literal, Numeral.literal?_text,
  Numeral.exists_literal
-/
import Reckoner.Numeral
import Reckoner.Proofs.Text.Run

namespace Reckoner.Numeral

/-!
### Single characters
-/

/-- An ASCII digit lies between the digits zero and nine. -/
theorem toNat_of_isDigit {c : Char} (h : c.isDigit = true) : 48 ≤ c.toNat ∧ c.toNat ≤ 57 := by
  simp only [Char.isDigit, Bool.and_eq_true, decide_eq_true_eq] at h
  exact ⟨UInt32.le_iff_toNat_le.mp h.1, UInt32.le_iff_toNat_le.mp h.2⟩

theorem isAscii_of_isDigit {c : Char} (h : c.isDigit = true) : Text.isAscii c = true := by
  have := toNat_of_isDigit h
  simp only [Text.isAscii, decide_eq_true_eq]
  omega

theorem isDigit_of_digit? {c : Char} {d : Nat} (h : digit? c = some d) : c.isDigit = true := by
  unfold digit? at h
  split at h
  · assumption
  · exact absurd h (by simp)

theorem isPadding_eq_false_of_isDigit {c : Char} (h : c.isDigit = true) : isPadding c = false := by
  have hrange := toNat_of_isDigit h
  have hspace : c ≠ ' ' := by
    rintro rfl
    exact absurd hrange.1 (by decide)
  simp only [isPadding, hspace, decide_false, Bool.false_or, Bool.and_eq_false_iff,
    decide_eq_false_iff_not]
  omega

/-- The characters that may surround the digits and the sign: the space, the tab, the line feed, the
    vertical tab, the form feed and the carriage return. -/
def paddings : List Char :=
  [' ', '\t', '\n', '\x0b', '\x0c', '\r']

theorem isPadding_iff {c : Char} : isPadding c = true ↔ c ∈ paddings := by
  constructor
  · intro h
    simp only [isPadding, Bool.or_eq_true, Bool.and_eq_true, decide_eq_true_eq] at h
    rcases h with rfl | ⟨hlower, hupper⟩
    · decide
    · have hcodes : ∀ code < 14, 9 ≤ code → Char.ofNat code ∈ paddings := by decide
      have hc := hcodes c.toNat (by omega) hlower
      rwa [Char.ofNat_toNat] at hc
  · intro h
    have hall : paddings.all isPadding = true := by decide
    exact List.all_eq_true.mp hall c h

/-!
### Groups of digits

An underscore stands between two digits exactly if cutting the text at its underscores leaves no piece
empty. The groups are these pieces; reading goes through them from the front, and the underscore behind
a group is where it starts afresh.
-/

/-- One or more groups, none of them empty, of ASCII digits. -/
structure Grouped (groups : List (List Char)) : Prop where
  ne_nil : groups ≠ []
  group_ne_nil : ∀ group ∈ groups, group ≠ []
  isDigit : ∀ group ∈ groups, ∀ c ∈ group, c.isDigit = true

theorem grouped_iff {groups : List (List Char)} : Grouped groups ↔
    groups ≠ [] ∧ (groups.all fun group => group ≠ [] && group.all Char.isDigit) = true := by
  simp only [List.all_eq_true, Bool.and_eq_true, decide_eq_true_eq]
  constructor
  · intro h
    exact ⟨h.ne_nil, fun group hmem => ⟨h.group_ne_nil group hmem, h.isDigit group hmem⟩⟩
  · rintro ⟨hne, hgroups⟩
    exact ⟨hne, fun group hmem => (hgroups group hmem).1, fun group hmem => (hgroups group hmem).2⟩

instance (groups : List (List Char)) : Decidable (Grouped groups) :=
  decidable_of_iff _ grouped_iff.symm

/-- The groups with an underscore between each two. -/
def joined (groups : List (List Char)) : List Char :=
  ['_'].intercalate groups

section

variable {c d : Char} {group run : List Char} {groups : List (List Char)}

@[simp] theorem joined_singleton (group : List Char) : joined [group] = group :=
  List.intercalate_singleton

theorem joined_cons (group : List Char) (h : groups ≠ []) :
    joined (group :: groups) = group ++ '_' :: joined groups := by
  rw [joined, List.intercalate_cons_of_ne_nil h, List.append_assoc]
  rfl

@[simp] theorem joined_cons_cons (c : Char) (group : List Char) (groups : List (List Char)) :
    joined ((c :: group) :: groups) = c :: joined (group :: groups) :=
  List.intercalate_cons_cons_left

theorem Grouped.singleton (hne : run ≠ []) (hall : ∀ c ∈ run, c.isDigit = true) :
    Grouped [run] :=
  ⟨by simp, by simpa using hne, by simpa using hall⟩

theorem Grouped.cons (h : Grouped groups) (hne : group ≠ [])
    (hall : ∀ c ∈ group, c.isDigit = true) : Grouped (group :: groups) :=
  ⟨by simp, List.forall_mem_cons.mpr ⟨hne, h.group_ne_nil⟩,
    List.forall_mem_cons.mpr ⟨hall, h.isDigit⟩⟩

theorem Grouped.cons_cons (h : Grouped (group :: groups)) (hc : c.isDigit = true) :
    Grouped ((c :: group) :: groups) := by
  refine ⟨by simp, List.forall_mem_cons.mpr ⟨by simp, ?_⟩, List.forall_mem_cons.mpr ⟨?_, ?_⟩⟩
  · exact (List.forall_mem_cons.mp h.group_ne_nil).2
  · exact List.forall_mem_cons.mpr ⟨hc, (List.forall_mem_cons.mp h.isDigit).1⟩
  · exact (List.forall_mem_cons.mp h.isDigit).2

/-- Joined groups consist of digits and underscores. -/
theorem mem_joined (h : c ∈ joined groups) : c = '_' ∨ ∃ group ∈ groups, c ∈ group := by
  induction groups with
  | nil => exact absurd h (by simp [joined])
  | cons group groups ih =>
      by_cases hgroups : groups = []
      · subst hgroups
        rw [joined_singleton] at h
        exact .inr ⟨group, by simp, h⟩
      · rw [joined_cons group hgroups, List.mem_append, List.mem_cons] at h
        rcases h with hgroup | rfl | hothers
        · exact .inr ⟨group, by simp, hgroup⟩
        · exact .inl rfl
        · rcases ih hothers with rfl | ⟨other, hother, hc⟩
          · exact .inl rfl
          · exact .inr ⟨other, List.mem_cons_of_mem _ hother, hc⟩

theorem Grouped.exists_joined_eq_cons (h : Grouped groups) :
    ∃ c rest, joined groups = c :: rest ∧ c.isDigit = true := by
  obtain ⟨group, others, rfl⟩ := List.exists_cons_of_ne_nil h.ne_nil
  obtain ⟨c, rest, rfl⟩ := List.exists_cons_of_ne_nil (h.group_ne_nil group (by simp))
  exact ⟨c, joined (rest :: others), joined_cons_cons c rest others,
    h.isDigit (c :: rest) (by simp) c (by simp)⟩

/-- The values of the digits of a run. -/
def digitValues (run : List Char) : List Nat :=
  run.map fun c => c.toNat - 48

/-- The digits behind a digit with an underscore are read on their own. -/
theorem digits?_cons_underscore (hc : c.isDigit = true) (run : List Char) :
    digits? (c :: '_' :: run) = (digits? run).map ((c.toNat - 48) :: ·) := by
  rw [digits?, digit?, if_pos hc]
  cases digits? run with
  | none => rfl
  | some digits => rfl

/-- The digits behind a digit without an underscore are read on their own. -/
theorem digits?_cons_digit (hc : c.isDigit = true) (hd : d.isDigit = true) (run : List Char) :
    digits? (c :: d :: run) = (digits? (d :: run)).map ((c.toNat - 48) :: ·) := by
  have hunderscore : d ≠ '_' := by
    rintro rfl
    exact absurd hd (by decide)
  rw [digits?, digit?, if_pos hc]
  · cases digits? (d :: run) with
    | none => rfl
    | some digits => rfl
  · simp
  · intro rest heq
    exact hunderscore (List.cons.inj heq).1

theorem digits?_run (hne : run ≠ []) (hall : ∀ c ∈ run, c.isDigit = true) :
    digits? run = some (digitValues run) := by
  induction run with
  | nil => exact absurd rfl hne
  | cons c run ih =>
      obtain ⟨hc, hrun⟩ := List.forall_mem_cons.mp hall
      cases run with
      | nil => simp [digits?, digit?, digitValues, hc]
      | cons d run =>
          rw [digits?_cons_digit hc (hrun d (by simp)), ih (by simp) hrun]
          rfl

/-- Behind a run of ASCII digits and an underscore, reading starts afresh. -/
theorem digits?_run_underscore (hne : run ≠ []) (hall : ∀ c ∈ run, c.isDigit = true)
    (rest : List Char) :
    digits? (run ++ '_' :: rest) = (digits? rest).map (digitValues run ++ ·) := by
  induction run with
  | nil => exact absurd rfl hne
  | cons c run ih =>
      obtain ⟨hc, hrun⟩ := List.forall_mem_cons.mp hall
      cases run with
      | nil => exact digits?_cons_underscore hc rest
      | cons d run =>
          rw [List.cons_append, List.cons_append, digits?_cons_digit hc (hrun d (by simp)),
            ← List.cons_append, ih (by simp) hrun, Option.map_map]
          rfl

theorem Grouped.digits?_joined (h : Grouped groups) :
    digits? (joined groups) = some (digitValues groups.flatten) := by
  induction groups with
  | nil => exact absurd rfl h.ne_nil
  | cons group groups ih =>
      obtain ⟨hne, hothers⟩ := List.forall_mem_cons.mp h.group_ne_nil
      obtain ⟨hall, hdigits⟩ := List.forall_mem_cons.mp h.isDigit
      by_cases hgroups : groups = []
      · subst hgroups
        rw [joined_singleton, digits?_run hne hall]
        simp
      · rw [joined_cons group hgroups, digits?_run_underscore hne hall,
          ih ⟨hgroups, hothers, hdigits⟩]
        simp [digitValues]

/-- Digits are read from nothing but joined groups. -/
theorem exists_grouped {digits : List Nat} (h : digits? run = some digits) :
    ∃ groups, Grouped groups ∧ run = joined groups := by
  fun_induction digits? run generalizing digits with
  | case1 => exact absurd h (by simp)
  | case2 c =>
      obtain ⟨d, hd, -⟩ := Option.map_eq_some_iff.mp h
      have hc := isDigit_of_digit? hd
      exact ⟨[[c]], .singleton (by simp) (by simpa using hc), by simp⟩
  | case3 c rest d ds hds hd ih =>
      have hc := isDigit_of_digit? hd
      obtain ⟨groups, hgrouped, rfl⟩ := ih hds
      exact ⟨[c] :: groups, hgrouped.cons (by simp) (by simpa using hc),
        by rw [joined_cons _ hgrouped.ne_nil]; rfl⟩
  | case4 => exact absurd h (by simp)
  | case5 c rest hrest _ d ds hds hd ih =>
      have hc := isDigit_of_digit? hd
      obtain ⟨groups, hgrouped, rfl⟩ := ih hds
      obtain ⟨group, others, rfl⟩ := List.exists_cons_of_ne_nil hgrouped.ne_nil
      exact ⟨(c :: group) :: others, hgrouped.cons_cons hc, (joined_cons_cons c group others).symm⟩
  | case6 => exact absurd h (by simp)

end

/-!
### Signs
-/

/-- What may stand in front of the digits. -/
inductive Sign where
  | none
  | plus
  | minus
deriving DecidableEq, Repr

namespace Sign

def text : Sign → List Char
  | none => []
  | plus => ['+']
  | minus => ['-']

/-- The integer that a number denotes behind a sign. -/
def apply : Sign → Nat → Int
  | minus, n => -n
  | _, n => n

end Sign

/-- The characters between the padding of a text that are no digits: the signs and the underscore. -/
def marks : List Char :=
  ['+', '-', '_']

theorem Sign.mem_marks {sign : Sign} {c : Char} (h : c ∈ sign.text) : c ∈ marks := by
  have hall : sign.text.all (· ∈ marks) = true := by
    cases sign <;> decide
  exact of_decide_eq_true (List.all_eq_true.mp hall c h)

section

variable {groups : List (List Char)} {run text : List Char} {value : Int}

theorem signed?_minus (run : List Char) :
    signed? ('-' :: run) = (magnitude? run).map Sign.minus.apply := by
  rw [signed?]
  cases magnitude? run with
  | none => rfl
  | some n => rfl

/-- A text is read as a run behind at most one sign. -/
theorem exists_sign_append (text : List Char) :
    ∃ (sign : Sign) (run : _), text = sign.text ++ run ∧
      signed? text = (magnitude? run).map sign.apply := by
  unfold signed?
  split
  · next run => exact ⟨.minus, run, rfl, signed?_minus run⟩
  · next run => exact ⟨.plus, run, rfl, rfl⟩
  · exact ⟨.none, text, rfl, rfl⟩

/-- The sign in front of joined groups applies to the number that they denote. -/
theorem Grouped.signed?_text (h : Grouped groups) (sign : Sign) :
    signed? (sign.text ++ joined groups) = (magnitude? (joined groups)).map sign.apply := by
  cases sign with
  | plus => rfl
  | minus => exact signed?_minus (joined groups)
  | none =>
      -- The first character is a digit and hence no sign.
      obtain ⟨c, rest, hcons, hc⟩ := h.exists_joined_eq_cons
      rw [Sign.text, List.nil_append, hcons]
      unfold signed?
      split
      · next heq =>
          rw [(List.cons.inj heq).1] at hc
          exact absurd hc (by decide)
      · next heq =>
          rw [(List.cons.inj heq).1] at hc
          exact absurd hc (by decide)
      · rfl

/-- The number that joined groups denote, unless they have too many digits. -/
theorem Grouped.magnitude?_joined (h : Grouped groups) :
    magnitude? (joined groups) = if groups.flatten.length ≤ digitLimit then
      some (valueOf (digitValues groups.flatten)) else none := by
  rw [magnitude?, h.digits?_joined]
  simp only [digitValues, List.length_map]

/-- A number is read from nothing but joined groups. -/
theorem exists_grouped_of_magnitude? {n : Nat} (h : magnitude? run = some n) :
    ∃ groups, Grouped groups ∧ run = joined groups := by
  unfold magnitude? at h
  split at h
  · next digits hdigits => exact exists_grouped hdigits
  · exact absurd h (by simp)

/-- An integer is read from nothing but joined groups behind at most one sign. -/
theorem exists_grouped_of_signed? (h : signed? text = some value) :
    ∃ (sign : Sign) (groups : _), Grouped groups ∧ text = sign.text ++ joined groups := by
  obtain ⟨sign, run, rfl, hsigned⟩ := exists_sign_append text
  rw [hsigned] at h
  obtain ⟨n, hn, -⟩ := Option.map_eq_some_iff.mp h
  obtain ⟨groups, hgrouped, rfl⟩ := exists_grouped_of_magnitude? hn
  exact ⟨sign, groups, hgrouped, rfl⟩

theorem Grouped.mem_text (h : Grouped groups) {sign : Sign} {c : Char}
    (hc : c ∈ sign.text ++ joined groups) : c ∈ marks ∨ c.isDigit = true := by
  rcases List.mem_append.mp hc with hsign | hjoined
  · exact .inl (Sign.mem_marks hsign)
  · rcases mem_joined hjoined with rfl | ⟨group, hgroup, hmem⟩
    · exact .inl (by decide)
    · exact .inr (h.isDigit group hgroup c hmem)

/-- Neither joined groups nor the sign in front of them hold padding. -/
theorem Grouped.isPadding_text (h : Grouped groups) {sign : Sign} :
    ∀ c ∈ sign.text ++ joined groups, isPadding c = false := by
  intro c hc
  rcases h.mem_text hc with hmark | hdigit
  · have hall : marks.all (fun c => isPadding c = false) = true := by decide
    exact of_decide_eq_true (List.all_eq_true.mp hall c hmark)
  · exact isPadding_eq_false_of_isDigit hdigit

/-- What is left of a text without its padding is joined groups behind a sign exactly if the text is
    these groups with the sign and some padding around. -/
theorem Grouped.trim_eq_iff (h : Grouped groups) (sign : Sign) :
    Text.trim isPadding text = sign.text ++ joined groups ↔
      ∃ before behind, (∀ c ∈ before, isPadding c = true) ∧ (∀ c ∈ behind, isPadding c = true) ∧
        text = before ++ (sign.text ++ joined groups) ++ behind := by
  obtain ⟨c, rest, hcons, -⟩ := h.exists_joined_eq_cons
  refine Text.trim_eq_iff (by simp [hcons]) ?_ ?_
  · intro c hc
    exact h.isPadding_text c (List.mem_of_mem_head? hc)
  · intro c hc
    exact h.isPadding_text c (List.mem_reverse.mp (List.mem_of_mem_head? hc))

end

/-!
### Literals
-/

/-- An integer as it may be written: joined groups of digits, a sign in front of them, and padding
    around. -/
structure Literal where
  before : List Char
  sign : Sign
  groups : List (List Char)
  behind : List Char
  before_padding : ∀ c ∈ before, c ∈ paddings
  grouped : Grouped groups
  behind_padding : ∀ c ∈ behind, c ∈ paddings

namespace Literal

def text (literal : Literal) : List Char :=
  literal.before ++ (literal.sign.text ++ joined literal.groups) ++ literal.behind

/-- The digits of a literal, without the underscores. -/
def digits (literal : Literal) : List Char :=
  literal.groups.flatten

/-- A run of digits behind a sign, without padding and underscores. -/
def plain (sign : Sign) (run : List Char) (hne : run ≠ [])
    (hall : ∀ c ∈ run, c.isDigit = true) : Literal where
  before := []
  sign := sign
  groups := [run]
  behind := []
  before_padding := by simp
  grouped := .singleton hne hall
  behind_padding := by simp

section

variable (sign : Sign) {run : List Char} (hne : run ≠ []) (hall : ∀ c ∈ run, c.isDigit = true)

@[simp] theorem sign_plain : (plain sign run hne hall).sign = sign := rfl

@[simp] theorem text_plain : (plain sign run hne hall).text = sign.text ++ run := by
  simp [plain, text]

@[simp] theorem digits_plain : (plain sign run hne hall).digits = run := by
  simp [plain, digits]

end

theorem isAscii_text (literal : Literal) : ∀ c ∈ literal.text, Text.isAscii c = true := by
  have hpaddings := List.all_eq_true.mp (show paddings.all Text.isAscii = true by decide)
  have hmarks := List.all_eq_true.mp (show marks.all Text.isAscii = true by decide)
  intro c hc
  rcases List.mem_append.mp hc with hfront | hbehind
  · rcases List.mem_append.mp hfront with hbefore | hcore
    · exact hpaddings c (literal.before_padding c hbefore)
    · rcases literal.grouped.mem_text hcore with hmark | hdigit
      · exact hmarks c hmark
      · exact isAscii_of_isDigit hdigit
  · exact hpaddings c (literal.behind_padding c hbehind)

/-- The integer that is read from a literal: the number that its digits denote, behind its sign. A
    literal with too many digits is refused. -/
theorem literal?_text (literal : Literal) :
    literal? literal.text = if literal.digits.length ≤ digitLimit then
      some (literal.sign.apply (valueOf (digitValues literal.digits))) else none := by
  have hascii : literal.text.all Text.isAscii = true := List.all_eq_true.mpr literal.isAscii_text
  have htrim : Text.trim isPadding literal.text = literal.sign.text ++ joined literal.groups :=
    (literal.grouped.trim_eq_iff literal.sign).mpr ⟨literal.before, literal.behind,
      fun c hc => isPadding_iff.mpr (literal.before_padding c hc),
      fun c hc => isPadding_iff.mpr (literal.behind_padding c hc), rfl⟩
  rw [literal?, if_pos hascii, htrim, literal.grouped.signed?_text,
    literal.grouped.magnitude?_joined, digits]
  split
  · rfl
  · rfl

end Literal

/-- An integer is read from nothing but literals. -/
theorem exists_literal {text : List Char} {value : Int} (h : literal? text = some value) :
    ∃ literal : Literal, literal.text = text := by
  unfold literal? at h
  split at h
  · obtain ⟨sign, groups, hgrouped, htrim⟩ := exists_grouped_of_signed? h
    obtain ⟨before, behind, hbefore, hbehind, rfl⟩ := (hgrouped.trim_eq_iff sign).mp htrim
    exact ⟨⟨before, sign, groups, behind, fun c hc => isPadding_iff.mp (hbefore c hc), hgrouped,
      fun c hc => isPadding_iff.mp (hbehind c hc)⟩, rfl⟩
  · exact absurd h (by simp)

end Reckoner.Numeral
