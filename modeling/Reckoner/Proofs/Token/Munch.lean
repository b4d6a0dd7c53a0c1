/-
Module: Reckoner.Proofs.Token.Munch
Layer: Proofs
Purpose: What makes a list of tokens the scan of a text, said of the finished list. The tokens in
  front of the end token make up the text, each stands at its offset and is of one class, and no two
  runs of one class meet. Nothing is said of how far a single token reaches; that it reaches as far
  as it can follows, because what could continue it would have to be a token of the same class next
  to it. So a list with these properties is a partition of the text, and a text has only one.
Main exports: Token.Lexical, Munched, munched_cons_iff, Munched.partition,
  Partition.exists_munched, Partition.mem_of_outside, Token.scan_unique
-/
import Mathlib.Data.List.Chain
import Reckoner.Proofs.Token.Partition

namespace Reckoner

open Text

/-!
### Tokens of one class
-/

namespace Token

/-- The characters that are tokens of their own, each with its kind. -/
def signs : List (Char × Kind) :=
  [('+', .plus), ('-', .minus), ('*', .star), ('/', .slash), ('(', .opening), (')', .closing)]

/-- The tokens that can be cut out of a text, the end token left out: a run of digits, with the value
    to which it decodes if it does, a run of blanks, a sign, and any other single character as a bad
    token. -/
inductive Lexical (token : Token) : Prop where
  | number (hkind : token.kind = .number) (hne : token.text ≠ "")
      (hall : ∀ c ∈ token.text.toList, isDecimal c = true)
      (hvalue : token.value = Numeral.decode token.text.toList)
  | blank (hkind : token.kind = .blank) (hne : token.text ≠ "")
      (hall : ∀ c ∈ token.text.toList, isBlank c = true) (hvalue : token.value = none)
  | sign {c : Char} (hsign : (c, token.kind) ∈ signs) (htext : token.text = String.ofList [c])
      (hvalue : token.value = none)
  | bad {c : Char} (hkind : token.kind = .bad) (htext : token.text = String.ofList [c])
      (hdecimal : isDecimal c = false) (hblank : isBlank c = false) (hsign : c ∉ signs.map Prod.fst)
      (hvalue : token.value = none)

/-- Two tokens that are runs of one class, both numbers or both blanks. -/
def Alike (one other : Token) : Prop :=
  (one.kind = .number ∧ other.kind = .number) ∨ (one.kind = .blank ∧ other.kind = .blank)

/-- The signs are the characters that have a kind of their own. -/
theorem mem_signs_iff (c : Char) (kind : Kind) :
    (c, kind) ∈ signs ↔ Kind.ofChar c = kind ∧ kind ≠ .bad := by
  constructor
  · intro h
    have hkinds : signs.all (fun sign => Kind.ofChar sign.1 = sign.2 && sign.2 != .bad) = true := by
      decide
    simpa using List.all_eq_true.mp hkinds (c, kind) h
  · rintro ⟨rfl, hkind⟩
    have hsymbols : symbols.all (fun c => signs.contains (c, Kind.ofChar c)) = true := by decide
    exact List.contains_iff_mem.mp
      (List.all_eq_true.mp hsymbols c ((ofChar_ne_bad_iff c).mp hkind))

theorem map_fst_signs : signs.map Prod.fst = symbols := rfl

/-- A character that is neither a digit nor a blank is a token of its own. -/
theorem lexical_symbol {c : Char} (hdecimal : isDecimal c = false) (hblank : isBlank c = false)
    (position : Int) : (plain (Kind.ofChar c) position (String.ofList [c])).Lexical := by
  by_cases hbad : Kind.ofChar c = .bad
  · refine .bad hbad rfl hdecimal hblank ?_ rfl
    rw [map_fst_signs]
    intro hsymbol
    exact (ofChar_ne_bad_iff c).mpr hsymbol hbad
  · exact .sign ((mem_signs_iff c _).mpr ⟨rfl, hbad⟩) rfl rfl

/-- A lexical token is a number, a blank, or the token of a character that is neither a digit nor a
    blank. -/
theorem Lexical.eq_cases {token : Token} (h : token.Lexical) {start : Nat}
    (hposition : token.position = start) :
    (∃ run, run ≠ [] ∧ (∀ c ∈ run, isDecimal c = true) ∧ token = Scanner.numberToken start run) ∨
      (∃ run, run ≠ [] ∧ (∀ c ∈ run, isBlank c = true) ∧
        token = plain .blank start (String.ofList run)) ∨
      ∃ c, isDecimal c = false ∧ isBlank c = false ∧
        token = plain (Kind.ofChar c) start (String.ofList [c]) := by
  cases h with
  | number hkind hne hall hvalue =>
      refine .inl ⟨token.text.toList, by simpa using hne, hall, ?_⟩
      exact Token.ext hkind hposition (String.ofList_toList).symm hvalue
  | blank hkind hne hall hvalue =>
      refine .inr (.inl ⟨token.text.toList, by simpa using hne, hall, ?_⟩)
      exact Token.ext hkind hposition (String.ofList_toList).symm hvalue
  | @sign c hsign htext hvalue =>
      obtain ⟨hkind, hbad⟩ := (mem_signs_iff c token.kind).mp hsign
      have hsymbol : c ∈ symbols := (ofChar_ne_bad_iff c).mp (hkind ▸ hbad)
      refine .inr (.inr ⟨c, isDecimal_eq_false_of_mem_symbols hsymbol,
        isBlank_eq_false_of_mem_symbols hsymbol, ?_⟩)
      exact Token.ext hkind.symm hposition htext hvalue
  | @bad c hkind htext hdecimal hblank hsign hvalue =>
      have hbad : Kind.ofChar c = .bad := by
        rw [map_fst_signs, ← ofChar_ne_bad_iff, Decidable.not_not] at hsign
        exact hsign
      exact .inr (.inr ⟨c, hdecimal, hblank,
        Token.ext (hkind.trans hbad.symm) hposition htext hvalue⟩)

end Token

/-!
### Texts made up of tokens
-/

/-- The total length of the texts of some tokens. -/
def Token.extent : List Token → Nat
  | [] => 0
  | token :: tokens => token.text.length + extent tokens

/-- The tokens make up a text that starts at an offset: each is lexical, their texts one after the
    other are the text, each stands behind the texts of all tokens before it, and no two runs of one
    class meet. -/
structure Munched (start : Nat) (text : List Char) (tokens : List Token) : Prop where
  lexical : ∀ token ∈ tokens, token.Lexical
  texts : tokens.flatMap (fun token => token.text.toList) = text
  position : ∀ (i : Nat) (token : Token), tokens[i]? = some token →
    token.position = start + Token.extent (tokens.take i)
  apart : tokens.IsChain fun one other => ¬ one.Alike other

@[simp] theorem Token.extent_nil : extent [] = 0 := rfl

@[simp] theorem Token.extent_cons (token : Token) (tokens : List Token) :
    extent (token :: tokens) = token.text.length + extent tokens := rfl

theorem munched_nil_iff (start : Nat) (text : List Char) : Munched start text [] ↔ text = [] := by
  constructor
  · intro h
    exact h.texts.symm
  · rintro rfl
    exact ⟨by simp, rfl, by simp, .nil⟩

/-- A first token in front of tokens that make up the text behind it. -/
theorem munched_cons_iff (start : Nat) (text : List Char) (token : Token) (tokens : List Token) :
    Munched start text (token :: tokens) ↔
      token.Lexical ∧ token.position = start ∧ (∀ next ∈ tokens.head?, ¬ token.Alike next) ∧
        ∃ rest, text = token.text.toList ++ rest ∧
          Munched (start + token.text.length) rest tokens := by
  constructor
  · intro h
    have hchain := List.isChain_cons.mp h.apart
    refine ⟨h.lexical token List.mem_cons_self, ?_, hchain.1, _, h.texts.symm, ?_, rfl, ?_, hchain.2⟩
    · simpa using h.position 0 token rfl
    · intro other hmem
      exact h.lexical other (List.mem_cons_of_mem token hmem)
    · intro i other hother
      have hposition := h.position (i + 1) other hother
      rw [List.take_succ_cons, Token.extent_cons] at hposition
      omega
  · rintro ⟨hlexical, hposition, hnext, rest, rfl, h⟩
    refine ⟨?_, ?_, ?_, List.isChain_cons.mpr ⟨hnext, h.apart⟩⟩
    · intro other hmem
      rcases List.mem_cons.mp hmem with rfl | hmem
      · exact hlexical
      · exact h.lexical other hmem
    · rw [List.flatMap_cons, h.texts]
    · intro i other hother
      cases i with
      | zero =>
          obtain rfl : token = other := by simpa using hother
          simpa using hposition
      | succ i =>
          have hposition := h.position i other hother
          rw [List.take_succ_cons, Token.extent_cons]
          omega

namespace Munched

variable {start : Nat} {text : List Char} {tokens : List Token}

/-- Tokens that make up a text begin with it: the first token is a number exactly if the first
    character is a digit, and a blank exactly if it is a blank. -/
theorem first_cases (h : Munched start text tokens) :
    (tokens = [] ∧ text = []) ∨
      ∃ first others c rest, tokens = first :: others ∧ text = c :: rest ∧
        (first.kind = .number ↔ isDecimal c = true) ∧ (first.kind = .blank ↔ isBlank c = true) := by
  cases tokens with
  | nil => exact .inl ⟨rfl, (munched_nil_iff start text).mp h⟩
  | cons first others =>
      obtain ⟨hlexical, hposition, -, rest, rfl, -⟩ := (munched_cons_iff _ _ _ _).mp h
      refine .inr ⟨first, others, ?_⟩
      rcases hlexical.eq_cases hposition with
        ⟨run, hne, hall, rfl⟩ | ⟨run, hne, hall, rfl⟩ | ⟨c, hdecimal, hblank, rfl⟩
      · obtain ⟨c, run, rfl⟩ := List.exists_cons_of_ne_nil hne
        have hc : isDecimal c = true := hall c List.mem_cons_self
        refine ⟨c, run ++ rest, rfl, by simp, by simp [hc], ?_⟩
        simp [isBlank_eq_false_of_isDecimal hc]
      · obtain ⟨c, run, rfl⟩ := List.exists_cons_of_ne_nil hne
        have hc : isBlank c = true := hall c List.mem_cons_self
        refine ⟨c, run ++ rest, rfl, by simp, ?_, by simp [hc]⟩
        simp [isDecimal_eq_false_of_isBlank hc]
      · refine ⟨c, rest, rfl, by simp, ?_, ?_⟩
        · simp [hdecimal, ofChar_ne_number]
        · simp [hblank, ofChar_ne_blank]

/-- A run of digits ends in front of the text exactly if no number comes first. -/
theorem breaks_decimal_iff (h : Munched start text tokens) :
    Breaks isDecimal text ↔ ∀ next ∈ tokens.head?, next.kind ≠ .number := by
  rcases h.first_cases with ⟨rfl, rfl⟩ | ⟨first, others, c, rest, rfl, rfl, hnumber, -⟩
  · simp
  · simp [hnumber]

/-- A run of blanks ends in front of the text exactly if no blank comes first. -/
theorem breaks_blank_iff (h : Munched start text tokens) :
    Breaks isBlank text ↔ ∀ next ∈ tokens.head?, next.kind ≠ .blank := by
  rcases h.first_cases with ⟨rfl, rfl⟩ | ⟨first, others, c, rest, rfl, rfl, -, hblank⟩
  · simp
  · simp [hblank]

/-- Tokens that make up a text, with the end token behind them, are a partition of the text. -/
theorem partition (h : Munched start text tokens) :
    Partition start text (tokens ++ [Token.finish (start + text.length : Nat)]) := by
  induction tokens generalizing start text with
  | nil =>
      obtain rfl := (munched_nil_iff start text).mp h
      exact .finish start
  | cons token tokens ih =>
      obtain ⟨hlexical, hposition, hnext, rest, rfl, htail⟩ := (munched_cons_iff _ _ _ _).mp h
      have hrest := ih htail
      have hend : start + (token.text.toList ++ rest).length =
          start + token.text.length + rest.length := by
        rw [List.length_append, String.length_toList, Nat.add_assoc]
      rw [hend, List.cons_append]
      rcases hlexical.eq_cases hposition with
        ⟨run, hne, hall, rfl⟩ | ⟨run, hne, hall, rfl⟩ | ⟨c, hdecimal, hblank, rfl⟩
      · -- What could continue the number would begin with a number.
        have hbreaks : Breaks isDecimal rest := by
          rw [htail.breaks_decimal_iff]
          intro next hmem hkind
          exact hnext next hmem (.inl ⟨rfl, hkind⟩)
        simp only [Scanner.text_numberToken, String.toList_ofList, String.length_ofList] at hrest ⊢
        exact .number hne hall hbreaks hrest
      · have hbreaks : Breaks isBlank rest := by
          rw [htail.breaks_blank_iff]
          intro next hmem hkind
          exact hnext next hmem (.inr ⟨rfl, hkind⟩)
        simp only [Token.text_plain, String.toList_ofList, String.length_ofList] at hrest ⊢
        exact .blank hne hall hbreaks hrest
      · simp only [Token.text_plain, String.toList_ofList, String.length_ofList] at hrest ⊢
        exact .symbol hdecimal hblank hrest

end Munched

/-- A character that does not occur in the front of a text stands behind it. -/
theorem Text.exists_getElem?_of_not_mem {run rest : List Char} {i : Nat} {c : Char} (hrun : c ∉ run)
    (hc : (run ++ rest)[i]? = some c) : ∃ j, i = run.length + j ∧ rest[j]? = some c := by
  rcases Nat.lt_or_ge i run.length with hlt | hle
  · rw [List.getElem?_append_left hlt] at hc
    exact absurd (List.mem_of_getElem? hc) hrun
  · rw [List.getElem?_append_right hle] at hc
    exact ⟨i - run.length, (Nat.add_sub_cancel' hle).symm, hc⟩

namespace Partition

variable {start : Nat} {text : List Char} {tokens : List Token}

/-- The tokens of a partition in front of its end token make up the text. -/
theorem exists_munched (h : Partition start text tokens) :
    ∃ front, tokens = front ++ [Token.finish (start + text.length : Nat)] ∧
      Munched start text front := by
  induction h with
  | finish start => exact ⟨[], rfl, (munched_nil_iff start []).mpr rfl⟩
  | @number start run rest tokens hne hall hbreaks _ ih =>
      obtain ⟨front, rfl, hfront⟩ := ih
      refine ⟨Scanner.numberToken start run :: front, ?_, ?_⟩
      · rw [List.length_append, Nat.add_assoc, List.cons_append]
      · have hlexical : (Scanner.numberToken start run).Lexical :=
          .number rfl (by simpa using hne) (by simpa using hall) (by simp)
        have hnext : ∀ next ∈ front.head?, ¬ (Scanner.numberToken start run).Alike next := by
          intro next hmem halike
          have hnumber := hfront.breaks_decimal_iff.mp hbreaks next hmem
          simp [Token.Alike, hnumber] at halike
        refine (munched_cons_iff _ _ _ _).mpr ⟨hlexical, rfl, hnext, rest, by simp, ?_⟩
        simpa using hfront
  | @blank start run rest tokens hne hall hbreaks _ ih =>
      obtain ⟨front, rfl, hfront⟩ := ih
      refine ⟨Token.plain .blank start (String.ofList run) :: front, ?_, ?_⟩
      · rw [List.length_append, Nat.add_assoc, List.cons_append]
      · have hlexical : (Token.plain .blank start (String.ofList run)).Lexical :=
          .blank rfl (by simpa using hne) (by simpa using hall) rfl
        have hnext : ∀ next ∈ front.head?,
            ¬ (Token.plain .blank start (String.ofList run)).Alike next := by
          intro next hmem halike
          have hblank := hfront.breaks_blank_iff.mp hbreaks next hmem
          simp [Token.Alike, hblank] at halike
        refine (munched_cons_iff _ _ _ _).mpr ⟨hlexical, rfl, hnext, rest, by simp, ?_⟩
        simpa using hfront
  | @symbol start c rest tokens hdecimal hblank _ ih =>
      obtain ⟨front, rfl, hfront⟩ := ih
      refine ⟨Token.plain (Kind.ofChar c) start (String.ofList [c]) :: front, ?_, ?_⟩
      · rw [List.length_cons, Nat.add_right_comm, Nat.add_assoc, List.cons_append]
      · have hnext : ∀ next ∈ front.head?,
            ¬ (Token.plain (Kind.ofChar c) start (String.ofList [c])).Alike next := by
          intro next hmem halike
          simp [Token.Alike, ofChar_ne_number, ofChar_ne_blank] at halike
        refine (munched_cons_iff _ _ _ _).mpr
          ⟨Token.lexical_symbol hdecimal hblank start, rfl, hnext, rest, by simp, ?_⟩
        simpa using hfront

/-- Every character that is neither a digit nor a blank is a token of its own at its place. -/
theorem mem_of_outside (h : Partition start text tokens) {i : Nat} {c : Char}
    (hc : text[i]? = some c) (hdecimal : isDecimal c = false) (hblank : isBlank c = false) :
    Token.plain (Kind.ofChar c) (start + i : Nat) (String.ofList [c]) ∈ tokens := by
  induction h generalizing i with
  | finish start => exact absurd hc (by simp)
  | @number start run rest tokens hne hall _ _ ih =>
      have hrun : c ∉ run := fun hmem => by simp [hall c hmem] at hdecimal
      obtain ⟨j, rfl, hj⟩ := exists_getElem?_of_not_mem hrun hc
      rw [← Nat.add_assoc]
      exact List.mem_cons_of_mem _ (ih hj)
  | @blank start run rest tokens hne hall _ _ ih =>
      have hrun : c ∉ run := fun hmem => by simp [hall c hmem] at hblank
      obtain ⟨j, rfl, hj⟩ := exists_getElem?_of_not_mem hrun hc
      rw [← Nat.add_assoc]
      exact List.mem_cons_of_mem _ (ih hj)
  | @symbol start d rest tokens _ _ _ ih =>
      cases i with
      | zero =>
          obtain rfl : d = c := by simpa using hc
          exact List.mem_cons_self
      | succ j =>
          rw [Nat.add_comm j, ← Nat.add_assoc]
          exact List.mem_cons_of_mem _ (ih hc)

end Partition

/-!
### Whole lines
-/

/-- Scanning a line gives the one list of tokens that ends with the end token behind the text and
    whose other tokens make up the text, runs of one class being kept apart. A null character in the
    line is a bad token at its place and ends nothing. -/
theorem Token.scan_unique (line : String) :
    (∀ tokens : List Token, tokens = scan line ↔
      ∃ front, tokens = front ++ [finish line.length] ∧ Munched 0 line.toList front) ∧
    ∀ i : Nat, line.toList[i]? = some '\x00' → plain .bad i "\x00" ∈ scan line := by
  have hscan : Partition 0 line.toList (scan line) := Scanner.partition_tokens line 0 line.toList
  have hend : 0 + line.toList.length = line.length := by
    rw [Nat.zero_add, String.length_toList]
  refine ⟨fun tokens => ⟨?_, ?_⟩, ?_⟩
  · rintro rfl
    obtain ⟨front, hfront, hmunched⟩ := hscan.exists_munched
    rw [hend] at hfront
    exact ⟨front, hfront, hmunched⟩
  · rintro ⟨front, rfl, hmunched⟩
    have hpartition := hmunched.partition
    rw [hend] at hpartition
    exact (hpartition.tokens_eq line).symm
  · intro i hi
    have hmem := hscan.mem_of_outside hi (by decide) (by decide)
    rw [Nat.zero_add] at hmem
    exact hmem

end Reckoner
