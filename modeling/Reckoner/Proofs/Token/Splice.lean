/-
Module: Reckoner.Proofs.Token.Splice
Layer: Proofs
Purpose: Tokens of texts that are put together. Where a text starts only moves its tokens, and two
  texts with a symbol between them are scanned apart, since no run goes over a symbol. What balances
  the parentheses of a text balances those of its tokens.
Main exports: displaced, Token.moved, Partition.moved, Partition.append_symbol, Token.isLexeme,
  Lexemes.tokens_of_partition, Text.Balanced, Partition.balanced
-/
import Reckoner.Proofs.Expr.Relabel
import Reckoner.Proofs.Tree.Acceptance
import Reckoner.Proofs.Tree.Matching

namespace Reckoner

open Text

/-- The place to which a character comes if those from `cut` on are moved by `shift`. -/
def displaced (cut shift position : Int) : Int :=
  if cut ≤ position then position + shift else position

theorem displaced_of_le {cut position : Int} (h : cut ≤ position) (shift : Int) :
    displaced cut shift position = position + shift :=
  if_pos h

theorem displaced_of_lt {cut position : Int} (h : position < cut) (shift : Int) :
    displaced cut shift position = position :=
  if_neg (Int.not_le.mpr h)

namespace Token

/-- The same token, `shift` characters further on. -/
def moved (shift : Int) (token : Token) : Token :=
  { token with position := token.position + shift }

theorem moved_eq_relocated (shift : Int) : moved shift = relocated (· + shift) := rfl

@[simp] theorem kind_moved (shift : Int) (token : Token) : (token.moved shift).kind = token.kind :=
  rfl

@[simp] theorem position_moved (shift : Int) (token : Token) :
    (token.moved shift).position = token.position + shift := rfl

theorem moved_plain (shift : Int) (kind : Kind) (position : Int) (text : String) :
    (plain kind position text).moved shift = plain kind (position + shift) text := rfl

/-- Moving a token twice is moving it by both distances. -/
theorem moved_moved (shift further : Int) (token : Token) :
    (token.moved shift).moved further = token.moved (shift + further) := by
  simp only [moved, Int.add_assoc]

/-- A token in front of the place from which others are moved stays where it is. -/
theorem relocated_of_lt {cut : Int} {token : Token} (h : token.position < cut) (shift : Int) :
    token.relocated (displaced cut shift) = token := by
  rw [relocated, displaced_of_lt h]

theorem relocated_of_le {cut : Int} {token : Token} (h : cut ≤ token.position) (shift : Int) :
    token.relocated (displaced cut shift) = token.moved shift := by
  rw [relocated, displaced_of_le h, moved]

/-- The tokens that phrases are made of: all but blanks, bad characters and the end. -/
def isLexeme (token : Token) : Bool :=
  !token.kind.isSkipped && token.kind != .finish

@[simp] theorem isLexeme_moved (shift : Int) (token : Token) :
    (token.moved shift).isLexeme = token.isLexeme := rfl

theorem isLexeme_symbol {c : Char} (hc : c ∈ symbols) (position : Int) (text : String) :
    (plain (Kind.ofChar c) position text).isLexeme = true := by
  have hsymbols : symbols.all (fun c =>
      !(Kind.ofChar c).isSkipped && Kind.ofChar c != .finish) = true := by decide
  exact List.all_eq_true.mp hsymbols c hc

end Token

/-!
### Putting texts together
-/

namespace Partition

variable {position : Nat} {text : List Char} {tokens : List Token}

/-- The tokens of a text that starts further on are moved. -/
theorem moved (h : Partition position text tokens) (shift : Nat) :
    Partition (position + shift) text (tokens.map (Token.moved shift)) := by
  induction h with
  | finish position =>
      rw [List.map_singleton, Token.finish, Token.moved_plain, ← Int.natCast_add]
      exact .finish (position + shift)
  | @number position run rest tokens hne hall hbreaks _ ih =>
      have hfirst : (Scanner.numberToken position run).moved shift =
          Scanner.numberToken (position + shift) run := by
        ext <;> simp [Token.moved, Scanner.numberToken]
      rw [Nat.add_right_comm] at ih
      rw [List.map_cons, hfirst]
      exact .number hne hall hbreaks ih
  | @blank position run rest tokens hne hall hbreaks _ ih =>
      rw [Nat.add_right_comm] at ih
      rw [List.map_cons, Token.moved_plain, ← Int.natCast_add]
      exact .blank hne hall hbreaks ih
  | @symbol position c rest tokens hdecimal hblank _ ih =>
      rw [Nat.add_right_comm] at ih
      rw [List.map_cons, Token.moved_plain, ← Int.natCast_add]
      exact .symbol hdecimal hblank ih

theorem ne_nil (h : Partition position text tokens) : tokens ≠ [] := by
  cases h with
  | finish => simp
  | number => simp
  | blank => simp
  | symbol => simp

/-- What breaks a run at the end of a text breaks it also where a symbol and more text follow. -/
theorem breaks_append_symbol {p : Char → Bool} {rest : List Char} {c : Char} (hc : p c = false)
    (h : Breaks p rest) (behind : List Char) : Breaks p (rest ++ c :: behind) := by
  cases rest with
  | nil => simpa using hc
  | cons first rest => simpa using h

/-- Two texts with a symbol between them have the tokens of the one, without its end token, the
    symbol, and the tokens of the other. -/
theorem append_symbol {c : Char} {behind : List Char} {others : List Token}
    (hdecimal : isDecimal c = false) (hblank : isBlank c = false)
    (h : Partition position text tokens)
    (hbehind : Partition (position + text.length + 1) behind others) :
    Partition position (text ++ c :: behind)
      (tokens.dropLast ++
        Token.plain (Kind.ofChar c) (position + text.length : Nat) (String.ofList [c]) ::
          others) := by
  induction h with
  | finish position => exact .symbol hdecimal hblank hbehind
  | @number position run rest tokens hne hall hbreaks h ih =>
      have hlength : position + run.length + rest.length = position + (run ++ rest).length := by
        rw [List.length_append, Nat.add_assoc]
      rw [hlength] at ih
      rw [List.append_assoc, List.dropLast_cons_of_ne_nil h.ne_nil]
      exact .number hne hall (breaks_append_symbol hdecimal hbreaks behind) (ih hbehind)
  | @blank position run rest tokens hne hall hbreaks h ih =>
      have hlength : position + run.length + rest.length = position + (run ++ rest).length := by
        rw [List.length_append, Nat.add_assoc]
      rw [hlength] at ih
      rw [List.append_assoc, List.dropLast_cons_of_ne_nil h.ne_nil]
      exact .blank hne hall (breaks_append_symbol hblank hbreaks behind) (ih hbehind)
  | @symbol position first rest tokens hfirst hother h ih =>
      have hlength : position + 1 + rest.length = position + (first :: rest).length := by
        rw [List.length_cons, Nat.add_assoc, Nat.add_comm 1]
      rw [hlength] at ih
      rw [List.cons_append, List.dropLast_cons_of_ne_nil h.ne_nil]
      exact .symbol hfirst hother (ih hbehind)

theorem filter_dropLast (h : Partition position text tokens) :
    tokens.dropLast.filter Token.isLexeme = tokens.filter Token.isLexeme := by
  obtain ⟨front, rfl, -⟩ := h.exists_append_finish
  rw [List.dropLast_concat, List.filter_append]
  simp [Token.isLexeme, Token.finish]

end Partition

namespace Lexemes

/-- The lexemes of a line are found in its only partition. -/
theorem tokens_of_partition {line : String} {tokens : List Token}
    (h : Partition 0 line.toList tokens) :
    (ofLine line).tokens = tokens.filter Token.isLexeme := by
  have hscan := h.tokens_eq line
  simp only [ofLine, Scanner.ofLine, hscan]
  rfl

/-- The lexemes of a line are in the order of their offsets. -/
theorem pairwise_tokens (line : String) :
    (ofLine line).tokens.Pairwise fun one other => one.position < other.position := by
  have hpartition := Scanner.partition_tokens line 0 line.toList
  rw [tokens_of_partition hpartition]
  exact hpartition.ascending.1.filter _

/-- Two lines with a symbol between them have the lexemes of the one, the symbol, and the lexemes of
    the other, which are moved. -/
theorem tokens_append_symbol {c : Char} (hc : c ∈ symbols) (a b : String) :
    (ofLine (a ++ String.ofList [c] ++ b)).tokens =
      (ofLine a).tokens ++ Token.plain (Kind.ofChar c) a.length (String.ofList [c]) ::
        (ofLine b).tokens.map (Token.moved (a.length + 1 : Nat)) := by
  have hfront := Scanner.partition_tokens a 0 a.toList
  have hback := (Scanner.partition_tokens b 0 b.toList).moved (a.length + 1)
  have hstart : 0 + (a.length + 1) = 0 + a.toList.length + 1 := by
    rw [String.length_toList, Nat.add_assoc]
  rw [hstart] at hback
  have hwhole := hfront.append_symbol (isDecimal_eq_false_of_mem_symbols hc)
    (isBlank_eq_false_of_mem_symbols hc) hback
  have htext : (a ++ String.ofList [c] ++ b).toList = a.toList ++ c :: b.toList := by simp
  rw [← htext, String.length_toList, Nat.zero_add] at hwhole
  rw [tokens_of_partition hwhole, tokens_of_partition hfront,
    tokens_of_partition (Scanner.partition_tokens b 0 b.toList), List.filter_append,
    hfront.filter_dropLast, List.filter_cons_of_pos (Token.isLexeme_symbol hc _ _), List.filter_map]
  simp [Function.comp_def]

end Lexemes

/-!
### Balanced parentheses
-/

namespace Text

/-- How many more parentheses are opened than closed. -/
def excess (text : List Char) : Int :=
  (text.count '(' : Nat) - (text.count ')' : Nat)

/-- A text that closes all parentheses that it opens, and no others. -/
structure Balanced (text : List Char) : Prop where
  nonneg : ∀ front, front <+: text → 0 ≤ excess front
  closed : excess text = 0

/-- Which texts are balanced can be decided: every front part is taken from the text. -/
instance (text : List Char) : Decidable (Balanced text) :=
  decidable_of_iff ((∀ i ≤ text.length, 0 ≤ excess (text.take i)) ∧ excess text = 0)
    ⟨fun h => ⟨fun front hfront => by
        rw [List.prefix_iff_eq_take.mp hfront]
        exact h.1 front.length hfront.length_le, h.2⟩,
      fun h => ⟨fun i _ => h.nonneg _ (text.take_prefix i), h.closed⟩⟩

theorem excess_append (text others : List Char) :
    excess (text ++ others) = excess text + excess others := by
  simp only [excess, List.count_append]
  omega

/-- Characters of a class to which no parenthesis belongs do not count. -/
theorem excess_of_class {p : Char → Bool} (hsymbols : ∀ c ∈ symbols, p c = false)
    {run : List Char} (hall : ∀ c ∈ run, p c = true) : excess run = 0 := by
  have hnone : ∀ c ∈ symbols, run.count c = 0 := by
    intro c hc
    apply List.count_eq_zero.mpr
    intro hmem
    have hclass := hall c hmem
    rw [hsymbols c hc] at hclass
    exact absurd hclass (by decide)
  rw [excess, hnone '(' (by decide), hnone ')' (by decide)]
  rfl

end Text

/-- A parenthesis is the only character of its kind. -/
theorem openGroups_ofChar (c : Char) (position : Int) (text : String) :
    openGroups [Token.plain (Kind.ofChar c) position text] = excess [c] := by
  by_cases hopening : c = '('
  · subst hopening
    exact openGroups_of_opening rfl
  · by_cases hclosing : c = ')'
    · subst hclosing
      exact openGroups_of_closing rfl
    · have hexcess : excess [c] = 0 := by simp [excess, hopening, hclosing]
      rw [hexcess]
      apply openGroups_of_ne
      · rw [Token.kind_plain]
        unfold Kind.ofChar
        split <;> simp_all
      · rw [Token.kind_plain]
        unfold Kind.ofChar
        split <;> simp_all

theorem openGroups_numberToken (position : Nat) {run : List Char}
    (hall : ∀ c ∈ run, isDecimal c = true) :
    openGroups [Scanner.numberToken position run] = excess run := by
  rw [excess_of_class (fun _ => isDecimal_eq_false_of_mem_symbols) hall]
  exact openGroups_of_ne (by simp) (by simp)

theorem openGroups_blank (position : Int) {run : List Char} (hall : ∀ c ∈ run, isBlank c = true) :
    openGroups [Token.plain .blank position (String.ofList run)] = excess run := by
  rw [excess_of_class (fun _ => isBlank_eq_false_of_mem_symbols) hall]
  exact openGroups_of_ne (by simp) (by simp)

namespace Partition

variable {position : Nat} {text : List Char} {tokens : List Token}

/-- The tokens of a text open and close as many groups as the text. -/
theorem openGroups_eq (h : Partition position text tokens) : openGroups tokens = excess text := by
  induction h with
  | finish position => exact openGroups_of_ne (by simp [Token.finish]) (by simp [Token.finish])
  | number hne hall hbreaks _ ih =>
      rw [openGroups_cons, ih, openGroups_numberToken _ hall, excess_append]
  | blank hne hall hbreaks _ ih =>
      rw [openGroups_cons, ih, openGroups_blank _ hall, excess_append]
  | @symbol position c rest tokens hdecimal hblank _ ih =>
      rw [openGroups_cons, ih, openGroups_ofChar]
      exact (excess_append [c] rest).symm

/-- The first tokens of a text open and close as many groups as some front part of the text, if this
    is so behind the first token. -/
theorem exists_excess_eq_cons {run rest : List Char} {token : Token} {front tokens : List Token}
    (htoken : openGroups [token] = excess run)
    (h : ∀ others, others <+: tokens → ∃ part, part <+: rest ∧ openGroups others = excess part)
    (hfront : front <+: token :: tokens) :
    ∃ part, part <+: run ++ rest ∧ openGroups front = excess part := by
  rcases List.prefix_cons_iff.mp hfront with rfl | ⟨others, rfl, hothers⟩
  · exact ⟨[], List.nil_prefix, rfl⟩
  · obtain ⟨part, hpart, hcount⟩ := h others hothers
    refine ⟨run ++ part, (List.prefix_append_right_inj run).mpr hpart, ?_⟩
    rw [openGroups_cons, hcount, htoken, excess_append]

/-- The first tokens of a text open and close as many groups as some front part of the text. -/
theorem exists_excess_eq (h : Partition position text tokens) {front : List Token}
    (hfront : front <+: tokens) : ∃ part, part <+: text ∧ openGroups front = excess part := by
  induction h generalizing front with
  | finish position =>
      have hnone : openGroups [Token.finish position] = excess [] :=
        (Partition.finish position).openGroups_eq
      refine exists_excess_eq_cons hnone ?_ hfront
      intro others hothers
      rw [List.prefix_nil.mp hothers]
      exact ⟨[], List.nil_prefix, rfl⟩
  | @number position run rest tokens hne hall hbreaks _ ih =>
      exact exists_excess_eq_cons (openGroups_numberToken position hall) (fun _ => ih) hfront
  | @blank position run rest tokens hne hall hbreaks _ ih =>
      exact exists_excess_eq_cons (openGroups_blank position hall) (fun _ => ih) hfront
  | @symbol position c rest tokens hdecimal hblank _ ih =>
      exact exists_excess_eq_cons (openGroups_ofChar c _ _) (fun _ => ih) hfront

/-- Tokens that are left out neither open nor close groups. -/
theorem openGroups_filter_isLexeme (tokens : List Token) :
    openGroups (tokens.filter Token.isLexeme) = openGroups tokens := by
  induction tokens with
  | nil => rfl
  | cons token tokens ih =>
      by_cases hlexeme : token.isLexeme = true
      · rw [List.filter_cons_of_pos hlexeme, openGroups_cons, ih, ← openGroups_cons]
      · have hkind : token.kind ≠ .opening ∧ token.kind ≠ .closing := by
          constructor
          · intro hkind
            exact hlexeme (by simp [Token.isLexeme, hkind, Kind.isSkipped])
          · intro hkind
            exact hlexeme (by simp [Token.isLexeme, hkind, Kind.isSkipped])
        rw [List.filter_cons_of_neg hlexeme, openGroups_cons, ih,
          openGroups_of_ne hkind.1 hkind.2, Int.zero_add]

/-- The lexemes of a text with balanced parentheses are balanced. -/
theorem balanced (h : Partition position text tokens) (htext : Text.Balanced text) :
    Reckoner.Balanced (tokens.filter Token.isLexeme) := by
  constructor
  · rintro front ⟨behind, hfront⟩
    obtain ⟨before, after, rfl, rfl, -⟩ := List.filter_eq_append_iff.mp hfront.symm
    obtain ⟨part, hpart, hcount⟩ := h.exists_excess_eq (List.prefix_append before after)
    rw [openGroups_filter_isLexeme, hcount]
    exact htext.nonneg part hpart
  · rw [openGroups_filter_isLexeme, h.openGroups_eq]
    exact htext.closed

end Partition

/-- The lexemes of a line with balanced parentheses are balanced. -/
theorem Lexemes.balanced_tokens {line : String} (h : Text.Balanced line.toList) :
    Reckoner.Balanced (ofLine line).tokens := by
  have hpartition := Scanner.partition_tokens line 0 line.toList
  rw [tokens_of_partition hpartition]
  exact hpartition.balanced h

end Reckoner
