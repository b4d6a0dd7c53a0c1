/-
Module: Reckoner.Proofs.Token.Layout
Layer: Proofs
Purpose: Writing tokens down and scanning what was written. Tokens are written one after the other
  with blanks before, between and behind them. If no two numbers follow one another, scanning gives
  back the same tokens, each at the offset at which it was written, whatever the blanks are. The
  tokens of a line that is scanned without a report can be written down again.
Main exports: Token.Spelled, Token.writtenAt, Token.Genuine, Token.genuine_of_mem_significant,
  spread, place, exists_partition_spread, significant_eq_place, Written, Written.exists_spread
-/
import Mathlib.Data.List.Chain
import Reckoner.Proofs.Token.Faultless

namespace Reckoner

open Text

namespace Token

/-- The text of a token is what the token is written with: a number is a row of ASCII digits that
    can be decoded, and any other token is a symbol of its kind. -/
def Spelled (token : Token) : Prop :=
  (token.kind = .number ∧ token.text.toList ≠ [] ∧
      (∀ c ∈ token.text.toList, c.isDigit = true) ∧
      (Numeral.decode token.text.toList).isSome = true) ∨
    ∃ c ∈ symbols, token.kind = Kind.ofChar c ∧ token.text = String.ofList [c]

/-- Whether a token is so written is decided by its text; only six symbols have to be tried. -/
instance (token : Token) : Decidable token.Spelled :=
  decidable_of_iff
    ((token.kind = .number ∧ token.text.toList ≠ [] ∧
        token.text.toList.all Char.isDigit = true ∧
        (Numeral.decode token.text.toList).isSome = true) ∨
      symbols.any (fun c => token.kind = Kind.ofChar c ∧ token.text = String.ofList [c]) = true)
    (by simp [Spelled])

/-- A token as it is scanned where it is written: it has the kind and the text of the token, the
    offset of its first character, and the value that its text decodes to if it is a number. -/
def writtenAt (token : Token) (position : Nat) : Token :=
  if token.kind = .number then Scanner.numberToken position token.text.toList
  else plain token.kind position token.text

@[simp] theorem kind_writtenAt (token : Token) (position : Nat) :
    (token.writtenAt position).kind = token.kind := by
  unfold writtenAt
  split
  · next hkind => exact hkind.symm
  · rfl

@[simp] theorem text_writtenAt (token : Token) (position : Nat) :
    (token.writtenAt position).text = token.text := by
  unfold writtenAt
  split
  · simp
  · rfl

theorem Spelled.kind_ne {token : Token} (h : token.Spelled) :
    token.kind ≠ .blank ∧ token.kind ≠ .finish := by
  rcases h with ⟨hkind, -⟩ | ⟨c, -, hkind, -⟩
  · simp [hkind]
  · rw [hkind]
    exact ⟨ofChar_ne_blank c, ofChar_ne_finish c⟩

/-- What starts with a token that is no number does not start with a digit. -/
theorem Spelled.breaks_decimal {token : Token} (h : token.Spelled) (hkind : token.kind ≠ .number)
    (rest : List Char) : Breaks isDecimal (token.text.toList ++ rest) := by
  rcases h with ⟨hnumber, -⟩ | ⟨c, hc, -, htext⟩
  · exact absurd hnumber hkind
  · simp [htext, isDecimal_eq_false_of_mem_symbols hc]

/-- A token that is written at an offset is bad in no case, and if it is a number it has a value. -/
theorem Spelled.faultless_writtenAt {token : Token} (h : token.Spelled) (position : Nat) :
    (token.writtenAt position).kind ≠ .bad ∧
      ((token.writtenAt position).kind = .number → (token.writtenAt position).value.isSome) := by
  rcases h with ⟨hkind, -, -, hvalue⟩ | ⟨c, hc, hkind, -⟩
  · exact ⟨by simp [hkind], fun _ => by simpa [writtenAt, hkind] using hvalue⟩
  · rw [kind_writtenAt, hkind]
    exact ⟨(ofChar_ne_bad_iff c).mpr hc, fun hnumber => absurd hnumber (ofChar_ne_number c)⟩

/-- A token that can be written down and scanned again: it is spelled, and if it is a number it has the
    value that its text decodes to. -/
structure Genuine (token : Token) : Prop where
  spelled : token.Spelled
  decoded : token.kind = .number → token.value = Numeral.decode token.text.toList

/-- The significant tokens of a line that is scanned without a report can be scanned again. -/
theorem genuine_of_mem_significant {line : String}
    (h : (Scanner.ofLine line).tokens.reports = []) {token : Token}
    (hmem : token ∈ significant line) : token.Genuine := by
  have hscan := mem_scan_of_mem_significant hmem
  have hpartition := Scanner.partition_tokens line 0 line.toList
  obtain ⟨hbad, hsome⟩ :=
    (Scanner.reportsOf_eq_nil_iff line token).mp (Scanner.reportsOf_of_mem_scan h hscan)
  obtain ⟨hblank, hfinish⟩ := (isSignificant_iff token).mp (List.mem_filter.mp hmem).2
  refine ⟨?_, fun hkind => (hpartition.number_of_mem hscan hkind).2.2⟩
  rcases hpartition.text_of_mem hscan with ⟨hkind, hne, hall, hvalue⟩ | hkind | hkind |
    ⟨c, hkind, htext⟩
  · have hdecode := hsome hkind
    rw [hvalue] at hdecode
    have hword := (Numeral.isSome_decode_iff hne hall).mp hdecode
    refine .inl ⟨hkind, hne, ?_, hdecode⟩
    intro c hc
    exact Numeral.isDigit_of_isDecimal (hword.ascii c hc) (hall c hc)
  · exact absurd hkind hblank
  · exact absurd hkind hfinish
  · rw [hkind] at hbad
    exact .inr ⟨c, (ofChar_ne_bad_iff c).mp hbad, hkind, htext⟩

end Token

/-- Tokens written one after the other, with `gap i` in front of the `i`-th of them and the next gap
    behind the last. -/
def spread (gap : Nat → List Char) : List Token → List Char
  | [] => gap 0
  | token :: tokens => gap 0 ++ (token.text.toList ++ spread (fun i => gap (i + 1)) tokens)

/-- The tokens that are scanned where tokens are written in this way from an offset on. -/
def place (position : Nat) (gap : Nat → List Char) : List Token → List Token
  | [] => []
  | token :: tokens =>
      let start := position + (gap 0).length
      token.writtenAt start :: place (start + token.text.length) (fun i => gap (i + 1)) tokens

/-- Placing tokens keeps what is kept of each of them wherever it is written. -/
theorem map_place_of_mem {f : Token → Token} {tokens : List Token}
    (hf : ∀ token ∈ tokens, ∀ position, f (token.writtenAt position) = f token)
    (position : Nat) (gap : Nat → List Char) :
    (place position gap tokens).map f = tokens.map f := by
  induction tokens generalizing position gap with
  | nil => rfl
  | cons token tokens ih =>
      have hothers := ih fun other hmem => hf other (by simp [hmem])
      rw [place, List.map_cons, List.map_cons, hf token (by simp), hothers]

/-- Placing tokens keeps what depends on their kinds and texts only. -/
theorem map_place {f : Token → Token}
    (hf : ∀ token position, f (token.writtenAt position) = f token)
    (position : Nat) (gap : Nat → List Char) (tokens : List Token) :
    (place position gap tokens).map f = tokens.map f :=
  map_place_of_mem (fun token _ => hf token) position gap

/-- Every placed token is a token as it is scanned where it is written. -/
theorem exists_of_mem_place {position : Nat} {gap : Nat → List Char} {tokens : List Token}
    {token : Token} (h : token ∈ place position gap tokens) :
    ∃ original ∈ tokens, ∃ start, token = original.writtenAt start := by
  induction tokens generalizing position gap with
  | nil => exact absurd h (by simp [place])
  | cons first tokens ih =>
      rcases List.mem_cons.mp h with rfl | hmem
      · exact ⟨first, by simp, _, rfl⟩
      · obtain ⟨original, horiginal, start, rfl⟩ := ih hmem
        exact ⟨original, by simp [horiginal], start, rfl⟩

/-!
### Scanning what was written
-/

/-- No number comes right behind another. -/
def NumbersApart (tokens : List Token) : Prop :=
  tokens.IsChain fun one next => one.kind = .number → next.kind ≠ .number

/-- A token in front of a text is the first token that is scanned, unless it is a number and the
    text goes on with a digit. -/
theorem partition_writtenAt {token : Token} (h : token.Spelled) {position : Nat}
    {rest : List Char} {tokens : List Token}
    (hbreaks : token.kind = .number → Breaks isDecimal rest)
    (hrest : Partition (position + token.text.length) rest tokens) :
    Partition position (token.text.toList ++ rest) (token.writtenAt position :: tokens) := by
  rcases h with ⟨hkind, hne, hdigits, -⟩ | ⟨c, hc, hkind, htext⟩
  · rw [Token.writtenAt, if_pos hkind]
    rw [← String.length_toList] at hrest
    exact .number hne (fun c hc => isDecimal_of_isDigit (hdigits c hc)) (hbreaks hkind) hrest
  · have hnumber : token.kind ≠ .number := by
      rw [hkind]
      exact ofChar_ne_number c
    rw [htext, String.length_ofList] at hrest
    rw [Token.writtenAt, if_neg hnumber, hkind, htext, String.toList_ofList]
    exact .symbol (isDecimal_eq_false_of_mem_symbols hc) (isBlank_eq_false_of_mem_symbols hc) hrest

/-- Written tokens do not start with a digit if the first of them is no number. -/
theorem breaks_spread {tokens : List Token} (hspelled : ∀ token ∈ tokens, token.Spelled)
    {gap : Nat → List Char} (hgap : ∀ c ∈ gap 0, isBlank c = true)
    (hfirst : ∀ token ∈ tokens.head?, token.kind ≠ .number) :
    Breaks isDecimal (spread gap tokens) := by
  have hout : ∀ c ∈ gap 0, isDecimal c = false :=
    fun c hc => isDecimal_eq_false_of_isBlank (hgap c hc)
  cases tokens with
  | nil => simpa [spread] using breaks_append hout (breaks_nil isDecimal)
  | cons token tokens =>
      exact breaks_append hout
        ((hspelled token (by simp)).breaks_decimal (hfirst token (by simp)) _)

section

variable {tokens : List Token} (hspelled : ∀ token ∈ tokens, token.Spelled)
  (hapart : NumbersApart tokens) {gap : Nat → List Char}
  (hgap : ∀ i, ∀ c ∈ gap i, isBlank c = true)
include hspelled hapart hgap

/-- The significant tokens that are scanned are the tokens that were written, at their places. -/
theorem exists_partition_spread (position : Nat) :
    ∃ scanned, Partition position (spread gap tokens) scanned ∧
      scanned.filter Token.isSignificant = place position gap tokens := by
  induction tokens generalizing gap position with
  | nil =>
      obtain ⟨scanned, hscanned, hfilter⟩ :=
        exists_partition_blanks (hgap 0) (.finish (position + (gap 0).length))
      rw [List.append_nil] at hscanned
      exact ⟨scanned, hscanned, hfilter⟩
  | cons token tokens ih =>
      have htoken := hspelled token (by simp)
      have hothers : ∀ other ∈ tokens, other.Spelled := fun other hother =>
        hspelled other (by simp [hother])
      rw [NumbersApart, List.isChain_cons] at hapart
      have hnext : ∀ i, ∀ c ∈ gap (i + 1), isBlank c = true := fun i => hgap (i + 1)
      obtain ⟨behind, hbehind, hplace⟩ :=
        ih hothers hapart.2 hnext (position + (gap 0).length + token.text.length)
      have hwritten := partition_writtenAt htoken
        (fun hkind => breaks_spread hothers (hnext 0) fun next hmem => hapart.1 next hmem hkind)
        hbehind
      obtain ⟨scanned, hscanned, hfilter⟩ := exists_partition_blanks (hgap 0) hwritten
      have hsignificant :
          (token.writtenAt (position + (gap 0).length)).isSignificant = true := by
        rw [Token.isSignificant_iff, Token.kind_writtenAt]
        exact htoken.kind_ne
      refine ⟨scanned, hscanned, ?_⟩
      rw [hfilter, List.filter_cons_of_pos hsignificant, hplace, place]

/-- The significant tokens of a line on which tokens were written are these, at their places. -/
theorem significant_eq_place :
    Token.significant (String.ofList (spread gap tokens)) = place 0 gap tokens := by
  obtain ⟨scanned, hscanned, hplace⟩ := exists_partition_spread hspelled hapart hgap 0
  rw [Token.significant, Token.scan, Scanner.ofLine, String.toList_ofList, hscanned.tokens_eq,
    hplace]

/-- A line on which tokens were written is scanned without a report. -/
theorem reports_spread_eq_nil :
    (Scanner.ofLine (String.ofList (spread gap tokens))).tokens.reports = [] := by
  apply Scanner.reports_eq_nil_of_significant
  rw [significant_eq_place hspelled hapart hgap]
  intro token hmem
  obtain ⟨original, horiginal, start, rfl⟩ := exists_of_mem_place hmem
  exact (hspelled original horiginal).faultless_writtenAt start

end

/-!
### Texts put together
-/

/-- The texts on which tokens are written one after the other, with any blanks around them. -/
inductive Written : List Token → List Char → Prop where
  /-- Nothing is written on the empty text. -/
  | nil : Written [] []
  /-- A blank in front of a text. -/
  | blank {c : Char} {tokens : List Token} {text : List Char} (hc : isBlank c = true)
      (h : Written tokens text) : Written tokens (c :: text)
  /-- A token in front of a text. -/
  | token (token : Token) {tokens : List Token} {text : List Char} (h : Written tokens text) :
      Written (token :: tokens) (token.text.toList ++ text)

namespace Written

variable {tokens others : List Token} {text rest : List Char}

/-- A token on its own. -/
theorem single (token : Token) : Written [token] token.text.toList := by
  simpa using Written.token token .nil

/-- What is written on two texts is written on both together. -/
theorem append (h : Written tokens text) (hrest : Written others rest) :
    Written (tokens ++ others) (text ++ rest) := by
  induction h with
  | nil => exact hrest
  | blank hc _ ih => exact .blank hc ih
  | token first _ ih =>
      rw [List.append_assoc]
      exact .token first ih

/-- The blanks of such a text are the gaps between its tokens. -/
theorem exists_spread (h : Written tokens text) :
    ∃ gap : Nat → List Char, (∀ i, ∀ c ∈ gap i, isBlank c = true) ∧ spread gap tokens = text := by
  induction h with
  | nil => exact ⟨fun _ => [], by simp, rfl⟩
  | @blank c tokens text hc _ ih =>
      obtain ⟨gap, hgap, rfl⟩ := ih
      -- The blank makes the first gap longer.
      refine ⟨fun i => if i = 0 then c :: gap 0 else gap i, ?_, ?_⟩
      · intro i d hd
        dsimp only at hd
        split at hd
        · rcases List.mem_cons.mp hd with rfl | hd
          · exact hc
          · exact hgap 0 d hd
        · exact hgap i d hd
      · cases tokens <;> simp [spread]
  | token first _ ih =>
      obtain ⟨gap, hgap, rfl⟩ := ih
      -- There is no gap in front of the token.
      refine ⟨fun i => if i = 0 then [] else gap (i - 1), ?_, ?_⟩
      · intro i d hd
        dsimp only at hd
        split at hd
        · exact absurd hd (by simp)
        · exact hgap (i - 1) d hd
      · simp [spread]

end Written

end Reckoner
