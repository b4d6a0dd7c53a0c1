/-
Module: Reckoner.Tree
Layer: Trees
Purpose: Reading a line as a tree. The grammar has two levels of left-associative operators,

    term    ::= factor (('+' | '-') factor)*
    factor  ::= primary (('*' | '/') primary)*
    primary ::= '(' term ')' | NUMBER

  and reading never fails: where a token is missing an empty one stands in for it and a report is
  made, and the token that was found is left for the phrases around. Every phrase reader hands back
  no more tokens than it was given, which is part of its type; an operator is consumed before every
  further operand, so a chain of operands ends with the tokens at the latest. Groups are opened only
  as long as there is room for them, and room is what the recursion runs on.
Main exports: Phrase, Reader, Reader.chain, primary, factor, term, Tree, Tree.ofLine
-/
import Reckoner.Expr
import Reckoner.Token.Scan

namespace Reckoner

/-- The number of groups that may be nested in one another. -/
def nestingLimit : Nat := 128

/-- The outcome of reading one phrase: its tree, the tokens behind it, and the reports made. -/
structure Phrase where
  tree : Expr
  rest : List Token
  reports : List Report

namespace Phrase

/-- The same phrase with reports that were made earlier in front of its own. -/
def after (earlier : List Report) (p : Phrase) : Phrase :=
  { p with reports := earlier ++ p.reports }

@[simp] theorem tree_after (earlier : List Report) (p : Phrase) : (p.after earlier).tree = p.tree :=
  rfl

@[simp] theorem rest_after (earlier : List Report) (p : Phrase) : (p.after earlier).rest = p.rest :=
  rfl

@[simp] theorem reports_after (earlier : List Report) (p : Phrase) :
    (p.after earlier).reports = earlier ++ p.reports := rfl

end Phrase

/-- A way to read a phrase from the front of the tokens of a line, the end token left out. -/
structure Reader where
  read : List Token → Phrase
  shrinks : ∀ tokens, (read tokens).rest.length ≤ tokens.length

/-!
### Single tokens

The tokens of a line are given without its end token, which follows them at the position `stop`. It
is what the reader finds when no token is left, however often it looks.
-/

/-- The token that comes next. -/
def upcoming (stop : Int) (tokens : List Token) : Token :=
  tokens.headD (Token.finish stop)

/-- One token that was asked for, the tokens behind it, and the reports made. -/
structure Found where
  token : Token
  rest : List Token
  reports : List Report

/-- Takes the next token if it is of the kind asked for. Otherwise an empty token of that kind
    stands in at the place of what was found, nothing is consumed, and a report is made. -/
def expect (stop : Int) (kind : Kind) (tokens : List Token) : Found :=
  let found := upcoming stop tokens
  if found.kind = kind then
    ⟨found, tokens.tail, []⟩
  else
    ⟨Token.missing kind found.position, tokens, [.unexpected found.kind.name kind.name]⟩

theorem length_expect_le (stop : Int) (kind : Kind) (tokens : List Token) :
    (expect stop kind tokens).rest.length ≤ tokens.length := by
  unfold expect
  dsimp only
  split
  · simp
  · exact Nat.le_refl _

/-!
### Groups past the limit

A group for which there is no room is skipped: its tokens are dropped up to its closing parenthesis,
and an empty number stands for its content.
-/

/-- The tokens from the closing parenthesis on that ends the group in which `depth` further groups
    are open; none, if there is no such parenthesis. -/
def dropGroup : Nat → List Token → List Token
  | _, [] => []
  | depth, token :: tokens =>
      match token.kind, depth with
      | .opening, depth => dropGroup (depth + 1) tokens
      | .closing, 0 => token :: tokens
      | .closing, depth + 1 => dropGroup depth tokens
      | _, depth => dropGroup depth tokens

/-- Dropping the content of a group never adds tokens. -/
theorem length_dropGroup_le (depth : Nat) (tokens : List Token) :
    (dropGroup depth tokens).length ≤ tokens.length := by
  fun_induction dropGroup depth tokens with
  | case1 => exact Nat.le_refl _
  | case2 => simp only [List.length_cons]; omega
  | case3 => exact Nat.le_refl _
  | case4 => simp only [List.length_cons]; omega
  | case5 => simp only [List.length_cons]; omega

/-- Skips the group that `opening` starts, given the tokens behind it. -/
def skipGroup (stop : Int) (opening : Token) (tokens : List Token) : Phrase :=
  let content := Expr.numeral (Token.missing .number (upcoming stop tokens).position)
  let closing := expect stop .closing (dropGroup 0 tokens)
  ⟨.group opening content closing.token, closing.rest,
    .tooDeep opening.position nestingLimit :: closing.reports⟩

theorem length_skipGroup_le (stop : Int) (opening : Token) (tokens : List Token) :
    (skipGroup stop opening tokens).rest.length ≤ tokens.length :=
  Nat.le_trans (length_expect_le _ _ _) (length_dropGroup_le _ _)

/-!
### Phrases
-/

/-- Reads a number, which is missing if the next token is anything else. -/
def readNumeral (stop : Int) (tokens : List Token) : Phrase :=
  let number := expect stop .number tokens
  ⟨.numeral number.token, number.rest, number.reports⟩

/-- Reads a group, given what reads its content and the tokens behind its opening parenthesis. -/
def readGroup (stop : Int) (content : Reader) (opening : Token) (tokens : List Token) : Phrase :=
  let inner := content.read tokens
  let closing := expect stop .closing inner.rest
  ⟨.group opening inner.tree closing.token, closing.rest, inner.reports ++ closing.reports⟩

theorem length_readGroup_le (stop : Int) (content : Reader) (opening : Token)
    (tokens : List Token) :
    (readGroup stop content opening tokens).rest.length ≤ tokens.length :=
  Nat.le_trans (length_expect_le _ _ _) (content.shrinks tokens)

namespace Reader

/-- Continues a chain whose tree so far is `left`: as long as an operator comes next, it and a
    further operand are taken, and the tree so far becomes the left operand. -/
def chainFrom (joins : Kind → Bool) (operand : Reader) (left : Expr) (tokens : List Token) :
    Phrase :=
  match tokens with
  | [] => ⟨left, [], []⟩
  | operator :: behind =>
      if joins operator.kind then
        let right := operand.read behind
        (chainFrom joins operand (.binary left operator right.tree) right.rest).after right.reports
      else
        ⟨left, operator :: behind, []⟩
termination_by tokens.length
decreasing_by
  have := operand.shrinks behind
  simp only [List.length_cons]
  omega

theorem length_chainFrom_le (joins : Kind → Bool) (operand : Reader) (left : Expr)
    (tokens : List Token) : (chainFrom joins operand left tokens).rest.length ≤ tokens.length := by
  fun_induction chainFrom joins operand left tokens with
  | case1 => exact Nat.le_refl _
  | case2 left operator behind _ right ih =>
      have : right.rest.length ≤ behind.length := operand.shrinks behind
      simp only [Phrase.rest_after, List.length_cons]
      omega
  | case3 => exact Nat.le_refl _

/-- Reads one or more operands with operators between them, grouped to the left. -/
def chain (joins : Kind → Bool) (operand : Reader) : Reader where
  read tokens :=
    let first := operand.read tokens
    (chainFrom joins operand first.tree first.rest).after first.reports
  shrinks tokens := Nat.le_trans (length_chainFrom_le _ _ _ _) (operand.shrinks tokens)

end Reader

/-- Reads operands with `*` and `/` between them. -/
def factorOf (primary : Reader) : Reader :=
  primary.chain Kind.isMultiplicative

/-- Reads operands with `+` and `-` between factors. -/
def termOf (primary : Reader) : Reader :=
  (factorOf primary).chain Kind.isAdditive

/-- Reads a primary where `room` groups may still be opened: a group, skipped if there is no room
    for it, or else a number. -/
def primary (stop : Int) : Nat → Reader
  | 0 =>
    { read := fun tokens =>
        match tokens with
        | [] => readNumeral stop []
        | token :: behind =>
            if token.kind = .opening then skipGroup stop token behind
            else readNumeral stop (token :: behind)
      shrinks := fun tokens => by
        cases tokens with
        | nil => exact length_expect_le _ _ _
        | cons token behind =>
            dsimp only
            split
            · exact Nat.le_succ_of_le (length_skipGroup_le _ _ _)
            · exact length_expect_le _ _ _ }
  | room + 1 =>
    { read := fun tokens =>
        match tokens with
        | [] => readNumeral stop []
        | token :: behind =>
            if token.kind = .opening then readGroup stop (termOf (primary stop room)) token behind
            else readNumeral stop (token :: behind)
      shrinks := fun tokens => by
        cases tokens with
        | nil => exact length_expect_le _ _ _
        | cons token behind =>
            dsimp only
            split
            · exact Nat.le_succ_of_le (length_readGroup_le _ _ _ _)
            · exact length_expect_le _ _ _ }

/-- Reads a factor where `room` groups may still be opened. -/
def factor (stop : Int) (room : Nat) : Reader :=
  factorOf (primary stop room)

/-- Reads a term where `room` groups may still be opened. -/
def term (stop : Int) (room : Nat) : Reader :=
  termOf (primary stop room)

/-!
### Whole lines
-/

/-- The tokens of a line that phrases are made of, the position of its end, and the reports made
    while scanning it. -/
structure Lexemes where
  tokens : List Token
  stop : Int
  reports : List Report

/-- Scans a line and drops the tokens that stand for nothing in the grammar. -/
def Lexemes.ofLine (line : String) : Lexemes :=
  let scan := (Scanner.ofLine line).tokens
  ⟨scan.tokens.filter fun token => !token.kind.isSkipped && token.kind != .finish,
    scan.last.position, scan.reports⟩

def Lexemes.withFinish (lexemes : Lexemes) : List Token :=
  lexemes.tokens ++ [Token.finish lexemes.stop]

/-- The tree of a line: its root, the token that ends it, and all reports, those made while scanning
    first. -/
structure Tree where
  root : Expr
  finish : Token
  reports : List Report

namespace Tree

/-- Reads the tokens of a line as one term that reaches to the end. -/
def ofLexemes (lexemes : Lexemes) : Tree :=
  let whole := (term lexemes.stop nestingLimit).read lexemes.tokens
  let finish := expect lexemes.stop .finish whole.rest
  ⟨whole.tree, finish.token, lexemes.reports ++ whole.reports ++ finish.reports⟩

def ofLine (line : String) : Tree :=
  ofLexemes (Lexemes.ofLine line)

def diagnostics (tree : Tree) : List String :=
  tree.reports.map Report.message

end Tree

end Reckoner
