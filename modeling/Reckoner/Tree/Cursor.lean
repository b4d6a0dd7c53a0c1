/-
Module: Reckoner.Tree.Cursor
Layer: Trees
Purpose: Reading a line step by step. A cursor stands before one of the tokens of a line, or any
  number of places past the last one, and answers one request at a time: to look around, to take a
  token, or to read a phrase from where it stands. Every phrase is read with room for all groups.
Main exports: Cursor, Cursor.Request, Cursor.Answer, Cursor.perform
-/
import Reckoner.Tree

namespace Reckoner

/-- A place among the tokens of a line, with the reports made so far. The place may lie past the
    end token. -/
structure Cursor where
  lexemes : Lexemes
  place : Nat
  reports : List Report

namespace Cursor

/-- The cursor before the first token of a line. Scanning has made its reports already. -/
def ofLine (line : String) : Cursor :=
  let lexemes := Lexemes.ofLine line
  ⟨lexemes, 0, lexemes.reports⟩

/-- The tokens from the cursor on, the end token left out. -/
def ahead (c : Cursor) : List Token :=
  c.lexemes.tokens.drop c.place

def current (c : Cursor) : Token :=
  upcoming c.lexemes.stop c.ahead

/-- The token at a distance from the cursor. Past the end it is the end token; before the start the
    tokens are counted from the end, and there are no more of those than tokens. -/
def peek (c : Cursor) (offset : Int) : Option Token :=
  let all := c.lexemes.withFinish
  let index := (c.place : Int) + offset
  if 0 ≤ index then some ((all[index.toNat]?).getD (Token.finish c.lexemes.stop))
  else if 0 ≤ index + all.length then all[(index + all.length).toNat]?
  else none

def step (c : Cursor) : Cursor :=
  { c with place := c.place + 1 }

/-- Takes the current token if it is of the kind asked for, and otherwise stays and reports. -/
def expect (c : Cursor) (kind : Kind) : Token × Cursor :=
  let found := Reckoner.expect c.lexemes.stop kind c.ahead
  if c.current.kind = kind then (found.token, c.step)
  else (found.token, { c with reports := c.reports ++ found.reports })

/-- Reads a phrase from the cursor on and goes behind it. -/
def read (c : Cursor) (reader : Reader) : Expr × Cursor :=
  let phrase := reader.read c.ahead
  (phrase.tree,
    { c with
      place := c.place + (c.ahead.length - phrase.rest.length)
      reports := c.reports ++ phrase.reports })

/-- Reads a term and the end token from the cursor on. The tree holds all reports made so far. -/
def readTree (c : Cursor) : Tree × Cursor :=
  let (root, behind) := c.read (term c.lexemes.stop nestingLimit)
  let (finish, last) := behind.expect .finish
  (⟨root, finish, last.reports⟩, last)

/-- The phrases that can be read on their own. -/
inductive Symbol where
  | expression
  | term
  | factor
  | primary
deriving DecidableEq, Repr

/-- What reads a phrase. An expression is a term. -/
def Symbol.reader (stop : Int) : Symbol → Reader
  | expression | term => Reckoner.term stop nestingLimit
  | factor => Reckoner.factor stop nestingLimit
  | primary => Reckoner.primary stop nestingLimit

inductive Request where
  | peek (offset : Int)
  | advance
  | expect (kind : Kind)
  | tokens
  | reports
  | tree
  | phrase (symbol : Symbol)

inductive Answer where
  | token (token : Token)
  | tokens (tokens : List Token)
  | reports (reports : List Report)
  | tree (tree : Tree)
  | phrase (root : Expr)
  /-- A look further back than there are tokens. -/
  | outOfTokens

/-- Answers a request and moves the cursor. -/
def perform (c : Cursor) : Request → Answer × Cursor
  | .peek offset =>
      match c.peek offset with
      | some token => (.token token, c)
      | none => (.outOfTokens, c)
  | .advance => (.token c.current, c.step)
  | .expect kind =>
      let (token, next) := c.expect kind
      (.token token, next)
  | .tokens => (.tokens c.lexemes.withFinish, c)
  | .reports => (.reports c.reports, c)
  | .tree =>
      let (tree, next) := c.readTree
      (.tree tree, next)
  | .phrase symbol =>
      let (root, next) := c.read (symbol.reader c.lexemes.stop)
      (.phrase root, next)

/-- Answers requests one after the other. Each answer comes with the cursor behind it. -/
def performAll (c : Cursor) : List Request → List (Answer × Cursor)
  | [] => []
  | request :: requests =>
      let (answer, next) := c.perform request
      (answer, next) :: next.performAll requests

end Cursor

end Reckoner
