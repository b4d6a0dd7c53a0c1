/-
Module: Reckoner.Token
Layer: Tokens
Purpose: Tokens, the leaves of every tree. A token records what it is, where it starts, the text it
  stands for and, if it is a number that fits in a word, its value. The condition on the value is
  part of the type, so a token that breaks it cannot be built.
Main exports: Kind, Kind.name, Kind.ofName?, Token, Token.Sound, Token.build
-/
import Reckoner.Word

namespace Reckoner

/-- What a token or a node of a tree is. The first ten are kinds of tokens and the last three kinds
    of expressions; they share one enumeration because a tree is printed by kind alone, and because
    a token built by hand may be given any of them. -/
inductive Kind where
  | number
  | blank
  | plus
  | minus
  | star
  | slash
  | opening
  | closing
  | bad
  | finish
  | numeral
  | group
  | binary
deriving DecidableEq, Repr, Inhabited

namespace Kind

/-- The name of a kind in messages and in printed trees. -/
def name : Kind → String
  | number => "NumberToken"
  | blank => "WhiteSpaceToken"
  | plus => "PlusToken"
  | minus => "MinusToken"
  | star => "StarToken"
  | slash => "SlashToken"
  | opening => "OpenParenthesisToken"
  | closing => "CloseParenthesisToken"
  | bad => "BadToken"
  | finish => "EndOfInputToken"
  | numeral => "NumberExpression"
  | group => "ParenthesizedExpression"
  | binary => "BinaryExpression"

def all : List Kind :=
  [number, blank, plus, minus, star, slash, opening, closing, bad, finish, numeral, group, binary]

def ofName? (text : String) : Option Kind :=
  all.find? fun kind => kind.name == text

theorem ofName?_name (kind : Kind) : ofName? kind.name = some kind := by
  cases kind <;> decide

/-- The kind of a character that is neither a digit nor a blank. -/
def ofChar : Char → Kind
  | '+' => plus
  | '-' => minus
  | '*' => star
  | '/' => slash
  | '(' => opening
  | ')' => closing
  | _ => bad

def isAdditive : Kind → Bool
  | plus | minus => true
  | _ => false

def isMultiplicative : Kind → Bool
  | star | slash => true
  | _ => false

/-- The kinds that stand for nothing in the grammar and are dropped before reading phrases. -/
def isSkipped : Kind → Bool
  | blank | bad => true
  | _ => false

end Kind

/-- Only a number carries a value, and only one that fits in a word. -/
def Token.Sound (kind : Kind) : Option Int → Prop
  | none => True
  | some value => kind = .number ∧ Word.InRange value

/-- A single lexical unit. `position` is the offset at which its text starts, counted in
    characters. -/
@[ext] structure Token where
  kind : Kind
  position : Int
  text : String
  value : Option Int
  sound : Token.Sound kind value
deriving DecidableEq

namespace Token

def plain (kind : Kind) (position : Int) (text : String) : Token :=
  ⟨kind, position, text, none, trivial⟩

def finish (position : Int) : Token :=
  plain .finish position "\u0000"

/-- The empty token that stands in for a missing one. -/
def missing (kind : Kind) (position : Int) : Token :=
  plain kind position ""

inductive Fault where
  | valueNotAllowed (kind : Kind)
  | outOfRange (value : Int)
deriving DecidableEq, Repr

def Fault.message : Fault → String
  | .valueNotAllowed kind => s!"{kind.name} cannot carry a value"
  | .outOfRange value => s!"{value} is outside the Int32 range"

/-- Builds a token, refusing a value that its kind cannot carry before one that is too large. -/
def build (kind : Kind) (position : Int) (text : String) : Option Int → Except Fault Token
  | none => .ok (plain kind position text)
  | some value =>
      if hkind : kind = .number then
        if hrange : Word.InRange value then
          .ok ⟨kind, position, text, some value, hkind, hrange⟩
        else
          .error (.outOfRange value)
      else
        .error (.valueNotAllowed kind)

theorem inRange_of_value {token : Token} {value : Int} (h : token.value = some value) :
    Word.InRange value := by
  have sound := token.sound
  rw [h] at sound
  exact sound.2

theorem kind_of_value {token : Token} {value : Int} (h : token.value = some value) :
    token.kind = .number := by
  have sound := token.sound
  rw [h] at sound
  exact sound.1

end Token

end Reckoner
