/-
Module: Reckoner.Proofs.Line.Group
Layer: Proofs
Purpose: Groups and their values. What a line with a group in it comes to depends on the content of the
  group only through its value: the tree of the content is a subtree of the tree of the line, whatever
  is around it, and a number of the same value could stand for the group. So a group can be replaced by
  any other of the same value, and if the line divides by zero, it does so at the same division sign.
Main exports: Result.of_value?_eq_some, Tree.enclosed, exists_tree_of_group, outcome_group,
  slash_of_value_group, interpret_group_congr
-/
import Reckoner.Proofs.Line.Outcome
import Reckoner.Proofs.Tree.Group
import Reckoner.Proofs.Tree.Replace

namespace Reckoner

/-!
### The tree of a group
-/

namespace Tree

/-- The tree of a group behind some text: the tree of the content, moved to where it is, in its
    parentheses. -/
def enclosed (a x : String) : Expr :=
  .group (.plain .opening a.length "(")
    ((ofLine x).root.map (Token.moved (a.length + 1 : Nat)))
    (.plain .closing (a.length + 1 + x.length : Nat) ")")

theorem grammatical_enclosed (a x : String) : (enclosed a x).Grammatical :=
  ⟨rfl, (Expr.grammatical_map_iff (Token.kind_moved _) _).mpr (grammatical_root x), rfl⟩

theorem value_enclosed {x : String} {value : Int} (h : (ofLine x).root.value = .ok value)
    (a : String) : (enclosed a x).value = .ok value := by
  rw [enclosed, Expr.value, Token.moved_eq_relocated, Expr.value_relocated, h]
  rfl

/-- The leaves of a group are among those of a line with the group in it. -/
theorem leaves_root_group {a x b : String}
    (h : (ofLine (a ++ "(" ++ x ++ ")" ++ b)).reports = []) (hx : (ofLine x).reports = []) :
    (ofLine (a ++ "(" ++ x ++ ")" ++ b)).root.leaves =
      (Lexemes.ofLine a).tokens ++ (enclosed a x).leaves ++
        (Lexemes.ofLine b).tokens.map (Token.moved (a.length + 1 + x.length + 1 : Nat)) := by
  rw [leaves_root_of_reports_eq_nil h, Lexemes.tokens_group, enclosed, Expr.leaves, Expr.leaves_map,
    leaves_root_of_reports_eq_nil hx]
  simp

end Tree

/-- Where the content of a group is replaced by one of another length, the lexemes behind the group are
    moved and those in front stay. -/
theorem Lexemes.relocated_around_group (a x y b : String) :
    let place := displaced (a.length + 1) (y.length - x.length)
    (ofLine a).tokens.map (Token.relocated place) = (ofLine a).tokens ∧
      ((ofLine b).tokens.map (Token.moved (a.length + 1 + x.length + 1 : Nat))).map
          (Token.relocated place) =
        (ofLine b).tokens.map (Token.moved (a.length + 1 + y.length + 1 : Nat)) := by
  intro place
  obtain ⟨hbefore, hbehind⟩ := position_of_mem_group a x b
  constructor
  · have hstay : ∀ token ∈ (ofLine a).tokens, token.relocated place = token := by
      intro token hmem
      exact Token.relocated_of_lt (Int.lt_add_one_of_le (Int.le_of_lt (hbefore token hmem))) _
    rw [List.map_congr_left hstay, List.map_id']
  · have hmove : ∀ token ∈
        (ofLine b).tokens.map (Token.moved (a.length + 1 + x.length + 1 : Nat)),
        token.relocated place = token.moved (y.length - x.length) := by
      intro token hmem
      exact Token.relocated_of_le (hbehind token (List.mem_append_right _ (.tail _ hmem))) _
    have hshift : ((a.length + 1 + x.length + 1 : Nat) : Int) + (y.length - x.length) =
        (a.length + 1 + y.length + 1 : Nat) := by omega
    rw [List.map_congr_left hmove, List.map_map]
    simp only [Function.comp_def, Token.moved_moved, hshift]

/-- There is a number of every value at every place. -/
theorem Token.exists_number {value : Int} (h : Word.InRange value) (position : Int) :
    ∃ number : Token, number.position = position ∧ number.value = some value :=
  ⟨⟨.number, position, toString value, some value, rfl, h⟩, rfl, rfl⟩

namespace Line

/-- A line that has a value is read without a report, and its tree has that value, which is a word. -/
theorem Result.of_value?_eq_some {line : String} {value : Int}
    (h : (interpret line).value? = some value) :
    (Tree.ofLine line).reports = [] ∧ (Tree.ofLine line).root.value = .ok value ∧
      Word.InRange value := by
  by_cases hreports : (Tree.ofLine line).reports = []
  · rw [value?, outcome_of_reports_eq_nil hreports] at h
    rcases value_of_reports_eq_nil hreports with ⟨word, hword, hrange⟩ | ⟨position, -, hfault⟩
    · rw [hword] at h ⊢
      obtain rfl : word = value := by simpa using h
      exact ⟨hreports, rfl, hrange⟩
    · rw [hfault] at h
      exact absurd h (by simp)
  · rw [value?, outcome_of_reports_ne_nil hreports] at h
    exact absurd h (by simp)

/-!
### A number in the place of a group
-/

section

variable {a b : String} {number : Token} {value : Int} (hposition : number.position = a.length)
  (hvalue : number.value = some value)
include hposition hvalue

section

variable {x : String} (hreports : (Tree.ofLine (a ++ "(" ++ x ++ ")" ++ b)).reports = [])
  (hx : (interpret x).value? = some value)
include hreports hx

/-- A line with a group has the value of a tree that has a number in the place of the group. -/
theorem exists_tree_of_group :
    ∃ whole : Expr, whole.Grammatical ∧ whole.Evaluable ∧
      whole.leaves = (Lexemes.ofLine a).tokens ++ number ::
        (Lexemes.ofLine b).tokens.map (Token.moved (a.length + 1 + x.length + 1 : Nat)) ∧
      (Tree.ofLine (a ++ "(" ++ x ++ ")" ++ b)).root.value = whole.value := by
  obtain ⟨hcontent, hroot, -⟩ := Result.of_value?_eq_some hx
  obtain ⟨hgrammatical, hnesting, -⟩ := Tree.root_of_reports_eq_nil hreports
  obtain ⟨hbefore, hbehind⟩ := Lexemes.position_of_mem_group a x b
  have hfront : number ∉ (Lexemes.ofLine a).tokens := by
    intro hmem
    exact Int.ne_of_lt (hbefore number hmem) hposition
  have hback : number ∉
      (Lexemes.ofLine b).tokens.map (Token.moved (a.length + 1 + x.length + 1 : Nat)) := by
    intro hmem
    exact Int.ne_of_gt (hbehind number (List.mem_append_right _ (.tail _ hmem))) hposition
  have hleaves := Tree.leaves_root_group hreports hcontent
  obtain ⟨whole, hwhole, hothers, hsame⟩ := Expr.exists_replace hgrammatical hnesting
    (Tree.grammatical_enclosed a x) (by simp [Tree.enclosed, Expr.kind])
    (Token.kind_of_value hvalue) hleaves hfront hback
  have hgroup : (Tree.enclosed a x).value = (Expr.numeral number).value := by
    rw [Tree.value_enclosed hroot, Expr.value, hvalue]
  refine ⟨whole, hwhole, ?_, hothers, by rw [hsame, Expr.value_replace hgroup]⟩
  have hevaluable := evaluable_of_reports_eq_nil hreports
  rw [hsame] at hevaluable
  exact Expr.evaluable_of_replace (by rw [hvalue, Option.isSome_some]) hevaluable

/-- A line with a group that has a value divides by zero only at a division sign in front of or behind
    the group. -/
theorem slash_of_value_group {position : Int}
    (h : (Tree.ofLine (a ++ "(" ++ x ++ ")" ++ b)).root.value =
      .error (.divisionByZero position)) :
    ∃ offset : Nat,
      a.toList[offset]? = some '/' ∧ position = offset ∨
        b.toList[offset]? = some '/' ∧
          position = offset + (a.length + 1 + x.length + 1 : Nat) := by
  obtain ⟨whole, -, hevaluable, hleaves, hsame⟩ :=
    exists_tree_of_group hposition hvalue hreports hx
  rw [hsame] at h
  rcases Expr.value_of_evaluable hevaluable with ⟨word, hword, -⟩ | ⟨operator, hmem, hkind, hfault⟩
  · rw [hword] at h
    exact absurd h (by simp)
  · rw [hfault] at h
    obtain rfl : operator.position = position := by simpa using h
    rw [hleaves, List.mem_append, List.mem_cons, List.mem_map] at hmem
    rcases hmem with hfront | rfl | ⟨token, hback, rfl⟩
    · obtain ⟨offset, hoffset, hslash⟩ :=
        Token.slash_of_mem_scan ((Lexemes.mem_tokens_ofLine_iff a operator).mp hfront).1 hkind
      exact ⟨offset, .inl ⟨hslash, hoffset⟩⟩
    · rw [Token.kind_of_value hvalue] at hkind
      exact absurd hkind (by decide)
    · obtain ⟨offset, hoffset, hslash⟩ :=
        Token.slash_of_mem_scan ((Lexemes.mem_tokens_ofLine_iff b token).mp hback).1 hkind
      exact ⟨offset, .inr ⟨hslash, by rw [Token.position_moved, hoffset]⟩⟩

end

/-- A group in a line can be replaced by another one of the same value: the line has the same value, or
    the same fault at the place to which the division sign is moved. -/
theorem outcome_group {x y : String}
    (hone : (Tree.ofLine (a ++ "(" ++ x ++ ")" ++ b)).reports = [])
    (hother : (Tree.ofLine (a ++ "(" ++ y ++ ")" ++ b)).reports = [])
    (hx : (interpret x).value? = some value) (hy : (interpret y).value? = some value) :
    (interpret (a ++ "(" ++ y ++ ")" ++ b)).outcome =
      (interpret (a ++ "(" ++ x ++ ")" ++ b)).outcome.map
        (Except.mapError (Fault.relocated (displaced (a.length + 1) (y.length - x.length)))) := by
  let place := displaced (a.length + 1) (y.length - x.length)
  obtain ⟨one, hshape, -, hleaves, hvalued⟩ := exists_tree_of_group hposition hvalue hone hx
  obtain ⟨other, hothers, -, hmore, hsame⟩ := exists_tree_of_group hposition hvalue hother hy
  obtain ⟨hfront, hback⟩ := Lexemes.relocated_around_group a x y b
  have hnumber : number.relocated place = number :=
    Token.relocated_of_lt (hposition ▸ Int.lt_succ _) _
  have hmapped : other = one.map (Token.relocated place) := by
    apply Expr.eq_of_leaves_eq hothers
    · exact (Expr.grammatical_map_iff (Token.kind_relocated place) _).mpr hshape
    · rw [hmore, Expr.leaves_map, hleaves, List.map_append, List.map_cons, hfront, hback, hnumber]
  rw [outcome_of_reports_eq_nil hone, outcome_of_reports_eq_nil hother, hsame, hvalued, hmapped,
    Option.map_some, Expr.value_relocated]

end

/-- Groups of the same value can be replaced by one another. If a line with a group in it and the line
    with another content of the group are both read without a diagnostic, and so are the contents,
    which have the same value on their own, then both lines have the same value; or else both divide
    by zero, at the same division sign in front of the group, or at the same one behind the group,
    where it is moved as the length of the content has changed. -/
theorem interpret_group_congr {a b x y : String} {value : Int}
    (hone : (Tree.ofLine (a ++ "(" ++ x ++ ")" ++ b)).diagnostics = [])
    (hother : (Tree.ofLine (a ++ "(" ++ y ++ ")" ++ b)).diagnostics = [])
    (hx : (interpret x).value? = some value) (hy : (interpret y).value? = some value) :
    let one := interpret (a ++ "(" ++ x ++ ")" ++ b)
    let other := interpret (a ++ "(" ++ y ++ ")" ++ b)
    let behind : Int := a.length + 1 + x.length + 1
    (∃ result, one.value? = some result ∧ other.value? = some result) ∨
      one.value? = none ∧ other.value? = none ∧ ∃ offset : Nat,
        a.toList[offset]? = some '/' ∧ one.fault? = some (.divisionByZero offset) ∧
            other.fault? = some (.divisionByZero offset) ∨
          b.toList[offset]? = some '/' ∧ one.fault? = some (.divisionByZero (behind + offset)) ∧
            other.fault? = some (.divisionByZero (behind + offset + (y.length - x.length))) := by
  intro one other behind
  have hreports := List.map_eq_nil_iff.mp hone
  have hothers := List.map_eq_nil_iff.mp hother
  obtain ⟨-, -, hrange⟩ := Result.of_value?_eq_some hx
  obtain ⟨number, hposition, hvalue⟩ := Token.exists_number hrange a.length
  have hmoved := outcome_group hposition hvalue hreports hothers hx hy
  have hvalues : other.value? = one.value? := Result.value?_of_outcome hmoved
  have hfaults : other.fault? = one.fault?.map
      (Fault.relocated (displaced (a.length + 1) (y.length - x.length))) :=
    Result.fault?_of_outcome hmoved
  have houtcome := outcome_of_reports_eq_nil hreports
  rcases value_of_reports_eq_nil hreports with ⟨result, hword, -⟩ | ⟨position, -, hfault⟩
  · rw [hword] at houtcome
    obtain ⟨hresult, -⟩ := Result.of_outcome_ok houtcome
    exact .inl ⟨result, hresult, hvalues.trans hresult⟩
  · obtain ⟨offset, hslash⟩ := slash_of_value_group hposition hvalue hreports hx hfault
    rw [hfault] at houtcome
    obtain ⟨hnone, hdivision⟩ := Result.of_outcome_error houtcome
    refine .inr ⟨hnone, hvalues.trans hnone, offset, ?_⟩
    rw [hfaults, hdivision, Option.map_some, Fault.relocated]
    rcases hslash with ⟨hslash, hoffset⟩ | ⟨hslash, hoffset⟩
    · have hinside : offset < a.length := by
        rw [← String.length_toList]
        exact (List.getElem?_eq_some_iff.mp hslash).1
      rw [hoffset, displaced_of_lt (by omega)]
      exact .inl ⟨hslash, rfl, rfl⟩
    · have hplace : (position : Int) = behind + offset := by
        simp only [behind]
        omega
      rw [hplace, displaced_of_le (by omega)]
      exact .inr ⟨hslash, rfl, rfl⟩

/-- A sum in the place of a difference of the same value, in front of a division by zero. -/
theorem interpret_group_congr_division :
    let a := "2*"
    let b := "/(1-1)"
    let x := "3-1"
    let y := "1 + 1"
    (Tree.ofLine (a ++ "(" ++ x ++ ")" ++ b)).diagnostics = [] ∧
      (Tree.ofLine (a ++ "(" ++ y ++ ")" ++ b)).diagnostics = [] ∧
      (interpret x).value? = some 2 ∧ (interpret y).value? = some 2 ∧
      (interpret (a ++ "(" ++ x ++ ")" ++ b)).fault? = some (.divisionByZero 7) ∧
      (interpret (a ++ "(" ++ y ++ ")" ++ b)).fault? = some (.divisionByZero 9) := by
  intro a b x y
  have hone : (Tree.ofLine (a ++ "(" ++ x ++ ")" ++ b)).diagnostics = [] := by decide +kernel
  have hother : (Tree.ofLine (a ++ "(" ++ y ++ ")" ++ b)).diagnostics = [] := by decide +kernel
  have hx : (interpret x).value? = some 2 := by decide +kernel
  have hy : (interpret y).value? = some 2 := by decide +kernel
  have hfault : (interpret (a ++ "(" ++ x ++ ")" ++ b)).fault? = some (.divisionByZero 7) := by
    decide +kernel
  have hnone : (interpret (a ++ "(" ++ x ++ ")" ++ b)).value? = none := by decide +kernel
  refine ⟨hone, hother, hx, hy, hfault, ?_⟩
  rcases interpret_group_congr hone hother hx hy with ⟨_, hvalue, -⟩ | ⟨-, -, offset, hdivided⟩
  · rw [hnone] at hvalue
    exact absurd hvalue (by simp)
  · rcases hdivided with ⟨hslash, hfirst, -⟩ | ⟨-, hfirst, hlast⟩
    · simp only [hfirst, Option.some.injEq, Fault.divisionByZero.injEq] at hfault
      obtain rfl : offset = 7 := by omega
      exact absurd hslash (by decide)
    · simp only [hfirst, Option.some.injEq, Fault.divisionByZero.injEq] at hfault
      have hshift : (y.length : Int) - x.length = 2 := by decide
      rw [hlast, hfault, hshift]
      rfl

end Line

end Reckoner
