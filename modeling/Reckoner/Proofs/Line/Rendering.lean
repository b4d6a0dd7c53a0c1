/-
Module: Reckoner.Proofs.Line.Rendering
Layer: Proofs
Purpose: The fully parenthesized text of a line says what the line says. If there is room for its
  groups, it is read without a diagnostic. What is read has more groups than the tree of the line, but
  without groups the two are the same tree with its tokens at other places. So both lines have the same
  value, or they divide by zero at the same division sign.
Main exports: Tree.ofLine_written, Tree.ofLine_text, Line.interpret_text
-/
import Reckoner.Proofs.Expr.Bracketed
import Reckoner.Proofs.Line.Outcome
import Reckoner.Proofs.Tree.Group
import Reckoner.Proofs.Tree.Layout

namespace Reckoner

/-- A token that can be scanned again is the same, but for its place, wherever it is written. -/
theorem Token.Genuine.placeless_writtenAt {token : Token} (h : token.Genuine) (position : Nat) :
    (token.writtenAt position).placeless = token.placeless := by
  obtain ⟨kind, start, text, value, sound⟩ := token
  by_cases hkind : kind = .number
  · have hvalue : value = Numeral.decode text.toList := h.decoded hkind
    subst hkind hvalue
    simp [writtenAt, placeless, Scanner.numberToken]
  · have hvalue : value = none := by
      cases value with
      | none => rfl
      | some value => exact absurd sound.1 hkind
    subst hvalue
    simp [writtenAt, placeless, plain, hkind]

/-- Both parentheses that are written around groups can be scanned again. -/
theorem Expr.genuine_parentheses : opener.Genuine ∧ closer.Genuine :=
  ⟨⟨by decide, fun hkind => absurd hkind (by decide)⟩,
    ⟨by decide, fun hkind => absurd hkind (by decide)⟩⟩

namespace Tree

/-- A line on which the leaves of a tree of the grammar are written is read as this tree, the tokens
    being where they are written, as long as there is room for its groups. -/
theorem ofLine_written {e : Expr} (h : e.Grammatical) (hgenuine : ∀ token ∈ e.leaves, token.Genuine)
    {line : String} (hwritten : Written e.leaves line.toList)
    (hnested : NestedWithin 128 (Token.significant line)) :
    (ofLine line).reports = [] ∧
      (ofLine line).root.map Token.placeless = e.map Token.placeless := by
  obtain ⟨gap, hgap, htext⟩ := hwritten.exists_spread
  have hline : line = String.ofList (spread gap e.leaves) := by rw [htext, String.ofList_toList]
  have hspelled : ∀ token ∈ e.leaves, token.Spelled := fun token hmem => (hgenuine token hmem).spelled
  have hapart := Expr.numbersApart_leaves h
  have hscan : (Lexemes.ofLine line).reports = [] := by
    rw [hline]
    exact reports_spread_eq_nil hspelled hapart hgap
  have hplace : Token.significant line = place 0 gap e.leaves := by
    rw [hline]
    exact significant_eq_place hspelled hapart hgap
  -- The tokens that are scanned are the leaves of a tree that differs from the given one in places.
  obtain ⟨other, hleaves, hother⟩ := Expr.exists_leaves_eq
    (map_place_of_mem (fun token hmem => (hgenuine token hmem).placeless_writtenAt) 0 gap)
  have hgrammatical : other.Grammatical := by
    rw [← Expr.grammatical_map_iff Token.kind_placeless, hother,
      Expr.grammatical_map_iff Token.kind_placeless]
    exact h
  rw [← hleaves] at hplace
  rw [hplace] at hnested
  have hdeep := (Expr.nestedWithin_leaves_iff hgrammatical 128).mp hnested
  rw [ofLine, ofLexemes_of_leaves hgrammatical hdeep
    ((tokens_ofLine_eq_significant hscan).trans hplace), hscan]
  exact ⟨rfl, hother⟩

/-- The fully parenthesized text of a line that is read without a report is read as the tree of that
    text, as long as there is room for its groups. -/
theorem ofLine_text {line : String} (h : (ofLine line).reports = [])
    (hnested : NestedWithin 128 (Token.significant (ofLine line).root.text)) :
    (ofLine (ofLine line).root.text).reports = [] ∧
      (ofLine (ofLine line).root.text).root.map Token.placeless =
        (ofLine line).root.bracketed.map Token.placeless := by
  obtain ⟨hgrammatical, -, hleaves⟩ := root_of_reports_eq_nil h
  have hscan := ((reports_ofLine_eq_nil_iff line).mp h).1
  refine ofLine_written (Expr.grammatical_bracketed hgrammatical) ?_ (Expr.written_text _) hnested
  intro token hmem
  rcases Expr.mem_leaves_bracketed hmem with hleaf | rfl | rfl
  · rw [hleaves] at hleaf
    exact Token.genuine_of_mem_significant hscan hleaf
  · exact Expr.genuine_parentheses.1
  · exact Expr.genuine_parentheses.2

end Tree

namespace Line

/-- If two lines are read without a report, and as trees that agree but for groups and places, they
    have the same value, or they divide by zero at division signs that are at the same place among the
    leaves of what is left of the two trees without their groups. -/
theorem outcome_of_ungrouped {one other : String} (hone : (Tree.ofLine one).reports = [])
    (hother : (Tree.ofLine other).reports = [])
    (h : (Tree.ofLine one).root.ungrouped.map Token.placeless =
      (Tree.ofLine other).root.ungrouped.map Token.placeless) :
    (∃ value, (interpret one).value? = some value ∧ (interpret other).value? = some value) ∨
      ∃ slash sign,
        (slash, sign) ∈ (Tree.ofLine one).root.ungrouped.leaves.zip
          (Tree.ofLine other).root.ungrouped.leaves ∧
        slash.kind = .slash ∧ sign.kind = .slash ∧
        (interpret one).fault? = some (.divisionByZero slash.position) ∧
        (interpret other).fault? = some (.divisionByZero sign.position) := by
  have hleft := outcome_of_reports_eq_nil hone
  have hright := outcome_of_reports_eq_nil hother
  rw [← Expr.value_ungrouped] at hleft hright
  rcases Expr.value_of_map_eq Token.kind_placeless (fun _ => rfl) h
    (evaluable_of_reports_eq_nil hone).ungrouped with
    ⟨value, hvalue, hsame⟩ | ⟨slash, sign, hmem, hslash, hsign, hfault, hsame⟩
  · rw [hvalue] at hleft
    rw [hsame] at hright
    exact .inl ⟨value, (Result.of_outcome_ok hleft).1, (Result.of_outcome_ok hright).1⟩
  · rw [hfault] at hleft
    rw [hsame] at hright
    exact .inr ⟨slash, sign, hmem, hslash, hsign, (Result.of_outcome_error hleft).2,
      (Result.of_outcome_error hright).2⟩

/-- The fully parenthesized text of a line is faithful. If a line is read without a diagnostic and no
    group of its text lies inside more than 127 others, the text is read without a diagnostic. If all
    groups of the two trees make way for their contents, the same tree is left, with the same texts and
    values of numbers, and only the places of its tokens differ. Both lines have the same value, or
    both divide by zero, at division signs that are at the same place among the leaves of the tree that
    is left. -/
theorem interpret_text {line : String} (h : (Tree.ofLine line).diagnostics = [])
    (hnested : NestedWithin 128 (Token.significant (Tree.ofLine line).root.text)) :
    let root := (Tree.ofLine line).root
    let text := root.text
    let other := (Tree.ofLine text).root
    (Tree.ofLine text).diagnostics = [] ∧
      other.ungrouped.map Token.placeless = root.ungrouped.map Token.placeless ∧
      ((∃ value, (interpret line).value? = some value ∧ (interpret text).value? = some value) ∨
        ∃ slash sign, (slash, sign) ∈ root.ungrouped.leaves.zip other.ungrouped.leaves ∧
          slash.kind = .slash ∧ sign.kind = .slash ∧
          (interpret line).fault? = some (.divisionByZero slash.position) ∧
          (interpret text).fault? = some (.divisionByZero sign.position)) := by
  intro root text other
  have hreports : (Tree.ofLine line).reports = [] := List.map_eq_nil_iff.mp h
  obtain ⟨hread, hroot⟩ := Tree.ofLine_text hreports hnested
  have hungrouped : other.ungrouped.map Token.placeless = root.ungrouped.map Token.placeless :=
    calc other.ungrouped.map Token.placeless
      _ = (other.map Token.placeless).ungrouped := (Expr.ungrouped_map _ _).symm
      _ = (root.bracketed.map Token.placeless).ungrouped := congrArg Expr.ungrouped hroot
      _ = root.bracketed.ungrouped.map Token.placeless := Expr.ungrouped_map _ _
      _ = root.ungrouped.map Token.placeless := by rw [Expr.ungrouped_bracketed]
  exact ⟨List.map_eq_nil_iff.mpr hread, hungrouped,
    outcome_of_ungrouped hreports hread hungrouped.symm⟩

/-- A division by a group that is zero, at the start of a product. -/
theorem interpret_text_division :
    let line := "7/(2 - 2) * 03"
    let root := (Tree.ofLine line).root
    let text := root.text
    let other := (Tree.ofLine text).root
    text = "((7 / ((2 - 2))) * 03)" ∧ (Tree.ofLine line).diagnostics = [] ∧
      NestedWithin 128 (Token.significant text) ∧ (Tree.ofLine text).diagnostics = [] ∧
      other.ungrouped.map Token.placeless = root.ungrouped.map Token.placeless ∧
      ∃ slash sign, (slash, sign) ∈ root.ungrouped.leaves.zip other.ungrouped.leaves ∧
        slash.kind = .slash ∧ slash.position = 1 ∧ sign.kind = .slash ∧
        (interpret text).fault? = some (.divisionByZero sign.position) := by
  intro line root text other
  have htext : text = "((7 / ((2 - 2))) * 03)" := by decide +kernel
  have hdiagnostics : (Tree.ofLine line).diagnostics = [] := by decide +kernel
  have hfault : (interpret line).fault? = some (.divisionByZero 1) := by decide +kernel
  have hnone : (interpret line).value? = none := by decide +kernel
  have hnested : NestedWithin 128 (Token.significant text) := by
    have hreports : (Tree.ofLine text).reports = [] := by
      rw [htext]
      decide +kernel
    obtain ⟨hgrammatical, hdeep, hleaves⟩ := Tree.root_of_reports_eq_nil hreports
    rw [← hleaves]
    exact (Expr.nestedWithin_leaves_iff hgrammatical 128).mpr hdeep
  obtain ⟨hread, hungrouped, ⟨value, hvalue, -⟩ |
    ⟨slash, sign, hmem, hslash, hsign, hone, hother⟩⟩ := interpret_text hdiagnostics hnested
  · rw [hnone] at hvalue
    exact absurd hvalue (by simp)
  · rw [hfault] at hone
    have hposition : slash.position = 1 := by simpa using hone.symm
    exact ⟨htext, hdiagnostics, hnested, hread, hungrouped, slash, sign, hmem, hslash, hposition,
      hsign, hother⟩

end Line

end Reckoner
