/-
Module: Reckoner.Proofs.Expr.Order
Layer: Proofs
Purpose: The order in which a tree is evaluated, and which failure ends an evaluation. Evaluation is
  done with a number at once and with a binary node after both of its operands, the left one first.
  The first node in this order that fails decides the outcome, and if none fails there is a value. So
  a failure is never passed over, whatever stands in front of it or behind.
Main exports: Operator.eq_zero_of_apply, Expr.inOrder, Expr.Fails, Expr.ComesTo, Expr.value_cases,
  Expr.value_cases_of_grammatical
-/
import Reckoner.Proofs.Expr.Shape
import Reckoner.Expr.Value

namespace Reckoner

/-- One of the four operators fails on two integers only if it divides by zero. -/
theorem Operator.eq_zero_of_apply {operator : Token} (h : operator.kind.isOperator = true)
    {left right : Int} {fault : Fault} (happly : apply operator left right = .error fault) :
    operator.kind = .slash ∧ right = 0 ∧ fault = .divisionByZero operator.position := by
  unfold apply at happly
  cases hkind : operator.kind with
  | plus => simp [hkind] at happly
  | minus => simp [hkind] at happly
  | star => simp [hkind] at happly
  | slash =>
      by_cases hzero : right = 0
      · simp only [hkind, hzero, ↓reduceIte, Except.error.injEq] at happly
        exact ⟨rfl, hzero, happly.symm⟩
      · simp [hkind, hzero] at happly
  | _ =>
      rw [hkind] at h
      exact absurd h (by decide)

namespace Expr

/-- The numbers and the binary nodes of a tree in the order in which evaluation is done with them. -/
def inOrder : Expr → List Expr
  | numeral token => [numeral token]
  | group _ inner _ => inner.inOrder
  | binary left operator right => left.inOrder ++ right.inOrder ++ [binary left operator right]

/-- A node fails by itself: it is a number without a value, or its operands have values to which its
    operator does not apply. -/
inductive Fails : Expr → Fault → Prop where
  | number {token : Token} (hvalue : token.value = none) : Fails (numeral token) .missingValue
  | operator {left right : Expr} {operator : Token} {l r : Int} {fault : Fault}
      (hleft : left.value = .ok l) (hright : right.value = .ok r)
      (happly : Operator.apply operator l r = .error fault) :
      Fails (binary left operator right) fault

/-- All of some nodes have values. -/
def HaveValues (nodes : List Expr) : Prop :=
  ∀ node ∈ nodes, ∃ value, node.value = .ok value

/-- Evaluation comes to a node of the tree with the nodes `later` still ahead, after all nodes that
    are earlier have had values. -/
def ComesTo (e node : Expr) (later : List Expr) : Prop :=
  ∃ earlier, e.inOrder = earlier ++ node :: later ∧ HaveValues earlier

variable {left right e node : Expr} {operator : Token} {later : List Expr}

theorem HaveValues.append {nodes others : List Expr} (h : HaveValues nodes)
    (hothers : HaveValues others) : HaveValues (nodes ++ others) := by
  intro node hmem
  rcases List.mem_append.mp hmem with hnode | hnode
  · exact h node hnode
  · exact hothers node hnode

theorem HaveValues.singleton {value : Int} (h : node.value = .ok value) : HaveValues [node] := by
  intro other hmem
  rw [List.mem_singleton.mp hmem]
  exact ⟨value, h⟩

/-- What the evaluation of the left operand comes to, that of the binary node comes to. -/
theorem ComesTo.of_left (h : left.ComesTo node later) (operator : Token) (right : Expr) :
    (binary left operator right).ComesTo node
      (later ++ right.inOrder ++ [binary left operator right]) := by
  obtain ⟨earlier, horder, hvalues⟩ := h
  exact ⟨earlier, by simp [inOrder, horder], hvalues⟩

/-- What the evaluation of the right operand comes to, that of the binary node comes to, if the left
    operand has been done with. -/
theorem ComesTo.of_right (hleft : HaveValues left.inOrder) (h : right.ComesTo node later)
    (operator : Token) :
    (binary left operator right).ComesTo node (later ++ [binary left operator right]) := by
  obtain ⟨earlier, horder, hvalues⟩ := h
  exact ⟨left.inOrder ++ earlier, by simp [inOrder, horder], hleft.append hvalues⟩

/-- Evaluation comes to the binary node itself when both operands have been done with. -/
theorem ComesTo.self (hleft : HaveValues left.inOrder) (hright : HaveValues right.inOrder)
    (operator : Token) :
    (binary left operator right).ComesTo (binary left operator right) [] :=
  ⟨left.inOrder ++ right.inOrder, rfl, hleft.append hright⟩

/-- Every tree has a value, and then so has each of its nodes; or it has the fault of the first node
    in the order of evaluation that fails. The induction is on the tree: what fails in an operand
    comes before the node, and in the left operand before all of the right one. -/
theorem value_cases (e : Expr) :
    (∃ value, e.value = .ok value ∧ HaveValues e.inOrder) ∨
      ∃ node later fault, e.ComesTo node later ∧ node.Fails fault ∧ e.value = .error fault := by
  induction e with
  | numeral token =>
      cases hvalue : token.value with
      | some value =>
          have hok : (numeral token).value = .ok value := by rw [Expr.value, hvalue]
          exact .inl ⟨value, hok, .singleton hok⟩
      | none =>
          have hfault : (numeral token).value = .error .missingValue := by rw [Expr.value, hvalue]
          have hfirst : (numeral token).ComesTo (numeral token) [] := ⟨[], rfl, by simp [HaveValues]⟩
          exact .inr ⟨_, _, _, hfirst, .number hvalue, hfault⟩
  | group opening inner closing ih => exact ih
  | binary left operator right ihl ihr =>
      rcases ihl with ⟨l, hl, hlefts⟩ | ⟨node, later, fault, hcomes, hfails, hfault⟩
      · rcases ihr with ⟨r, hr, hrights⟩ | ⟨node, later, fault, hcomes, hfails, hfault⟩
        · have hvalue : (binary left operator right).value = Operator.apply operator l r := by
            rw [Expr.value, hl, hr]
          cases happly : Operator.apply operator l r with
          | ok value =>
              rw [happly] at hvalue
              exact .inl ⟨value, hvalue, (hlefts.append hrights).append (.singleton hvalue)⟩
          | error fault =>
              rw [happly] at hvalue
              exact .inr ⟨_, _, _, .self hlefts hrights operator, .operator hl hr happly, hvalue⟩
        · refine .inr ⟨node, _, fault, .of_right hlefts hcomes operator, hfails, ?_⟩
          rw [Expr.value, hl, hfault]
      · refine .inr ⟨node, _, fault, hcomes.of_left operator right, hfails, ?_⟩
        rw [Expr.value, hfault]

/-!
### Trees of the grammar
-/

/-- The nodes in the order of evaluation have the shape of the grammar if the tree has it. -/
theorem grammatical_of_mem_inOrder (h : e.Grammatical) (hmem : node ∈ e.inOrder) :
    node.Grammatical := by
  induction e with
  | numeral token =>
      rw [List.mem_singleton.mp hmem]
      exact h
  | group opening inner closing ih => exact ih h.2.1 hmem
  | binary left operator right ihl ihr =>
      rw [inOrder, List.mem_append, List.mem_append, List.mem_singleton] at hmem
      rcases hmem with (hleft | hright) | rfl
      · exact ihl h.1 hleft
      · exact ihr h.2.1 hright
      · exact h

/-- The numbers in the order of evaluation are the numbers among the leaves. -/
theorem numeral_mem_inOrder_iff (h : e.Grammatical) (token : Token) :
    numeral token ∈ e.inOrder ↔ token ∈ e.leaves ∧ token.kind = .number := by
  induction e with
  | numeral number =>
      have hkind : number.kind = .number := h
      simp only [inOrder, leaves, List.mem_singleton, numeral.injEq]
      constructor
      · rintro rfl
        exact ⟨rfl, hkind⟩
      · exact And.left
  | group opening inner closing ih =>
      obtain ⟨hopening, hinner, hclosing⟩ := h
      rw [inOrder, ih hinner, leaves, List.mem_cons, List.mem_append, List.mem_singleton]
      constructor
      · rintro ⟨hmem, hkind⟩
        exact ⟨.inr (.inl hmem), hkind⟩
      · rintro ⟨rfl | hmem | rfl, hkind⟩
        · rw [hopening] at hkind
          exact absurd hkind (by decide)
        · exact ⟨hmem, hkind⟩
        · rw [hclosing] at hkind
          exact absurd hkind (by decide)
  | binary left operator right ihl ihr =>
      have hoperator : operator.kind ≠ .number :=
        Kind.ne_of_isOperator (isOperator_of_grammatical h) rfl
      rw [inOrder, List.mem_append, List.mem_append, List.mem_singleton, ihl h.1, ihr h.2.1, leaves,
        List.mem_append, List.mem_cons]
      constructor
      · rintro ((⟨hmem, hkind⟩ | ⟨hmem, hkind⟩) | heq)
        · exact ⟨.inl hmem, hkind⟩
        · exact ⟨.inr (.inr hmem), hkind⟩
        · exact absurd heq (by simp)
      · rintro ⟨hmem | rfl | hmem, hkind⟩
        · exact .inl (.inl ⟨hmem, hkind⟩)
        · exact absurd hkind hoperator
        · exact .inl (.inr ⟨hmem, hkind⟩)

/-- In a tree of the grammar only a number without a value and a division by zero fail. -/
theorem Fails.cases_of_grammatical {fault : Fault} (h : node.Fails fault)
    (hgrammatical : node.Grammatical) :
    (∃ number, node = numeral number ∧ number.value = none ∧ fault = .missingValue) ∨
      ∃ left slash right, node = binary left slash right ∧ slash.kind = .slash ∧
        right.value = .ok 0 ∧ fault = .divisionByZero slash.position := by
  cases h with
  | number hvalue => exact .inl ⟨_, rfl, hvalue, rfl⟩
  | operator hleft hright happly =>
      obtain ⟨hkind, rfl, hfault⟩ :=
        Operator.eq_zero_of_apply (isOperator_of_grammatical hgrammatical) happly
      exact .inr ⟨_, _, _, rfl, hkind, hright, hfault⟩

/-- A tree of the grammar has a value, and so have all its nodes; or evaluation comes first to a number
    without a value; or it comes first to a division by zero. -/
theorem value_cases_of_grammatical (h : e.Grammatical) :
    (∃ value, e.value = .ok value ∧ HaveValues e.inOrder) ∨
      (∃ number later, e.ComesTo (numeral number) later ∧ number.value = none ∧
        e.value = .error .missingValue) ∨
      ∃ left slash right later, e.ComesTo (binary left slash right) later ∧ slash.kind = .slash ∧
        right.value = .ok 0 ∧ e.value = .error (.divisionByZero slash.position) := by
  rcases e.value_cases with hvalued | ⟨node, later, fault, hcomes, hfails, hfault⟩
  · exact .inl hvalued
  · have hnode : node ∈ e.inOrder := by
      obtain ⟨earlier, horder, -⟩ := hcomes
      simp [horder]
    rcases hfails.cases_of_grammatical (grammatical_of_mem_inOrder h hnode) with
      ⟨number, rfl, hnumber, rfl⟩ | ⟨left, slash, right, rfl, hslash, hzero, rfl⟩
    · exact .inr (.inl ⟨number, later, hcomes, hnumber, hfault⟩)
    · exact .inr (.inr ⟨left, slash, right, later, hcomes, hslash, hzero, hfault⟩)

end Expr

end Reckoner
