/-
Module: Reckoner.Proofs.Grammar.Shape
Layer: Proofs
Purpose: Derivations and trees of the grammar are the same thing in two forms. The tree of a
  derivation has its tokens as leaves and the shape that the grammar prescribes, and every tree of
  that shape is the tree of a derivation. So what is known of reading derivations is known of
  reading trees.
Main exports: Grammar.leaves_tree, Grammar.grammatical_tree, Grammar.exists_derivation_iff
-/
import Reckoner.Proofs.Expr.Shape
import Reckoner.Proofs.Grammar

namespace Reckoner.Grammar

section Chain

variable {joins : Kind → Bool} {α : Type}

/-- What holds of the trees of all operands, and of a tree with one more operand if it holds of the
    tree, holds of the trees of all rows. -/
theorem Chain.tree_induction {P : Expr → Prop} {tree : α → Expr} (first : ∀ a, P (tree a))
    (snoc : ∀ left (operator : Terminal joins) a, P left → P (.binary left operator.token (tree a)))
    (chain : Chain joins α) : P (chain.tree tree) := by
  obtain ⟨a, others⟩ := chain
  suffices ∀ left, P left →
      P (others.foldl (fun left other => .binary left other.1.token (tree other.2)) left) from
    this (tree a) (first a)
  induction others with
  | nil => exact fun left hleft => hleft
  | cons other others ih => exact fun left hleft => ih _ (snoc left other.1 other.2 hleft)

/-- The leaves of the tree of a row are the tokens of the row, if that is so for its operands. -/
theorem Chain.leaves_tree {yield : α → List Token} {tree : α → Expr}
    (h : ∀ a, (tree a).leaves = yield a) (chain : Chain joins α) :
    (chain.tree tree).leaves = chain.yield yield := by
  obtain ⟨first, others⟩ := chain
  suffices ∀ left : Expr,
      (others.foldl (fun left other => .binary left other.1.token (tree other.2)) left).leaves =
        left.leaves ++ others.flatMap fun other => other.1.token :: yield other.2 by
    rw [Chain.tree, Chain.yield, this, h]
  induction others with
  | nil => simp
  | cons other others ih =>
      intro left
      rw [List.foldl_cons, ih, Expr.leaves, h]
      simp

def Chain.single (joins : Kind → Bool) (a : α) : Chain joins α :=
  ⟨a, []⟩

def Chain.snoc (chain : Chain joins α) (operator : Terminal joins) (a : α) : Chain joins α :=
  ⟨chain.first, chain.others ++ [(operator, a)]⟩

@[simp] theorem Chain.tree_snoc (tree : α → Expr) (chain : Chain joins α)
    (operator : Terminal joins) (a : α) :
    (chain.snoc operator a).tree tree = .binary (chain.tree tree) operator.token (tree a) := by
  simp [Chain.snoc, Chain.tree]

end Chain

/-!
### Leaves
-/

/-- The leaves of the tree of a primary are its tokens. -/
theorem Primary.leaves_tree {α : Type} {yield : α → List Token} {tree : α → Expr}
    (h : ∀ a, (tree a).leaves = yield a) (primary : Primary α) :
    (primary.tree tree).leaves = primary.yield yield := by
  cases primary with
  | number token isNumber => rfl
  | group opening content closing isOpening isClosing =>
      rw [Primary.tree, Expr.leaves, h, Primary.yield]

/-- The leaves of the tree inside a group are its tokens. -/
theorem Nested.leaves_tree (room : Nat) (content : Nested room) :
    (content.tree room).leaves = content.yield room := by
  induction room with
  | zero => exact content.elim
  | succ room ih => exact Chain.leaves_tree (Chain.leaves_tree (Primary.leaves_tree ih)) content

/-- The leaves of the tree of a derivation are its tokens. -/
theorem leaves_tree {room : Nat} (derivation : Derivation room) :
    derivation.tree.leaves = derivation.yield :=
  Nested.leaves_tree (room + 1) derivation

/-!
### From derivations to trees
-/

theorem isAdditive_eq_false_of_isMultiplicative {kind : Kind} (h : kind.isMultiplicative = true) :
    kind.isAdditive = false := by
  cases kind <;> simp_all [Kind.isAdditive, Kind.isMultiplicative]

section

variable {α : Type} {tree : α → Expr} {room : Nat}

/-- A primary has the shape of the grammar and is not binary, given that what groups contain has the
    shape of the grammar and is nested less deep than there is room. -/
theorem Primary.grammatical_tree (h : ∀ a, (tree a).Grammatical ∧ (tree a).nesting < room)
    (primary : Primary α) :
    (primary.tree tree).Grammatical ∧ (primary.tree tree).nesting ≤ room ∧
      (primary.tree tree).kind ≠ .binary := by
  cases primary with
  | number token isNumber => exact ⟨isNumber, Nat.zero_le room, by simp [Primary.tree, Expr.kind]⟩
  | group opening content closing isOpening isClosing =>
      obtain ⟨hcontent, hnesting⟩ := h content
      exact ⟨⟨isOpening, hcontent, isClosing⟩, hnesting, by simp [Primary.tree, Expr.kind]⟩

/-- A row of primaries has the shape of the grammar and is no sum. -/
theorem Chain.grammatical_factor
    (h : ∀ a, (tree a).Grammatical ∧ (tree a).nesting ≤ room ∧ (tree a).kind ≠ .binary)
    (factor : Chain Kind.isMultiplicative α) :
    (factor.tree tree).Grammatical ∧ (factor.tree tree).nesting ≤ room ∧
      ¬ (factor.tree tree).IsSum := by
  apply Chain.tree_induction (P := fun e => e.Grammatical ∧ e.nesting ≤ room ∧ ¬ e.IsSum)
  · intro a
    obtain ⟨hgrammatical, hnesting, hkind⟩ := h a
    exact ⟨hgrammatical, hnesting, Expr.not_isSum_of_kind_ne hkind⟩
  · intro left operator a hleft
    obtain ⟨hgrammatical, hnesting, hkind⟩ := h a
    refine ⟨⟨hleft.1, hgrammatical, .inr ⟨operator.fits, hleft.2.2, hkind⟩⟩, ?_, ?_⟩
    · exact Nat.max_le.mpr ⟨hleft.2.1, hnesting⟩
    · rw [Expr.IsSum, isAdditive_eq_false_of_isMultiplicative operator.fits]
      simp

theorem Chain.grammatical_term
    (h : ∀ a, (tree a).Grammatical ∧ (tree a).nesting ≤ room ∧ ¬ (tree a).IsSum)
    (term : Chain Kind.isAdditive α) :
    (term.tree tree).Grammatical ∧ (term.tree tree).nesting ≤ room := by
  apply Chain.tree_induction (P := fun e => e.Grammatical ∧ e.nesting ≤ room)
  · intro a
    exact ⟨(h a).1, (h a).2.1⟩
  · intro left operator a hleft
    obtain ⟨hgrammatical, hnesting, hsum⟩ := h a
    exact ⟨⟨hleft.1, hgrammatical, .inl ⟨operator.fits, hsum⟩⟩,
      Nat.max_le.mpr ⟨hleft.2, hnesting⟩⟩

end

/-- The tree inside a group has the shape of the grammar, and it is nested less deep than there is
    room. -/
theorem Nested.grammatical_tree (room : Nat) (content : Nested room) :
    (content.tree room).Grammatical ∧ (content.tree room).nesting < room := by
  induction room with
  | zero => exact content.elim
  | succ room ih =>
      have hterm := Chain.grammatical_term
        (Chain.grammatical_factor (Primary.grammatical_tree ih)) content
      exact ⟨hterm.1, Nat.lt_succ_of_le hterm.2⟩

/-- The tree of a derivation has the shape of the grammar, and it is nested at most as deep as there
    is room. -/
theorem grammatical_tree {room : Nat} (derivation : Derivation room) :
    derivation.tree.Grammatical ∧ derivation.tree.nesting ≤ room := by
  have h := Nested.grammatical_tree (room + 1) derivation
  exact ⟨h.1, Nat.le_of_lt_succ h.2⟩

/-!
### From trees to derivations
-/

/-- The tree is that of a primary, of a factor or of a term, as far as its shape allows. -/
structure Derived (room : Nat) (e : Expr) : Prop where
  primary : e.kind ≠ .binary → ∃ primary, Primary.tree (Nested.tree room) primary = e
  factor : ¬ e.IsSum →
    ∃ factor : Factor (Nested room), factor.tree (Primary.tree (Nested.tree room)) = e
  term : ∃ derivation : Derivation room, derivation.tree = e

/-- A factor is a term on its own. -/
theorem exists_term_of_factor {room : Nat} {e : Expr}
    (h : ∃ factor : Factor (Nested room), factor.tree (Primary.tree (Nested.tree room)) = e) :
    ∃ derivation : Derivation room, derivation.tree = e := by
  obtain ⟨factor, rfl⟩ := h
  exact ⟨Chain.single _ factor, rfl⟩

theorem derived_of_primary {room : Nat} {e : Expr}
    (h : ∃ primary, Primary.tree (Nested.tree room) primary = e) : Derived room e := by
  obtain ⟨primary, rfl⟩ := h
  have hfactor : ∃ factor : Factor (Nested room),
      factor.tree (Primary.tree (Nested.tree room)) = primary.tree (Nested.tree room) :=
    ⟨Chain.single _ primary, rfl⟩
  exact ⟨fun _ => ⟨primary, rfl⟩, fun _ => hfactor, exists_term_of_factor hfactor⟩

/-- Every tree of the grammar is derived where there is room for its groups. -/
theorem derived_of_grammatical {e : Expr} (h : e.Grammatical) {room : Nat}
    (hroom : e.nesting ≤ room) : Derived room e := by
  induction e generalizing room with
  | numeral token => exact derived_of_primary ⟨.number token h, rfl⟩
  | group opening inner closing ih =>
      obtain ⟨isOpening, hinner, isClosing⟩ := h
      cases room with
      | zero => exact absurd hroom (by simp [Expr.nesting])
      | succ room =>
          obtain ⟨content, rfl⟩ := (ih hinner (Nat.le_of_succ_le_succ hroom)).term
          exact derived_of_primary ⟨.group opening content closing isOpening isClosing, rfl⟩
  | binary left operator right ihl ihr =>
      obtain ⟨hleft, hright, hoperator⟩ := h
      have hleft := ihl hleft (Nat.le_trans (Nat.le_max_left _ _) hroom)
      have hright := ihr hright (Nat.le_trans (Nat.le_max_right _ _) hroom)
      rcases hoperator with ⟨hadditive, hsum⟩ | ⟨hmultiplicative, hsum, hkind⟩
      · obtain ⟨term, hterm⟩ := hleft.term
        obtain ⟨factor, hfactor⟩ := hright.factor hsum
        refine ⟨fun hne => absurd rfl hne, fun hne => absurd hadditive hne,
          term.snoc ⟨operator, hadditive⟩ factor, ?_⟩
        rw [Derivation.tree, Chain.tree_snoc, hfactor]
        exact congrArg (Expr.binary · operator right) hterm
      · obtain ⟨factor, rfl⟩ := hleft.factor hsum
        obtain ⟨primary, rfl⟩ := hright.primary hkind
        have hfactor : ∃ whole : Factor (Nested room),
            whole.tree (Primary.tree (Nested.tree room)) =
              .binary (factor.tree (Primary.tree (Nested.tree room))) operator
                (primary.tree (Nested.tree room)) :=
          ⟨factor.snoc ⟨operator, hmultiplicative⟩ primary, Chain.tree_snoc _ _ _ _⟩
        exact ⟨fun hne => absurd rfl hne, fun _ => hfactor, exists_term_of_factor hfactor⟩

/-- The trees of derivations are the trees of the grammar whose groups are not nested too deep. -/
theorem exists_derivation_iff (room : Nat) (e : Expr) :
    (∃ derivation : Derivation room, derivation.tree = e) ↔ e.Grammatical ∧ e.nesting ≤ room := by
  constructor
  · rintro ⟨derivation, rfl⟩
    exact grammatical_tree derivation
  · intro h
    exact (derived_of_grammatical h.1 h.2).term

end Reckoner.Grammar
