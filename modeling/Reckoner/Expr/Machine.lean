/-
Module: Reckoner.Expr.Machine
Layer: Trees
Purpose: Evaluation with explicit stacks. A long chain of operators is a tree as deep as the chain
  is long, so the tree is walked with a list of tasks and a list of values instead of by recursion.
  The machine tells apart a fault of the tree from a machine that is stuck for want of a value, so
  that "it is never stuck" can be stated; `run_visit` is the invariant from which that follows.
Main exports: Machine.Task, Machine.run, Machine.run_visit, Node.evaluate, Node.evaluate_eq_value
-/
import Reckoner.Expr.Value

namespace Reckoner

namespace Machine

/-- What is still to be done: to evaluate a node, or to apply an operator to the two values on top
    of the value stack, of which the upper is the right operand. -/
inductive Task where
  | visit (n : Node)
  | combine (operator : Token)

/-- The weight of a task: it exceeds the weight of the tasks that replace it. -/
def Task.weight : Task → Nat
  | visit n => n.size
  | combine _ => 1

def totalWeight : List Task → Nat
  | [] => 0
  | task :: tasks => task.weight + totalWeight tasks

@[simp] theorem totalWeight_nil : totalWeight [] = 0 := rfl

@[simp] theorem totalWeight_cons (task : Task) (tasks : List Task) :
    totalWeight (task :: tasks) = task.weight + totalWeight tasks := rfl

/-- Runs the machine until no task is left or a fault is met. It answers `none` if it is stuck: an
    operator finds fewer than two values, or the values left at the end are not exactly one. -/
def run : List Task → List Int → Option (Except Fault Int)
  | [], [v] => some (.ok v)
  | [], _ => none
  | .visit (.leaf token) :: _, _ => some (.error (.unexpectedNode token.kind))
  | .visit (.expr (.numeral token)) :: tasks, values =>
      match token.value with
      | some v => run tasks (v :: values)
      | none => some (.error .missingValue)
  | .visit (.expr (.group _ inner _)) :: tasks, values =>
      run (.visit (.expr inner) :: tasks) values
  | .visit (.expr (.binary left operator right)) :: tasks, values =>
      run (.visit (.expr left) :: .visit (.expr right) :: .combine operator :: tasks) values
  | .combine operator :: tasks, right :: left :: values =>
      match Operator.apply operator left right with
      | .ok v => run tasks (v :: values)
      | .error fault => some (.error fault)
  | .combine _ :: _, _ => none
termination_by tasks => totalWeight tasks
decreasing_by
  all_goals simp only [totalWeight_cons, Task.weight, Node.size, Expr.size]
  all_goals omega

/-- Visiting an expression leaves its value on top of the values, or ends the run with its fault,
    whatever else is on the two stacks. -/
theorem run_visit (e : Expr) (tasks : List Task) (values : List Int) :
    run (.visit (.expr e) :: tasks) values =
      match e.value with
      | .ok v => run tasks (v :: values)
      | .error fault => some (.error fault) := by
  induction e generalizing tasks values with
  | numeral token =>
      rw [run]
      simp only [Expr.value]
      cases token.value <;> rfl
  | group opening inner closing ih =>
      rw [run, ih]
      rfl
  | binary left operator right ihl ihr =>
      rw [run, ihl]
      simp only [Expr.value]
      cases left.value with
      | error fault => rfl
      | ok l =>
          simp only [ihr]
          cases right.value with
          | error fault => rfl
          | ok r => simp only [run]

end Machine

/-- The value of a node, found by the machine. -/
def Node.evaluate (n : Node) : Except Fault Int :=
  match Machine.run [.visit n] [] with
  | some outcome => outcome
  | none => .error (.unexpectedNode n.kind)

theorem Node.evaluate_eq_value (n : Node) : n.evaluate = n.value := by
  cases n with
  | leaf token => simp [Node.evaluate, Node.value, Machine.run]
  | expr e =>
      simp only [Node.evaluate, Node.value, Machine.run_visit]
      cases e.value <;> simp [Machine.run]

end Reckoner
