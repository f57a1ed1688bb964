import Mathlib.Data.List.Basic
import Mathlib.Logic.Function.Basic

/-!
Graph patterns and their solutions: triple patterns, inline data, joins, optional parts and filters over
values of any kind, and the statements that a template constructs from the solutions.
-/

namespace Sparql

variable {Var Value : Type}

abbrev Solution (Var Value : Type) := Var → Option Value

def Solution.empty : Solution Var Value := fun _ => none

inductive Slot (Var Value : Type) where
  | var (name : Var)
  | value (value : Value)

structure Statement (Part : Type) where
  subject : Part
  predicate : Part
  object : Part
deriving DecidableEq, Repr

inductive Pattern (Var Value : Type) where
  | triple (subject predicate object : Slot Var Value)
  | values (names : List Var) (rows : List (List Value))
  | join (left right : Pattern Var Value)
  | optional (inner extra : Pattern Var Value)
  | filter (condition : Solution Var Value → Bool) (inner : Pattern Var Value)
  | notExists (inner absent : Pattern Var Value)

section Evaluation

variable [DecidableEq Var] [DecidableEq Value]

/-- The solution in which the slot has the value, if it can have it. -/
def Solution.unify (solution : Solution Var Value) (slot : Slot Var Value) (value : Value) :
    Option (Solution Var Value) :=
  match slot with
  | .value constant => if constant = value then some solution else none
  | .var name =>
      match solution name with
      | none => some (Function.update solution name (some value))
      | some held => if held = value then some solution else none

def Solution.unifyAll : List (Slot Var Value × Value) → Solution Var Value →
    Option (Solution Var Value)
  | [], solution => some solution
  | (slot, value) :: rest, solution => (solution.unify slot value).bind (Solution.unifyAll rest)

/-- The solutions of a pattern that extend one at hand. -/
def eval (graph : List (Statement Value)) : Pattern Var Value → Solution Var Value →
    List (Solution Var Value)
  | .triple subject predicate object, solution =>
      graph.filterMap fun held => Solution.unifyAll
        [(subject, held.subject), (predicate, held.predicate), (object, held.object)] solution
  | .values names rows, solution =>
      rows.filterMap fun row => Solution.unifyAll ((names.map .var).zip row) solution
  | .join left right, solution => (eval graph left solution).flatMap (eval graph right)
  | .optional inner extra, solution =>
      (eval graph inner solution).flatMap fun found =>
        if (eval graph extra found).isEmpty then [found] else eval graph extra found
  | .filter condition inner, solution => (eval graph inner solution).filter condition
  | .notExists inner absent, solution =>
      (eval graph inner solution).filter fun found => (eval graph absent found).isEmpty

/-- The value of a slot in a solution. -/
def Solution.get (solution : Solution Var Value) : Slot Var Value → Option Value
  | .var name => solution name
  | .value constant => some constant

/-- A template's statement in a solution; one with an unbound part is left out. -/
def Solution.instantiate (solution : Solution Var Value) (statement : Statement (Slot Var Value)) :
    Option (Statement Value) := do
  some ⟨← solution.get statement.subject, ← solution.get statement.predicate,
    ← solution.get statement.object⟩

def construct (graph : List (Statement Value)) (template : List (Statement (Slot Var Value)))
    (pattern : Pattern Var Value) : List (Statement Value) :=
  (eval graph pattern .empty).flatMap fun solution => template.filterMap solution.instantiate

/-- The values of one variable in the solutions. -/
def select (graph : List (Statement Value)) (name : Var) (pattern : Pattern Var Value) : List Value :=
  (eval graph pattern .empty).filterMap (· name)

variable {graph : List (Statement Value)} {solution found : Solution Var Value}

theorem unify_value (constant value : Value) : solution.unify (.value constant) value =
    if constant = value then some solution else none := rfl

theorem unify_get {slot : Slot Var Value} {held value : Value} (known : solution.get slot = some held) :
    solution.unify slot value = some found ↔ held = value ∧ solution = found := by
  cases slot with
  | value constant =>
      obtain rfl := Option.some.inj known
      simp [unify_value]
  | var name =>
      have bound : solution name = some held := known
      simp [Solution.unify, bound]

theorem unify_free {name : Var} {value : Value} (free : solution name = none) :
    solution.unify (.var name) value = some (Function.update solution name (some value)) := by
  simp only [Solution.unify, free]

theorem unifyAll_nil (solution : Solution Var Value) :
    Solution.unifyAll [] solution = some solution := rfl

theorem unifyAll_cons (slot : Slot Var Value) (value : Value) (rest : List (Slot Var Value × Value))
    (solution : Solution Var Value) : Solution.unifyAll ((slot, value) :: rest) solution =
      (solution.unify slot value).bind (Solution.unifyAll rest) := rfl

theorem eval_triple (subject predicate object : Slot Var Value) :
    eval graph (.triple subject predicate object) solution =
      graph.filterMap fun held => Solution.unifyAll
        [(subject, held.subject), (predicate, held.predicate), (object, held.object)] solution := rfl

theorem eval_values (names : List Var) (rows : List (List Value)) :
    eval graph (.values names rows) solution =
      rows.filterMap fun row => Solution.unifyAll ((names.map .var).zip row) solution := rfl

theorem eval_join (left right : Pattern Var Value) : eval graph (.join left right) solution =
    (eval graph left solution).flatMap (eval graph right) := rfl

theorem eval_optional (inner extra : Pattern Var Value) :
    eval graph (.optional inner extra) solution = (eval graph inner solution).flatMap fun found =>
      if (eval graph extra found).isEmpty then [found] else eval graph extra found := rfl

theorem eval_filter (condition : Solution Var Value → Bool) (inner : Pattern Var Value) :
    eval graph (.filter condition inner) solution = (eval graph inner solution).filter condition := rfl

theorem eval_notExists (inner absent : Pattern Var Value) :
    eval graph (.notExists inner absent) solution =
      (eval graph inner solution).filter fun found => (eval graph absent found).isEmpty := rfl

/-- A triple pattern is a statement of the graph whose parts the slots take one after another. -/
theorem mem_triple {subject predicate object : Slot Var Value} :
    found ∈ eval graph (.triple subject predicate object) solution ↔
      ∃ held ∈ graph, ∃ first, solution.unify subject held.subject = some first ∧
        ∃ second, first.unify predicate held.predicate = some second ∧
          second.unify object held.object = some found := by
  simp only [eval_triple, List.mem_filterMap, unifyAll_cons, Option.bind_eq_some_iff]
  simp only [unifyAll_nil, Option.some.injEq, exists_eq_right]

@[simp] theorem mem_join {left right : Pattern Var Value} :
    found ∈ eval graph (.join left right) solution ↔
      ∃ middle ∈ eval graph left solution, found ∈ eval graph right middle := by
  rw [eval_join, List.mem_flatMap]

@[simp] theorem mem_filter {condition : Solution Var Value → Bool} {inner : Pattern Var Value} :
    found ∈ eval graph (.filter condition inner) solution ↔
      found ∈ eval graph inner solution ∧ condition found = true := by
  rw [eval_filter, List.mem_filter]

@[simp] theorem mem_notExists {inner absent : Pattern Var Value} :
    found ∈ eval graph (.notExists inner absent) solution ↔
      found ∈ eval graph inner solution ∧ ∀ other, other ∉ eval graph absent found := by
  rw [eval_notExists, List.mem_filter, List.isEmpty_iff, List.eq_nil_iff_forall_not_mem]

@[simp] theorem mem_optional {inner extra : Pattern Var Value} :
    found ∈ eval graph (.optional inner extra) solution ↔
      (∃ middle ∈ eval graph inner solution, found ∈ eval graph extra middle) ∨
      found ∈ eval graph inner solution ∧ ∀ other, other ∉ eval graph extra found := by
  simp only [eval_optional, List.mem_flatMap, List.isEmpty_iff]
  constructor
  · rintro ⟨middle, before, after⟩
    split at after
    · rename_i none
      rw [List.mem_singleton.mp after]
      exact Or.inr ⟨before, by simp [none]⟩
    · exact Or.inl ⟨middle, before, after⟩
  · rintro (⟨middle, before, after⟩ | ⟨before, absent⟩)
    · refine ⟨middle, before, ?_⟩
      rw [if_neg (List.ne_nil_of_mem after)]
      exact after
    · refine ⟨found, before, ?_⟩
      rw [if_pos (List.eq_nil_iff_forall_not_mem.mpr absent)]
      exact List.mem_singleton_self found

theorem mem_select {name : Var} {pattern : Pattern Var Value} {value : Value} :
    value ∈ select graph name pattern ↔ ∃ found ∈ eval graph pattern .empty, found name = some value :=
  List.mem_filterMap

theorem mem_construct {template : List (Statement (Slot Var Value))} {pattern : Pattern Var Value}
    {statement : Statement Value} :
    statement ∈ construct graph template pattern ↔ ∃ found ∈ eval graph pattern .empty,
      ∃ entry ∈ template, found.instantiate entry = some statement := by
  simp only [construct, List.mem_flatMap, List.mem_filterMap]

theorem unify_var {name : Var} {value : Value} (unified : solution.unify (.var name) value = some found) :
    found name = some value := by
  cases held : solution name with
  | none =>
      rw [unify_free held] at unified
      cases unified
      exact Function.update_self _ _ _
  | some known =>
      have bound : solution.get (.var name) = some known := held
      obtain ⟨rfl, rfl⟩ := (unify_get bound).mp unified
      exact held

/-- What a pattern binds as object is an object of the graph. -/
theorem object_of_triple {subject predicate : Slot Var Value} {object : Var}
    (member : found ∈ eval graph (.triple subject predicate (.var object)) solution) :
    ∃ held ∈ graph, found object = some held.object := by
  rw [mem_triple] at member
  obtain ⟨held, inside, _, _, _, _, unified⟩ := member
  exact ⟨held, inside, unify_var unified⟩

/-- From a known subject to the values of a known property. -/
theorem mem_follow {subject predicate : Slot Var Value} {object : Var} {source property : Value}
    (start : solution.get subject = some source) (along : solution.get predicate = some property)
    (free : solution object = none) :
    found ∈ eval graph (.triple subject predicate (.var object)) solution ↔
      ∃ target, ⟨source, property, target⟩ ∈ graph ∧
        found = Function.update solution object (some target) := by
  simp only [mem_triple, unify_get start]
  constructor
  · rintro ⟨⟨held, relation, target⟩, member, _, ⟨rfl, rfl⟩, _, second, third⟩
    obtain ⟨rfl, rfl⟩ := (unify_get along).mp second
    rw [unify_free free] at third
    cases third
    exact ⟨target, member, rfl⟩
  · rintro ⟨target, member, rfl⟩
    exact ⟨_, member, _, ⟨rfl, rfl⟩, _, (unify_get along).mpr ⟨rfl, rfl⟩, unify_free free⟩

/-- Whether a known subject has a known value of a known property. -/
theorem mem_check {subject predicate object : Slot Var Value} {source property target : Value}
    (start : solution.get subject = some source) (along : solution.get predicate = some property)
    (finish : solution.get object = some target) :
    found ∈ eval graph (.triple subject predicate object) solution ↔
      ⟨source, property, target⟩ ∈ graph ∧ found = solution := by
  simp only [mem_triple, unify_get start]
  constructor
  · rintro ⟨⟨held, relation, value⟩, member, _, ⟨rfl, rfl⟩, _, second, third⟩
    obtain ⟨rfl, rfl⟩ := (unify_get along).mp second
    obtain ⟨rfl, rfl⟩ := (unify_get finish).mp third
    exact ⟨member, rfl⟩
  · rintro ⟨member, rfl⟩
    exact ⟨_, member, _, ⟨rfl, rfl⟩, _, (unify_get along).mpr ⟨rfl, rfl⟩,
      (unify_get finish).mpr ⟨rfl, rfl⟩⟩

/-- One of the values of an inline column. -/
theorem mem_column {name : Var} {column : List Value} (free : solution name = none) :
    found ∈ eval graph (.values [name] (column.map fun value => [value])) solution ↔
      ∃ value ∈ column, found = Function.update solution name (some value) := by
  simp only [eval_values, List.mem_filterMap, List.mem_map, exists_exists_and_eq_and]
  refine exists_congr fun value => and_congr_right fun _ => ?_
  simp only [List.map_cons, List.map_nil, List.zip_cons_cons, List.zip_nil_left, unifyAll_cons, unifyAll_nil,
    unify_free free, Option.bind_some, Option.some.injEq]
  exact eq_comm

/-- One of the rows of an inline table with two columns. -/
theorem mem_table {left right : Var} {table : List (Value × Value)} (differ : right ≠ left)
    (freeLeft : solution left = none) (freeRight : solution right = none) :
    found ∈ eval graph (.values [left, right] (table.map fun row => [row.1, row.2])) solution ↔
      ∃ row ∈ table, found =
        Function.update (Function.update solution left (some row.1)) right (some row.2) := by
  have still : ∀ value, Function.update solution left (some value) right = none := fun value => by
    rw [Function.update_of_ne differ, freeRight]
  simp only [eval_values, List.mem_filterMap, List.mem_map, exists_exists_and_eq_and]
  refine exists_congr fun row => and_congr_right fun _ => ?_
  simp only [List.map_cons, List.map_nil, List.zip_cons_cons, List.zip_nil_left, unifyAll_cons, unifyAll_nil,
    unify_free freeLeft, unify_free (still row.1), Option.bind_some, Option.some.injEq]
  exact eq_comm

end Evaluation

end Sparql
