import Mathlib.Logic.Relation
import Mathlib.Data.List.Chain
import Mathlib.Data.List.Nodup
import Mathlib.Data.List.Perm.Subperm

/-!
Inheritance along a relation in which the ancestors of a node have at most one parent: the nodes of a
node's ancestors, how near they are, and the walk that lists them.
-/

namespace Lineage

open Relation

variable {Node : Type}

/-- The nodes that so many steps up from the start reach. -/
def Generation (up : Node → Node → Prop) (start : Node) : Nat → Node → Prop
  | 0, node => node = start
  | steps + 1, node => ∃ child, Generation up start steps child ∧ up child node

/-- Fewer steps reach the one node than ever reach the other. -/
def Closer (up : Node → Node → Prop) (start near far : Node) : Prop :=
  ∃ steps, Generation up start steps near ∧ ∀ other, Generation up start other far → steps < other

/-- An ancestor of the start that lies below the other node. -/
def Below (up : Node → Node → Prop) (start near far : Node) : Prop :=
  ReflTransGen up start near ∧ TransGen up near far

/-- Something holds of an ancestor and of none that the precedence puts before it. -/
def Prevails (up precedes : Node → Node → Prop) (start : Node) (holds blocks : Node → Prop) : Prop :=
  ∃ node, ReflTransGen up start node ∧ holds node ∧ ∀ other, precedes other node → ¬ blocks other

section Distance

variable {up : Node → Node → Prop} {start : Node}

theorem Generation.ancestor {node : Node} {steps : Nat} (reaches : Generation up start steps node) :
    ReflTransGen up start node := by
  induction steps generalizing node with
  | zero =>
      cases reaches
      exact .refl
  | succ steps ih =>
      obtain ⟨child, reaches, last⟩ := reaches
      exact (ih reaches).tail last

/-- Where ancestors have at most one parent, each generation is one node. -/
theorem Generation.unique
    (single : ∀ node, ReflTransGen up start node → ∀ first second, up node first → up node second →
      first = second) {steps : Nat} {left right : Node}
    (one : Generation up start steps left) (two : Generation up start steps right) : left = right := by
  induction steps generalizing left right with
  | zero => exact one.trans two.symm
  | succ steps ih =>
      obtain ⟨child, reaches, last⟩ := one
      obtain ⟨other, reaches', last'⟩ := two
      obtain rfl := ih reaches reaches'
      exact single child reaches.ancestor _ _ last last'

end Distance

/-- The ancestors of the start, nearest first, none twice. -/
structure Line (up : Node → Node → Prop) (start : Node) (nodes : List Node) : Prop where
  first : nodes[0]? = some start
  rising : ∀ index child parent, nodes[index]? = some child → nodes[index + 1]? = some parent →
    up child parent
  distinct : nodes.Nodup
  closed : ∀ index child, nodes[index]? = some child → nodes[index + 1]? = none → ∀ parent,
    up child parent → parent ∈ nodes

namespace Line

variable {up : Node → Node → Prop} {start : Node} {nodes : List Node}

theorem generation (whole : Line up start nodes) {index : Nat} {node : Node}
    (found : nodes[index]? = some node) : Generation up start index node := by
  induction index generalizing node with
  | zero => exact Option.some.inj (found.symm.trans whole.first)
  | succ index ih =>
      have within := (List.getElem?_eq_some_iff.mp found).1
      have before : nodes[index]? = some nodes[index] := List.getElem?_eq_getElem (by omega)
      exact ⟨_, ih before, whole.rising index _ _ before found⟩

theorem mem_iff (whole : Line up start nodes)
    (single : ∀ node ∈ nodes, ∀ first second, up node first → up node second → first = second)
    {node : Node} : node ∈ nodes ↔ ReflTransGen up start node := by
  constructor
  · intro member
    obtain ⟨index, found⟩ := List.mem_iff_getElem?.mp member
    exact (whole.generation found).ancestor
  · intro reached
    induction reached with
    | refl => exact List.mem_of_getElem? whole.first
    | @tail child parent _ last ih =>
        obtain ⟨index, found⟩ := List.mem_iff_getElem?.mp ih
        cases next : nodes[index + 1]? with
        | none => exact whole.closed index child found next parent last
        | some other =>
            have same := single child ih parent other last (whole.rising index child other found next)
            rw [same]
            exact List.mem_of_getElem? next

section Order

variable (whole : Line up start nodes)
  (single : ∀ node, ReflTransGen up start node → ∀ first second, up node first → up node second →
    first = second)

include whole single

theorem mem_iff_ancestor {node : Node} : node ∈ nodes ↔ ReflTransGen up start node := by
  refine whole.mem_iff fun node member => ?_
  obtain ⟨index, found⟩ := List.mem_iff_getElem?.mp member
  exact single node (whole.generation found).ancestor

/-- No fewer steps reach a node than lead to its place in the line. -/
theorem least {index steps : Nat} {node : Node} (found : nodes[index]? = some node)
    (reaches : Generation up start steps node) : index ≤ steps := by
  by_contra fewer
  have within := (List.getElem?_eq_some_iff.mp found).1
  have earlier : nodes[steps]? = some nodes[steps] := List.getElem?_eq_getElem (by omega)
  have same := (whole.generation earlier).unique single reaches
  have equal : nodes[steps]? = nodes[index]? := by rw [earlier, found, same]
  exact List.nodup_iff_getElem?_ne_getElem?.mp whole.distinct steps index (by omega) within equal

theorem closer_iff {left right : Nat} {near far : Node} (nearAt : nodes[left]? = some near)
    (farAt : nodes[right]? = some far) : Closer up start near far ↔ left < right := by
  constructor
  · rintro ⟨steps, reaches, fewer⟩
    have least := whole.least single nearAt reaches
    have below := fewer right (whole.generation farAt)
    omega
  · intro below
    refine ⟨left, whole.generation nearAt, fun steps reaches => ?_⟩
    have least := whole.least single farAt reaches
    omega

omit single in
/-- A later place in the line lies above. -/
theorem above {left right : Nat} {near far : Node} (nearAt : nodes[left]? = some near)
    (farAt : nodes[right]? = some far) (ordered : left < right) : TransGen up near far := by
  obtain ⟨steps, rfl⟩ := Nat.exists_eq_add_of_lt ordered
  induction steps generalizing far with
  | zero => exact .single (whole.rising left near far nearAt farAt)
  | succ steps ih =>
      have within := (List.getElem?_eq_some_iff.mp farAt).1
      have before : nodes[left + steps + 1]? = some nodes[left + steps + 1] :=
        List.getElem?_eq_getElem (by omega)
      exact (ih before (by omega)).tail (whole.rising _ _ far before farAt)

/-- Where no ancestor lies above itself, the nearer ancestors are those below. -/
theorem closer_iff_below (acyclic : ∀ node, ReflTransGen up start node → ¬ TransGen up node node)
    {near far : Node} (reached : ReflTransGen up start far) :
    Closer up start near far ↔ Below up start near far := by
  obtain ⟨right, farAt⟩ := List.mem_iff_getElem?.mp ((whole.mem_iff_ancestor single).mpr reached)
  constructor
  · intro closer
    have ancestor : ReflTransGen up start near :=
      let ⟨_, reaches, _⟩ := closer
      reaches.ancestor
    obtain ⟨left, nearAt⟩ :=
      List.mem_iff_getElem?.mp ((whole.mem_iff_ancestor single).mpr ancestor)
    exact ⟨ancestor, whole.above nearAt farAt
      ((whole.closer_iff single nearAt farAt).mp closer)⟩
  · rintro ⟨ancestor, below⟩
    obtain ⟨left, nearAt⟩ :=
      List.mem_iff_getElem?.mp ((whole.mem_iff_ancestor single).mpr ancestor)
    apply (whole.closer_iff single nearAt farAt).mpr
    by_contra ordered
    rcases Nat.lt_or_eq_of_le (Nat.le_of_not_lt ordered) with later | same
    · exact acyclic far reached ((whole.above farAt nearAt later).trans below)
    · subst same
      obtain rfl := Option.some.inj (nearAt.symm.trans farAt)
      exact acyclic near ancestor below

/-- What holds at a place in the line and is blocked at no earlier one. -/
theorem prevails_closer_iff {holds blocks : Node → Prop} :
    Prevails up (Closer up start) start holds blocks ↔
      ∃ (index : Nat) (node : Node), nodes[index]? = some node ∧ holds node ∧
        ∀ (nearer : Nat) (other : Node), nodes[nearer]? = some other → nearer < index → ¬ blocks other := by
  constructor
  · rintro ⟨node, reached, held, free⟩
    obtain ⟨index, found⟩ := List.mem_iff_getElem?.mp ((whole.mem_iff_ancestor single).mpr reached)
    exact ⟨index, node, found, held, fun nearer other earlier below =>
      free other ((whole.closer_iff single earlier found).mpr below)⟩
  · rintro ⟨index, node, found, held, free⟩
    refine ⟨node, (whole.generation found).ancestor, held, fun other closer => ?_⟩
    have ⟨_, reaches, _⟩ := closer
    obtain ⟨nearer, earlier⟩ :=
      List.mem_iff_getElem?.mp ((whole.mem_iff_ancestor single).mpr reaches.ancestor)
    exact free nearer other earlier ((whole.closer_iff single earlier found).mp closer)

theorem prevails_below_iff (acyclic : ∀ node, ReflTransGen up start node → ¬ TransGen up node node)
    {holds blocks : Node → Prop} :
    Prevails up (Closer up start) start holds blocks ↔
      Prevails up (Below up start) start holds blocks := by
  refine exists_congr fun node => and_congr_right fun reached => and_congr_right fun _ => ?_
  refine forall_congr' fun other => ?_
  rw [whole.closer_iff_below single acyclic reached]

end Order

end Line

section Choice

variable {up : Node → Node → Prop} {start : Node}

/-- A walk goes from the last node of its list to any parent that is not listed yet. -/
def Rises (up : Node → Node → Prop) (nodes longer : List Node) : Prop :=
  ∃ last next, nodes.getLast? = some last ∧ up last next ∧ next ∉ nodes ∧ longer = nodes ++ [next]

/-- What a walk from the start has listed. -/
structure Risen (up : Node → Node → Prop) (start : Node) (nodes : List Node) : Prop where
  first : nodes[0]? = some start
  rising : ∀ index child parent, nodes[index]? = some child → nodes[index + 1]? = some parent →
    up child parent
  distinct : nodes.Nodup

theorem risen_start : Risen up start [start] := ⟨rfl, by simp, List.nodup_singleton start⟩

theorem Risen.step {nodes longer : List Node} (risen : Risen up start nodes)
    (rises : Rises up nodes longer) : Risen up start longer := by
  obtain ⟨last, next, ends, above, fresh, rfl⟩ := rises
  have nonempty : nodes ≠ [] := by
    rintro rfl
    cases ends
  have positive : 0 < nodes.length := List.length_pos_iff.mpr nonempty
  refine ⟨?_, ?_, ?_⟩
  · rw [List.getElem?_append_left positive]
    exact risen.first
  · intro index child parent here there
    have within := (List.getElem?_eq_some_iff.mp there).1
    rw [List.length_append, List.length_singleton] at within
    rw [List.getElem?_append_left (by omega)] at here
    by_cases inside : index + 1 < nodes.length
    · rw [List.getElem?_append_left inside] at there
      exact risen.rising index child parent here there
    · have place : index = nodes.length - 1 := by omega
      rw [List.getLast?_eq_getElem?, ← place, here] at ends
      rw [List.getElem?_append_right (by omega), show index + 1 - nodes.length = 0 by omega] at there
      cases ends
      cases there
      exact above
  · rw [List.nodup_append]
    refine ⟨risen.distinct, List.nodup_singleton next, ?_⟩
    intro node member other listed same
    rw [List.mem_singleton.mp listed] at same
    exact fresh (same ▸ member)

/-- With all parents among finitely many candidates, no list is longer than these and the start. -/
theorem Risen.length_le {nodes candidates : List Node} (risen : Risen up start nodes)
    (listed : ∀ node next, up node next → next ∈ candidates) :
    nodes.length ≤ candidates.length + 1 := by
  have within : nodes.tail ⊆ candidates := by
    intro node member
    obtain ⟨index, found⟩ := List.mem_iff_getElem?.mp member
    rw [List.getElem?_tail] at found
    have bound := (List.getElem?_eq_some_iff.mp found).1
    have before : nodes[index]? = some nodes[index] := List.getElem?_eq_getElem (by omega)
    exact listed _ node (risen.rising index _ node before found)
  have size := (List.subperm_of_subset risen.distinct.tail within).length_le
  rw [List.length_tail] at size
  omega

/-- Every walk ends, whichever parents it takes. -/
theorem Risen.ends {nodes candidates : List Node} (risen : Risen up start nodes)
    (listed : ∀ node next, up node next → next ∈ candidates) :
    Acc (fun longer shorter => Rises up shorter longer) nodes := by
  generalize room : candidates.length + 1 - nodes.length = free
  induction free using Nat.strongRecOn generalizing nodes with
  | ind free ih =>
      refine Acc.intro nodes fun longer rises => ?_
      have next := risen.step rises
      have bound := next.length_le listed
      obtain ⟨last, parent, -, -, -, rfl⟩ := rises
      rw [List.length_append, List.length_singleton] at bound
      refine ih _ ?_ next rfl
      rw [List.length_append, List.length_singleton]
      omega

/-- A walk that has listed all parents of its last node has listed the ancestors in a line. -/
theorem Risen.line {nodes : List Node} (risen : Risen up start nodes)
    (stuck : ∀ last next, nodes.getLast? = some last → up last next → next ∈ nodes) :
    Line up start nodes where
  first := risen.first
  rising := risen.rising
  distinct := risen.distinct
  closed := by
    intro index child here ended parent above
    have within := (List.getElem?_eq_some_iff.mp here).1
    have past := List.getElem?_eq_none_iff.mp ended
    refine stuck child parent ?_ above
    rw [List.getLast?_eq_getElem?, show nodes.length - 1 = index by omega, here]

end Choice

section Walk

variable [DecidableEq Node] (parent : Node → Option Node)

/-- Goes up to the parent until there is none or it was seen before, so many times at most. -/
def climb : Nat → List Node → Node → List Node
  | 0, seen, node => seen ++ [node]
  | fuel + 1, seen, node =>
      match parent node with
      | none => seen ++ [node]
      | some next =>
          if next ∈ seen ++ [node] then seen ++ [node] else climb fuel (seen ++ [node]) next

/-- The walk with a chosen parent is one of these. -/
theorem climb_walks (fuel : Nat) (seen : List Node) (node : Node) :
    ReflTransGen (Rises fun child next => parent child = some next) (seen ++ [node])
      (climb parent fuel seen node) := by
  induction fuel generalizing seen node with
  | zero => exact .refl
  | succ fuel ih =>
      unfold climb
      cases found : parent node with
      | none => exact .refl
      | some next =>
          dsimp only
          split
          · exact .refl
          · rename_i fresh
            refine .head ?_ (ih (seen ++ [node]) next)
            exact ⟨node, next, List.getLast?_concat, found, fresh, rfl⟩

/-- What the walk has listed when it stands at a node. -/
structure Climbed (start : Node) (seen : List Node) (node : Node) : Prop where
  first : (seen ++ [node])[0]? = some start
  rising : ∀ index child next, (seen ++ [node])[index]? = some child →
    (seen ++ [node])[index + 1]? = some next → parent child = some next
  distinct : (seen ++ [node]).Nodup

variable {parent} {start : Node}

omit [DecidableEq Node] in
theorem climbed_iff_risen {seen : List Node} {node : Node} :
    Climbed parent start seen node ↔
      Risen (fun child next => parent child = some next) start (seen ++ [node]) :=
  ⟨fun climbed => ⟨climbed.first, climbed.rising, climbed.distinct⟩,
    fun risen => ⟨risen.first, risen.rising, risen.distinct⟩⟩

omit [DecidableEq Node] in
theorem Climbed.step {seen : List Node} {node next : Node} (climbed : Climbed parent start seen node)
    (found : parent node = some next) (fresh : next ∉ seen ++ [node]) :
    Climbed parent start (seen ++ [node]) next := by
  have rises : Rises (fun child next => parent child = some next) (seen ++ [node])
      (seen ++ [node] ++ [next]) := ⟨node, next, List.getLast?_concat, found, fresh, rfl⟩
  exact climbed_iff_risen.mpr ((climbed_iff_risen.mp climbed).step rises)

omit [DecidableEq Node] in
/-- A walk over so many candidates that has used up its steps has seen them all. -/
theorem Climbed.exhausted {seen candidates : List Node} {node next : Node}
    (climbed : Climbed parent start seen node)
    (listed : ∀ node next, parent node = some next → next ∈ candidates)
    (used : candidates.length ≤ seen.length) (found : parent node = some next) :
    next ∈ seen ++ [node] := by
  by_contra fresh
  have bound := (climbed_iff_risen.mp (climbed.step found fresh)).length_le listed
  simp only [List.length_append, List.length_singleton] at bound
  omega

/-- The walk ends at a node whose parent, if any, was seen. -/
theorem Climbed.climb {candidates : List Node}
    (listed : ∀ node next, parent node = some next → next ∈ candidates) (fuel : Nat) {seen : List Node}
    {node : Node} (climbed : Climbed parent start seen node)
    (enough : candidates.length ≤ fuel + seen.length) :
    ∃ front last, climb parent fuel seen node = front ++ [last] ∧ Climbed parent start front last ∧
      ∀ next, parent last = some next → next ∈ front ++ [last] := by
  induction fuel generalizing seen node with
  | zero =>
      refine ⟨seen, node, rfl, climbed, fun next found => ?_⟩
      exact climbed.exhausted listed (by omega) found
  | succ fuel ih =>
      unfold Lineage.climb
      cases found : parent node with
      | none => exact ⟨seen, node, rfl, climbed, by simp [found]⟩
      | some next =>
          dsimp only
          split
          · rename_i repeated
            refine ⟨seen, node, rfl, climbed, fun other again => ?_⟩
            obtain rfl := Option.some.inj (found.symm.trans again)
            exact repeated
          · rename_i fresh
            apply ih (climbed.step found fresh)
            rw [List.length_append, List.length_singleton]
            omega

/-- When all parents are among the candidates, that many steps are enough for the whole line. -/
theorem climb_line {up : Node → Node → Prop} {candidates : List Node}
    (agrees : ∀ node, ReflTransGen up start node → ∀ next, parent node = some next ↔ up node next)
    (listed : ∀ node next, parent node = some next → next ∈ candidates) :
    Line up start (climb parent candidates.length [] start) := by
  have begun : Climbed parent start [] start := ⟨rfl, by simp, by simp⟩
  obtain ⟨front, last, ended, climbed, stuck⟩ :=
    begun.climb listed candidates.length (by simp)
  rw [ended]
  have ancestor : ∀ (index : Nat) (node : Node), (front ++ [last])[index]? = some node →
      ReflTransGen up start node := by
    intro index
    induction index with
    | zero =>
        intro node found
        obtain rfl := Option.some.inj (climbed.first.symm.trans found)
        exact .refl
    | succ index ih =>
        intro node found
        have within := (List.getElem?_eq_some_iff.mp found).1
        have before : (front ++ [last])[index]? = some (front ++ [last])[index] :=
          List.getElem?_eq_getElem (by omega)
        have reached := ih _ before
        exact reached.tail ((agrees _ reached node).mp (climbed.rising index _ node before found))
  refine ⟨climbed.first, ?_, climbed.distinct, ?_⟩
  · intro index child next here above
    exact (agrees child (ancestor index child here) next).mp
      (climbed.rising index child next here above)
  · intro index child here ended next above
    have within := (List.getElem?_eq_some_iff.mp here).1
    have past := List.getElem?_eq_none_iff.mp ended
    simp only [List.length_append, List.length_singleton] at within past
    have place : index = front.length := by omega
    subst place
    have atLast : (front ++ [last])[front.length]? = some last := by simp
    obtain rfl := Option.some.inj (here.symm.trans atLast)
    exact stuck next ((agrees child (ancestor _ child here) next).mpr above)

end Walk

end Lineage
