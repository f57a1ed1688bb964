import Mathlib.Data.List.Induction
import Mathlib.Data.List.Nodup
import Mathlib.Data.List.Perm.Basic
import Mathlib.Data.Set.Basic

/-!
Rows collected by key: the first row of a key gives the entry's head, and every row adds the extras
that the entry lacks. When the order of the rows is open, the head is that of any row.
-/

namespace FirstWins

structure Row (Key Head Extra : Type) where
  key : Key
  head : Head
  extras : List Extra
deriving DecidableEq, Repr

variable {Key Head Extra : Type}

def heads (rows : List (Row Key Head Extra)) (key : Key) : Set Head :=
  {head | ∃ row ∈ rows, row.key = key ∧ row.head = head}

def extras (rows : List (Row Key Head Extra)) (key : Key) : Set Extra :=
  {extra | ∃ row ∈ rows, row.key = key ∧ extra ∈ row.extras}

theorem heads_perm {left right : List (Row Key Head Extra)} (same : left.Perm right) (key : Key) :
    heads left key = heads right key := by
  simp only [heads, same.mem_iff]

theorem extras_perm {left right : List (Row Key Head Extra)} (same : left.Perm right) (key : Key) :
    extras left key = extras right key := by
  simp only [extras, same.mem_iff]

theorem extras_eq_empty {rows : List (Row Key Head Extra)} {key : Key}
    (empty : heads rows key = ∅) : extras rows key = ∅ := by
  rw [Set.eq_empty_iff_forall_notMem] at empty ⊢
  rintro extra ⟨row, member, same, -⟩
  exact empty row.head ⟨row, member, same, rfl⟩

/-- Some key has rows, but none with a good head. -/
def Stuck (good : Head → Prop) (rows : List (Row Key Head Extra)) : Prop :=
  ∃ key, heads rows key ≠ ∅ ∧ ∀ head ∈ heads rows key, ¬ good head

theorem exists_good_head {good : Head → Prop} {rows : List (Row Key Head Extra)} (free : ¬ Stuck good rows) {key : Key}
    (filled : heads rows key ≠ ∅) : ∃ head ∈ heads rows key, good head := by
  by_contra none
  exact free ⟨key, filled, fun head member fine => none ⟨head, member, fine⟩⟩

variable [DecidableEq Key] [DecidableEq Extra]

def addExtras (present added : List Extra) : List Extra :=
  added.foldl (fun present extra => if extra ∈ present then present else present ++ [extra]) present

def enter (entries : List (Row Key Head Extra)) (row : Row Key Head Extra) :
    List (Row Key Head Extra) :=
  if entries.any (·.key = row.key) then
    entries.map fun entry =>
      if entry.key = row.key then { entry with extras := addExtras entry.extras row.extras }
      else entry
  else entries ++ [{ row with extras := addExtras [] row.extras }]

def collect (rows : List (Row Key Head Extra)) : List (Row Key Head Extra) := rows.foldl enter []

/-- What the entries say of a key, whatever the order of the extras. -/
abbrev View (Key Head Extra : Type) := Key → Option (Head × Set Extra)

def view (entries : List (Row Key Head Extra)) : View Key Head Extra := fun key =>
  (entries.find? (·.key = key)).map fun entry => (entry.head, {extra | extra ∈ entry.extras})

/-- The rows, in some order, give this view. -/
def Possible (rows : List (Row Key Head Extra)) (seen : View Key Head Extra) : Prop :=
  ∃ order : List (Row Key Head Extra), order.Perm rows ∧ view (collect order) = seen

theorem mem_addExtras {present added : List Extra} {extra : Extra} :
    extra ∈ addExtras present added ↔ extra ∈ present ∨ extra ∈ added := by
  induction added generalizing present with
  | nil => simp [addExtras]
  | cons first added ih =>
      have next : addExtras present (first :: added) =
          addExtras (if first ∈ present then present else present ++ [first]) added := rfl
      rw [next, ih, List.mem_cons]
      split
      · rename_i held
        constructor
        · rintro (old | new)
          · exact Or.inl old
          · exact Or.inr (Or.inr new)
        · rintro (old | rfl | new)
          · exact Or.inl old
          · exact Or.inl held
          · exact Or.inr new
      · simp [or_assoc]

theorem view_enter (entries : List (Row Key Head Extra)) (row : Row Key Head Extra) (key : Key) :
    view (enter entries row) key =
      if row.key = key then
        some (match view entries key with
          | none => (row.head, {extra | extra ∈ row.extras})
          | some (head, held) => (head, held ∪ {extra | extra ∈ row.extras}))
      else view entries key := by
  unfold enter
  by_cases entered : entries.any (·.key = row.key) = true
  · rw [if_pos entered]
    have sameKeys : ((fun entry : Row Key Head Extra => decide (entry.key = key)) ∘ fun entry =>
        if entry.key = row.key then { entry with extras := addExtras entry.extras row.extras }
        else entry) = fun entry => decide (entry.key = key) := by
      funext entry
      simp only [Function.comp_apply]
      split <;> rfl
    rw [view, List.find?_map, sameKeys, view]
    cases found : entries.find? (·.key = key) with
    | none =>
        have absent : row.key ≠ key := by
          rintro rfl
          rw [List.find?_eq_none] at found
          rw [List.any_eq_true] at entered
          obtain ⟨entry, member, same⟩ := entered
          exact found entry member same
        simp [absent]
    | some entry =>
        have same : entry.key = key := by simpa using List.find?_some found
        by_cases own : row.key = key
        · simp only [Option.map_some, same, own, if_true, mem_addExtras]
          rfl
        · have other : entry.key ≠ row.key := fun equal => own (equal.symm.trans same)
          simp [other, own]
  · rw [if_neg entered, view, List.find?_append]
    rw [Bool.not_eq_true, List.any_eq_false] at entered
    by_cases own : row.key = key
    · have absent : entries.find? (·.key = key) = none := by
        rw [List.find?_eq_none]
        intro entry member
        rw [← own]
        exact entered entry member
      simp [view, absent, own, mem_addExtras]
    · simp [view, own]

/-- The first row of a key gives the head, and all its rows give the extras. -/
theorem view_collect (rows : List (Row Key Head Extra)) (key : Key) :
    view (collect rows) key =
      (rows.find? (·.key = key)).map fun row => (row.head, extras rows key) := by
  induction rows using List.reverseRecOn with
  | nil => rfl
  | append_singleton rows row ih =>
      have last : collect (rows ++ [row]) = enter (collect rows) row := by simp [collect]
      have more : extras (rows ++ [row]) key = if row.key = key then
          extras rows key ∪ {extra | extra ∈ row.extras} else extras rows key := by
        ext extra
        by_cases own : row.key = key <;> simp [extras, own, or_and_right, exists_or]
      rw [last, view_enter, ih, List.find?_append, more]
      by_cases own : row.key = key
      · cases found : rows.find? (·.key = key) with
        | some first => simp [own]
        | none =>
            have empty : extras rows key = ∅ := by
              rw [List.find?_eq_none] at found
              ext extra
              simp only [extras, Set.mem_ofPred_eq, Set.mem_empty_iff_false, iff_false]
              rintro ⟨other, member, same, -⟩
              exact found other member (by simpa using same)
            simp [own, empty]
      · cases found : rows.find? (·.key = key) <;> simp [own]

/-- An order of one list is part of an arrangement of all lists. -/
theorem exists_arrangement {Entry : Type} {rows order : List Entry} (same : order.Perm rows) :
    ∃ arrange : List Entry → List Entry, (∀ other, (arrange other).Perm other) ∧
      arrange rows = order := by
  classical
  refine ⟨fun other => if other = rows then order else other, ?_, if_pos rfl⟩
  intro other
  dsimp only
  split
  · rename_i equal
    exact equal ▸ same
  · exact List.Perm.refl other

theorem keys_enter (entries : List (Row Key Head Extra)) (row : Row Key Head Extra) :
    (enter entries row).map Row.key =
      if row.key ∈ entries.map Row.key then entries.map Row.key
      else entries.map Row.key ++ [row.key] := by
  have known : entries.any (·.key = row.key) = true ↔ row.key ∈ entries.map Row.key := by
    simp [List.any_eq_true]
  unfold enter
  split
  · rename_i entered
    rw [if_pos (known.mp entered), List.map_map]
    apply List.map_congr_left
    intro entry _
    simp only [Function.comp_apply]
    split <;> rfl
  · rename_i entered
    rw [if_neg (mt known.mpr entered), List.map_append]
    rfl

theorem keys_collect_nodup (rows : List (Row Key Head Extra)) :
    ((collect rows).map Row.key).Nodup := by
  induction rows using List.reverseRecOn with
  | nil => exact List.nodup_nil
  | append_singleton rows row ih =>
      have last : collect (rows ++ [row]) = enter (collect rows) row := by simp [collect]
      rw [last, keys_enter]
      split
      · exact ih
      · rename_i absent
        rw [List.nodup_append]
        refine ⟨ih, List.nodup_singleton _, ?_⟩
        intro key held other same equal
        rw [List.mem_singleton] at same
        exact absent (same ▸ equal ▸ held)

theorem addExtras_nodup {present : List Extra} (distinct : present.Nodup) (added : List Extra) :
    (addExtras present added).Nodup := by
  induction added generalizing present with
  | nil => exact distinct
  | cons extra added ih =>
      change (addExtras (if extra ∈ present then present else present ++ [extra]) added).Nodup
      split
      · exact ih distinct
      · rename_i absent
        apply ih
        rw [List.nodup_append]
        refine ⟨distinct, List.nodup_singleton _, ?_⟩
        intro held member other same equal
        rw [List.mem_singleton] at same
        exact absent (same ▸ equal ▸ member)

theorem addExtras_cons (present : List Extra) (extra : Extra) (added : List Extra) :
    addExtras present (extra :: added) =
      addExtras (if extra ∈ present then present else present ++ [extra]) added := rfl

theorem addExtras_of_nodup {present added : List Extra} (distinct : added.Nodup) :
    addExtras present added = present ++ added.filter (· ∉ present) := by
  induction added generalizing present with
  | nil => simp [addExtras]
  | cons extra added ih =>
      obtain ⟨other, later⟩ := List.nodup_cons.mp distinct
      rw [addExtras_cons]
      split
      · rename_i held
        rw [ih later, List.filter_cons_of_neg (by simpa using held)]
      · rename_i absent
        rw [ih later, List.filter_cons_of_pos (by simpa using absent), List.append_assoc,
          List.singleton_append]
        congr 2
        apply List.filter_congr
        intro name member
        have apart : name ≠ extra := fun same => other (same ▸ member)
        simp [apart]

/-- No entry holds an extra twice. -/
theorem extras_collect_nodup (rows : List (Row Key Head Extra)) :
    ∀ entry ∈ collect rows, entry.extras.Nodup := by
  induction rows using List.reverseRecOn with
  | nil => simp [collect]
  | append_singleton rows row ih =>
      have last : collect (rows ++ [row]) = enter (collect rows) row := by simp [collect]
      rw [last]
      intro entry member
      unfold enter at member
      split at member
      · obtain ⟨earlier, held, rfl⟩ := List.mem_map.mp member
        split
        · exact addExtras_nodup (ih earlier held) row.extras
        · exact ih earlier held
      · rcases List.mem_append.mp member with held | new
        · exact ih entry held
        · rw [List.mem_singleton.mp new]
          exact addExtras_nodup List.nodup_nil row.extras

omit [DecidableEq Extra] in
/-- With keys that differ, an entry is what the view shows of its key. -/
theorem view_of_mem {entries : List (Row Key Head Extra)} (distinct : (entries.map Row.key).Nodup)
    {entry : Row Key Head Extra} (member : entry ∈ entries) :
    view entries entry.key = some (entry.head, {extra | extra ∈ entry.extras}) := by
  cases found : entries.find? (·.key = entry.key) with
  | none =>
      rw [List.find?_eq_none] at found
      exact absurd (decide_eq_true rfl) (found entry member)
  | some other =>
      have same : other.key = entry.key := by simpa using List.find?_some found
      have equal := List.inj_on_of_nodup_map distinct (List.mem_of_find?_eq_some found) member same
      rw [view, found, equal]
      rfl

/-- An entry has the head of the first row of its key. -/
theorem first_of_mem_collect {rows : List (Row Key Head Extra)} {entry : Row Key Head Extra}
    (member : entry ∈ collect rows) :
    ∃ row, rows.find? (·.key = entry.key) = some row ∧ row.head = entry.head := by
  have seen := view_of_mem (keys_collect_nodup rows) member
  rw [view_collect] at seen
  obtain ⟨row, found, same⟩ := Option.map_eq_some_iff.mp seen
  exact ⟨row, found, congrArg Prod.fst same⟩

theorem mem_collect_of_first {rows : List (Row Key Head Extra)} {row : Row Key Head Extra}
    (found : rows.find? (·.key = row.key) = some row) :
    ∃ entry ∈ collect rows, entry.key = row.key ∧ entry.head = row.head := by
  have seen := view_collect rows row.key
  rw [found] at seen
  obtain ⟨entry, picked, same⟩ := Option.map_eq_some_iff.mp seen
  exact ⟨entry, List.mem_of_find?_eq_some picked, by simpa using List.find?_some picked,
    congrArg Prod.fst same⟩

/-- In some order each entry takes its head from any of the rows of its key. -/
theorem entry_of_possible {rows : List (Row Key Head Extra)} {seen : View Key Head Extra}
    (possible : Possible rows seen) (key : Key) : (seen key = none ∧ heads rows key = ∅) ∨
      ∃ head ∈ heads rows key, seen key = some (head, extras rows key) := by
  obtain ⟨order, same, rfl⟩ := possible
  rw [view_collect, ← heads_perm same, ← extras_perm same]
  cases found : order.find? (·.key = key) with
  | none =>
      refine Or.inl ⟨rfl, ?_⟩
      rw [List.find?_eq_none] at found
      ext head
      simp only [heads, Set.mem_ofPred_eq, Set.mem_empty_iff_false, iff_false]
      rintro ⟨row, member, own, -⟩
      exact found row member (by simpa using own)
  | some row =>
      exact Or.inr ⟨row.head, ⟨row, List.mem_of_find?_eq_some found,
        by simpa using List.find?_some found, rfl⟩, rfl⟩

theorem possible_of_entries {rows : List (Row Key Head Extra)} {seen : View Key Head Extra}
    (fits : ∀ key, (seen key = none ∧ heads rows key = ∅) ∨
      ∃ head ∈ heads rows key, seen key = some (head, extras rows key)) : Possible rows seen := by
  classical
  -- The rows that the view chose come first, so that `find?` meets a chosen one.
  let chosen := fun row : Row Key Head Extra =>
    decide (∃ held, seen row.key = some (row.head, held))
  refine ⟨rows.filter chosen ++ rows.filter (!chosen ·), List.filter_append_perm chosen rows, ?_⟩
  funext key
  rw [view_collect, extras_perm (List.filter_append_perm chosen rows), List.find?_append]
  rcases fits key with ⟨unseen, none⟩ | ⟨head, ⟨row, member, own, rfl⟩, named⟩
  · have absent : ∀ row ∈ rows, row.key ≠ key := fun row member same =>
      (Set.eq_empty_iff_forall_notMem.mp none) row.head ⟨row, member, same, rfl⟩
    have missing : ∀ part : Row Key Head Extra → Bool,
        (rows.filter part).find? (·.key = key) = .none := by
      intro part
      rw [List.find?_eq_none]
      intro row member
      simpa using absent row (List.mem_of_mem_filter member)
    rw [missing, missing, unseen]
    rfl
  · have first : ∃ front, (rows.filter chosen).find? (·.key = key) = some front := by
      rw [← Option.isSome_iff_exists, List.find?_isSome]
      refine ⟨row, List.mem_filter.mpr ⟨member, ?_⟩, by simpa using own⟩
      rw [decide_eq_true_eq, own]
      exact ⟨_, named⟩
    obtain ⟨front, found⟩ := first
    have inside := List.mem_of_find?_eq_some found
    have same : front.key = key := by simpa using List.find?_some found
    obtain ⟨held, picked⟩ := of_decide_eq_true (List.mem_filter.mp inside).2
    rw [same, named, Option.some.injEq, Prod.mk.injEq] at picked
    rw [found, named, picked.1]
    rfl

def Row.mapHead {Other : Type} (change : Head → Other) (row : Row Key Head Extra) :
    Row Key Other Extra :=
  { row with head := change row.head }

section Mapped

variable {Other : Type} (change : Head → Other) (rows : List (Row Key Head Extra))

omit [DecidableEq Key] [DecidableEq Extra] in
theorem mem_heads_map {key : Key} {other : Other} :
    other ∈ heads (rows.map (Row.mapHead change)) key ↔ ∃ head ∈ heads rows key, change head = other := by
  simp only [heads, Set.mem_ofPred_eq, List.mem_map]
  constructor
  · rintro ⟨_, ⟨row, member, rfl⟩, same, rfl⟩
    exact ⟨row.head, ⟨row, member, same, rfl⟩, rfl⟩
  · rintro ⟨_, ⟨row, member, same, rfl⟩, rfl⟩
    exact ⟨_, ⟨row, member, rfl⟩, same, rfl⟩

omit [DecidableEq Key] [DecidableEq Extra] in
theorem extras_map (key : Key) : extras (rows.map (Row.mapHead change)) key = extras rows key := by
  ext extra
  simp [extras, Row.mapHead]

omit [DecidableEq Extra] in
theorem view_map (key : Key) : view (rows.map (Row.mapHead change)) key =
    (view rows key).map fun entry => (change entry.1, entry.2) := by
  have keys : (fun row : Row Key Other Extra => decide (row.key = key)) ∘ Row.mapHead change =
      fun row => decide (row.key = key) := rfl
  rw [view, List.find?_map, keys, view, Option.map_map, Option.map_map]
  rfl

/-- What can be seen of changed heads is what can be seen, changed. -/
theorem possible_map {seen : View Key Other Extra} :
    Possible (rows.map (Row.mapHead change)) seen ↔ ∃ inner, Possible rows inner ∧
      seen = fun key => (inner key).map fun entry => (change entry.1, entry.2) := by
  classical
  constructor
  · intro possible
    let picked := fun key => ∃ head ∈ heads rows key, seen key = some (change head, extras rows key)
    have fits : ∀ key, (seen key = none ∧ heads rows key = ∅) ∨ picked key := by
      intro key
      rcases entry_of_possible possible key with ⟨unseen, empty⟩ | ⟨other, member, named⟩
      · refine Or.inl ⟨unseen, Set.eq_empty_iff_forall_notMem.mpr fun head member => ?_⟩
        exact Set.eq_empty_iff_forall_notMem.mp empty (change head)
          ((mem_heads_map change rows).mpr ⟨head, member, rfl⟩)
      · obtain ⟨head, inside, rfl⟩ := (mem_heads_map change rows).mp member
        exact Or.inr ⟨head, inside, named.trans (by rw [extras_map])⟩
    refine ⟨fun key => if pick : picked key then some (pick.choose, extras rows key) else none,
      possible_of_entries fun key => ?_, funext fun key => ?_⟩
    · by_cases pick : picked key
      · exact Or.inr ⟨pick.choose, pick.choose_spec.1, dif_pos pick⟩
      · exact Or.inl ⟨dif_neg pick, ((fits key).resolve_right pick).2⟩
    · by_cases pick : picked key
      · simpa [pick] using pick.choose_spec.2
      · simpa [pick] using ((fits key).resolve_right pick).1
  · rintro ⟨inner, possible, rfl⟩
    refine possible_of_entries fun key => ?_
    rcases entry_of_possible possible key with ⟨unseen, empty⟩ | ⟨head, member, named⟩
    · refine Or.inl ⟨by simp [unseen], Set.eq_empty_iff_forall_notMem.mpr fun other member => ?_⟩
      obtain ⟨head, inside, -⟩ := (mem_heads_map change rows).mp member
      rw [empty] at inside
      exact inside
    · exact Or.inr ⟨change head, (mem_heads_map change rows).mpr ⟨head, member, rfl⟩,
        by simp [named, extras_map]⟩

end Mapped

section Good

variable (good : Head → Prop)

/-- Every entry has a good head. -/
def AllGood (seen : View Key Head Extra) : Prop :=
  ∀ key head held, seen key = some (head, held) → good head

variable {good}

/-- Where no key is stuck, each good head is part of a good view. -/
theorem exists_good_view {rows : List (Row Key Head Extra)} (free : ¬ Stuck good rows) {key : Key}
    {head : Head} (member : head ∈ heads rows key) (fine : good head) :
    ∃ seen, Possible rows seen ∧ AllGood good seen ∧ seen key = some (head, extras rows key) := by
  classical
  let fits := fun other => ∃ picked ∈ heads rows other, good picked
  let seen : View Key Head Extra := fun other =>
    if other = key then some (head, extras rows key)
    else if fit : fits other then some (fit.choose, extras rows other) else none
  refine ⟨seen, possible_of_entries ?_, ?_, if_pos rfl⟩
  · intro other
    by_cases same : other = key
    · subst same
      exact Or.inr ⟨head, member, if_pos rfl⟩
    · by_cases fit : fits other
      · exact Or.inr ⟨fit.choose, fit.choose_spec.1, by simp [seen, same, fit]⟩
      · refine Or.inl ⟨by simp [seen, same, fit], ?_⟩
        by_contra filled
        exact free ⟨other, filled, fun picked inside good => fit ⟨picked, inside, good⟩⟩
  · intro other picked held named
    by_cases same : other = key
    · simp only [seen, same, if_true, Option.some.injEq, Prod.mk.injEq] at named
      exact named.1 ▸ fine
    · by_cases fit : fits other
      · simp only [seen, same, fit, if_false, dif_pos, Option.some.injEq, Prod.mk.injEq] at named
        exact named.1 ▸ fit.choose_spec.2
      · simp [seen, same, fit] at named

theorem not_stuck_of_good {rows : List (Row Key Head Extra)} {seen : View Key Head Extra}
    (possible : Possible rows seen) (fine : AllGood good seen) : ¬ Stuck good rows := by
  rintro ⟨key, filled, bad⟩
  rcases entry_of_possible possible key with ⟨-, empty⟩ | ⟨head, member, named⟩
  · exact filled empty
  · exact bad head member (fine key head _ named)

theorem exists_good_iff {rows : List (Row Key Head Extra)} :
    (∃ seen, Possible rows seen ∧ AllGood good seen) ↔ ¬ Stuck good rows := by
  constructor
  · rintro ⟨seen, possible, fine⟩
    exact not_stuck_of_good possible fine
  · intro free
    by_cases some : ∃ key, ∃ head ∈ heads rows key, good head
    · obtain ⟨key, head, member, fine⟩ := some
      obtain ⟨seen, possible, allGood, -⟩ := exists_good_view free member fine
      exact ⟨seen, possible, allGood⟩
    · refine ⟨fun _ => none, possible_of_entries fun key => Or.inl ⟨rfl, ?_⟩, by simp [AllGood]⟩
      by_contra filled
      exact free ⟨key, filled, fun head member fine => some ⟨key, head, member, fine⟩⟩

theorem good_heads_of_views {left right : List (Row Key Head Extra)} (free : ¬ Stuck good left)
    (kept : ∀ seen, Possible left seen → AllGood good seen → Possible right seen) {key : Key}
    {head : Head} (member : head ∈ heads left key) (fine : good head) :
    head ∈ heads right key ∧ extras left key = extras right key := by
  obtain ⟨seen, possible, allGood, named⟩ := exists_good_view free member fine
  rcases entry_of_possible (kept seen possible allGood) key with ⟨unseen, -⟩ | ⟨other, inside, also⟩
  · simp [unseen] at named
  · rw [named, Option.some.injEq, Prod.mk.injEq] at also
    obtain ⟨rfl, same⟩ := also
    exact ⟨inside, same⟩

theorem possible_of_same_good {left right : List (Row Key Head Extra)} (free : ¬ Stuck good right)
    (same : ∀ key, (∀ head, good head → (head ∈ heads left key ↔ head ∈ heads right key)) ∧
      extras left key = extras right key) {seen : View Key Head Extra}
    (possible : Possible left seen) (fine : AllGood good seen) : Possible right seen := by
  refine possible_of_entries fun key => ?_
  rcases entry_of_possible possible key with ⟨unseen, empty⟩ | ⟨head, member, named⟩
  · refine Or.inl ⟨unseen, ?_⟩
    by_contra filled
    obtain ⟨head, inside, goodHead⟩ := exists_good_head free filled
    have also := ((same key).1 head goodHead).mpr inside
    rw [empty] at also
    exact also
  · have goodHead := fine key head _ named
    refine Or.inr ⟨head, ((same key).1 head goodHead).mp member, ?_⟩
    rw [named, (same key).2]

variable (good) in
/-- Two lists of rows give the same good views exactly if both give none, or if both give some and
each key has the same good heads and the same extras. -/
theorem same_good_iff (left right : List (Row Key Head Extra)) :
    (∀ seen, Possible left seen ∧ AllGood good seen ↔ Possible right seen ∧ AllGood good seen) ↔
      (Stuck good left ∧ Stuck good right) ∨ (¬ Stuck good left ∧ ¬ Stuck good right ∧
        ∀ key, (∀ head, good head → (head ∈ heads left key ↔ head ∈ heads right key)) ∧
          extras left key = extras right key) := by
  constructor
  · intro same
    have bothStuck : Stuck good left ↔ Stuck good right := by
      rw [← not_iff_not, ← exists_good_iff, ← exists_good_iff]
      exact exists_congr same
    by_cases stuck : Stuck good left
    · exact Or.inl ⟨stuck, bothStuck.mp stuck⟩
    · have free := mt bothStuck.mpr stuck
      have forward : ∀ seen, Possible left seen → AllGood good seen → Possible right seen :=
        fun seen possible fine => ((same seen).mp ⟨possible, fine⟩).1
      have backward : ∀ seen, Possible right seen → AllGood good seen → Possible left seen :=
        fun seen possible fine => ((same seen).mpr ⟨possible, fine⟩).1
      refine Or.inr ⟨stuck, free, fun key => ⟨fun head fine => ⟨fun member =>
        (good_heads_of_views stuck forward member fine).1, fun member =>
        (good_heads_of_views free backward member fine).1⟩, ?_⟩⟩
      by_cases filled : heads left key = ∅
      · have alsoEmpty : heads right key = ∅ := by
          by_contra also
          obtain ⟨head, member, fine⟩ := exists_good_head free also
          have back := (good_heads_of_views free backward member fine).1
          rw [filled] at back
          exact back
        rw [extras_eq_empty filled, extras_eq_empty alsoEmpty]
      · obtain ⟨head, member, fine⟩ := exists_good_head stuck filled
        exact (good_heads_of_views stuck forward member fine).2
  · rintro (⟨stuckLeft, stuckRight⟩ | ⟨freeLeft, freeRight, same⟩) seen
    · have none : ∀ rows : List (Row Key Head Extra), Stuck good rows →
          ¬ (Possible rows seen ∧ AllGood good seen) :=
        fun rows stuck held => not_stuck_of_good held.1 held.2 stuck
      exact iff_of_false (none left stuckLeft) (none right stuckRight)
    · have back : ∀ key, (∀ head, good head → (head ∈ heads right key ↔ head ∈ heads left key)) ∧
          extras right key = extras left key :=
        fun key => ⟨fun head fine => ((same key).1 head fine).symm, (same key).2.symm⟩
      exact and_congr_left fun fine =>
        ⟨fun possible => possible_of_same_good freeRight same possible fine,
          fun possible => possible_of_same_good freeLeft back possible fine⟩

end Good

/-- Two lists of rows give the same views exactly if each key has the same heads and extras. -/
theorem same_possible_iff {left right : List (Row Key Head Extra)} :
    (∀ seen, Possible left seen ↔ Possible right seen) ↔
      ∀ key, heads left key = heads right key ∧ extras left key = extras right key := by
  have free : ∀ rows : List (Row Key Head Extra), ¬ Stuck (fun _ => True) rows := by
    rintro rows ⟨key, filled, none⟩
    obtain ⟨head, member⟩ := Set.nonempty_iff_ne_empty.mpr filled
    exact none head member trivial
  simpa [AllGood, free, Set.ext_iff] using same_good_iff (fun _ => True) left right

end FirstWins
