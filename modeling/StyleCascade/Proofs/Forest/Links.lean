import Mathlib.Data.Fintype.Card
import Mathlib.Logic.Basic
import Mathlib.Logic.Relation
import StyleCascade.Forest.Edit

/-!
# Following links

The shape of a forest is found by walks along its links. This is what can be said of walks before
anything is known of a shape, and what an edit does to the links that they follow.
-/

namespace StyleCascade

/-!
## Walks that end

A walk goes from component to component along one kind of link, from a parent to the next parent
or from a sibling to the next. `Walk step start line` says that the walk ends, and that it passes
the components of `line` in that order. A walk that ends never comes back to a component
(`Walk.nodup`), because it would then go on for ever; so it is no longer than there are
components, and `Forest.follow` does not cut it short (`Walk.follow_eq`).
-/

theorem length_le_of_nodup {ids : List ComponentId} {count : Nat} (h : ids.Nodup)
    (hlt : ∀ id ∈ ids, id < count) : ids.length ≤ count := by
  have hsub : ids.toFinset ⊆ Finset.range count := by
    intro id hid
    exact Finset.mem_range.mpr (hlt id (List.mem_toFinset.mp hid))
  have hcard := Finset.card_le_card hsub
  rwa [Finset.card_range, List.toFinset_card_of_nodup h] at hcard

/-- The walk along `step` passes the components of a list and ends behind the last one. -/
inductive Walk (step : ComponentId → Option ComponentId) :
    Option ComponentId → List ComponentId → Prop where
  | done : Walk step none []
  | next {id : ComponentId} {line : List ComponentId} :
      Walk step (step id) line → Walk step (some id) (id :: line)

namespace Walk

variable {step step' : ComponentId → Option ComponentId} {start : Option ComponentId}
variable {line line' front back : List ComponentId} {id a b : ComponentId} {count : Nat}

/-- A walk has one course. -/
theorem unique (h : Walk step start line) (h' : Walk step start line') : line = line' := by
  induction h generalizing line' with
  | done =>
      cases h'
      rfl
  | next _ ih =>
      cases h' with
      | next h' => rw [ih h']

/-- From any component on, the rest of the course is the walk from there. -/
theorem of_append (h : Walk step start (front ++ id :: back)) :
    Walk step (some id) (id :: back) := by
  induction front generalizing start with
  | nil =>
      cases h with
      | next h => exact .next h
  | cons _ front ih =>
      cases h with
      | next h => exact ih h

theorem nodup (h : Walk step start line) : line.Nodup := by
  induction h with
  | done => exact List.nodup_nil
  | @next id line h ih =>
      refine List.nodup_cons.mpr ⟨fun again => ?_, ih⟩
      -- The walk from the second visit is the walk from the first one, and yet shorter.
      obtain ⟨front, back, rfl⟩ := List.append_of_mem again
      have same := (of_append h).unique (.next h)
      have hlen := congrArg List.length same
      simp only [List.length_cons, List.length_append] at hlen
      omega

/-- No walk among finitely many components is longer than their number. -/
theorem length_le (h : Walk step start line) (hlt : ∀ id ∈ line, id < count) :
    line.length ≤ count :=
  length_le_of_nodup h.nodup hlt

/-- A bound that the walk does not pass has no effect. -/
theorem follow_eq (h : Walk step start line) (hlen : line.length ≤ count) :
    Forest.follow step count start = line := by
  induction h generalizing count with
  | done => cases count <;> rfl
  | next _ ih =>
      cases count with
      | zero => cases hlen
      | succ count => rw [Forest.follow, ih (Nat.le_of_succ_le_succ hlen)]

/-- Only the links of the components on its course matter to a walk. -/
theorem congr (h : Walk step start line) (same : ∀ id ∈ line, step' id = step id) :
    Walk step' start line := by
  induction h with
  | done => exact .done
  | @next id line _ ih =>
      apply next
      rw [same id List.mem_cons_self]
      exact ih fun x hx => same x (List.mem_cons_of_mem id hx)

/-- A walk that is cut behind one component still ends. -/
theorem cut (h : Walk step start line) (hend : step' id = none)
    (same : ∀ x, x ≠ id → step' x = step x) : ∃ line', Walk step' start line' := by
  induction h with
  | done => exact ⟨[], .done⟩
  | @next x line _ ih =>
      by_cases hx : x = id
      · subst hx
        exact ⟨[x], .next (hend ▸ .done)⟩
      · obtain ⟨line', h'⟩ := ih
        exact ⟨x :: line', .next ((same x hx).symm ▸ h')⟩

/-- Where walks end behind a component, they may go on along a walk that ends. -/
theorem extend (h : Walk step start line) (hend : step id = none)
    (same : ∀ x, x ≠ id → step' x = step x) (rest : Walk step' (step' id) line') :
    ∃ line'', Walk step' start line'' := by
  induction h with
  | done => exact ⟨[], .done⟩
  | @next x line _ ih =>
      by_cases hx : x = id
      · subst hx
        exact ⟨x :: line', .next rest⟩
      · obtain ⟨line'', h''⟩ := ih
        exact ⟨x :: line'', .next ((same x hx).symm ▸ h'')⟩

/-- A walk passes what can be reached by its steps. -/
theorem mem_iff (h : Walk step (some a) line) :
    b ∈ line ↔ Relation.ReflTransGen (fun x y => step x = some y) a b := by
  constructor
  · intro hb
    generalize hstart : some a = start at h
    induction h generalizing a with
    | done => cases hb
    | @next x line rest ih =>
        cases hstart
        rcases List.mem_cons.mp hb with rfl | hb
        · exact .refl
        · cases hnext : step x with
          | none =>
              rw [hnext] at rest
              cases rest
              cases hb
          | some y => exact .head hnext (ih hb hnext.symm)
  · intro reach
    induction reach using Relation.ReflTransGen.head_induction_on generalizing line with
    | refl =>
        cases h
        exact List.mem_cons_self
    | head hstep _ ih =>
        cases h with
        | next h =>
            rw [hstep] at h
            exact List.mem_cons_of_mem _ (ih h)

/-- Where a walk ends there is no cycle. -/
theorem not_transGen (h : Walk step (some a) line) :
    ¬ Relation.TransGen (fun x y => step x = some y) a a := by
  intro cycle
  obtain ⟨b, hstep, back⟩ := Relation.TransGen.head'_iff.mp cycle
  have hnodup := h.nodup
  cases h with
  | next rest =>
      rw [hstep] at rest
      exact (List.nodup_cons.mp hnodup).1 (rest.mem_iff.mpr back)

end Walk

/-!
## What an edit does to the links

An edit of the shape relinks up to four components, and some of them may be the same one. These
lemmas say for every component what its links are afterwards, as far as the numbers that the edit
goes through are given out.
-/

namespace Forest

variable {f : Forest} {id : ComponentId}

theorem component?_isSome : (f.component? id).isSome ↔ id < f.size := by
  rw [component?, Option.isSome_map, isSome_getElem?, size]

theorem component?_eq_none : f.component? id = none ↔ f.size ≤ id := by
  rw [component?, Option.map_eq_none_iff, Array.getElem?_eq_none_iff, size]

/-! ### One component -/

@[simp] theorem size_relink (f : Forest) (id : ComponentId) (change : Links → Links) :
    (f.relink id change).size = f.size :=
  Array.size_modify

theorem links_relink (h : id < f.size) (change : Links → Links) (i : ComponentId) :
    (f.relink id change).links i = if i = id then change (f.links i) else f.links i := by
  by_cases hi : i = id
  · subst hi
    rw [if_pos rfl, links, links, relink, Array.getElem?_modify, if_pos rfl,
      Array.getElem?_eq_getElem h]
    rfl
  · rw [if_neg hi, links, links, relink, Array.getElem?_modify, if_neg (Ne.symm hi)]

@[simp] theorem component?_relink (f : Forest) (id : ComponentId) (change : Links → Links)
    (i : ComponentId) : (f.relink id change).component? i = f.component? i := by
  rw [component?, component?, relink, Array.getElem?_modify]
  split
  · rw [Option.map_map]
    rfl
  · rfl

@[simp] theorem size_relink? (f : Forest) (target : Option ComponentId)
    (change : Links → Links) : (f.relink? target change).size = f.size := by
  cases target with
  | none => rfl
  | some id => exact size_relink f id change

theorem links_relink? {target : Option ComponentId} (h : ∀ id, target = some id → id < f.size)
    (change : Links → Links) (i : ComponentId) :
    (f.relink? target change).links i =
      if target = some i then change (f.links i) else f.links i := by
  cases target with
  | none => rfl
  | some id =>
      rw [relink?, links_relink (h id rfl)]
      simp only [Option.some.injEq, eq_comm]

@[simp] theorem component?_relink? (f : Forest) (target : Option ComponentId)
    (change : Links → Links) (i : ComponentId) :
    (f.relink? target change).component? i = f.component? i := by
  cases target with
  | none => rfl
  | some id => exact component?_relink f id change i

/-! ### Taking out and putting in -/

@[simp] theorem size_joinForward (f : Forest) (gap : Links) :
    (f.joinForward gap).size = f.size := by
  rw [joinForward]
  split
  · exact size_relink ..
  · exact size_relink? ..

@[simp] theorem size_joinBackward (f : Forest) (gap : Links) :
    (f.joinBackward gap).size = f.size := by
  rw [joinBackward]
  split
  · exact size_relink ..
  · exact size_relink? ..

@[simp] theorem size_detach (f : Forest) (child : ComponentId) :
    (f.detach child).size = f.size := by
  simp only [detach, size_relink, size_joinBackward, size_joinForward]

@[simp] theorem size_attach (f : Forest) (parent child : ComponentId) :
    (f.attach parent child).size = f.size := by
  simp only [attach, size_relink, size_relink?]

@[simp] theorem component?_detach (f : Forest) (child i : ComponentId) :
    (f.detach child).component? i = f.component? i := by
  rw [detach, component?_relink, joinBackward, joinForward]
  split <;> split <;> simp only [component?_relink, component?_relink?]

@[simp] theorem component?_attach (f : Forest) (parent child i : ComponentId) :
    (f.attach parent child).component? i = f.component? i := by
  simp only [attach, component?_relink, component?_relink?]

end Forest

/-- The links lead to components only, when a forest has so many. -/
structure Links.Below (count : Nat) (l : Links) : Prop where
  parent : ∀ id, l.parent = some id → id < count
  firstChild : ∀ id, l.firstChild = some id → id < count
  lastChild : ∀ id, l.lastChild = some id → id < count
  prevSibling : ∀ id, l.prevSibling = some id → id < count
  nextSibling : ∀ id, l.nextSibling = some id → id < count

namespace Forest

variable {f : Forest}

theorem links_joinForward {gap : Links} (h : gap.Below f.size) (i : ComponentId) :
    (f.joinForward gap).links i =
      { f.links i with
        firstChild := if gap.prevSibling = none ∧ gap.parent = some i then gap.nextSibling
          else (f.links i).firstChild
        nextSibling := if gap.prevSibling = some i then gap.nextSibling
          else (f.links i).nextSibling } := by
  cases hprev : gap.prevSibling with
  | none =>
      simp only [joinForward, hprev, true_and, reduceCtorEq, if_false]
      rw [links_relink? h.parent]
      split <;> rfl
  | some before =>
      simp only [joinForward, hprev, reduceCtorEq, false_and, if_false, Option.some.injEq]
      rw [links_relink (h.prevSibling before hprev)]
      simp only [eq_comm (a := i)]
      split <;> rfl

theorem links_joinBackward {gap : Links} (h : gap.Below f.size) (i : ComponentId) :
    (f.joinBackward gap).links i =
      { f.links i with
        lastChild := if gap.nextSibling = none ∧ gap.parent = some i then gap.prevSibling
          else (f.links i).lastChild
        prevSibling := if gap.nextSibling = some i then gap.prevSibling
          else (f.links i).prevSibling } := by
  cases hnext : gap.nextSibling with
  | none =>
      simp only [joinBackward, hnext, true_and, reduceCtorEq, if_false]
      rw [links_relink? h.parent]
      split <;> rfl
  | some behind =>
      simp only [joinBackward, hnext, reduceCtorEq, false_and, if_false, Option.some.injEq]
      rw [links_relink (h.nextSibling behind hnext)]
      simp only [eq_comm (a := i)]
      split <;> rfl

/-- Taking out a component clears its own place and joins the sides of the gap. -/
theorem links_detach {child : ComponentId} (hchild : child < f.size)
    (h : (f.links child).Below f.size) (i : ComponentId) :
    (f.detach child).links i =
      { parent := if i = child then none else (f.links i).parent
        firstChild := if (f.links child).prevSibling = none ∧ (f.links child).parent = some i
          then (f.links child).nextSibling else (f.links i).firstChild
        lastChild := if (f.links child).nextSibling = none ∧ (f.links child).parent = some i
          then (f.links child).prevSibling else (f.links i).lastChild
        prevSibling := if i = child then none
          else if (f.links child).nextSibling = some i then (f.links child).prevSibling
          else (f.links i).prevSibling
        nextSibling := if i = child then none
          else if (f.links child).prevSibling = some i then (f.links child).nextSibling
          else (f.links i).nextSibling } := by
  rw [detach, links_relink (by simpa only [size_joinBackward, size_joinForward] using hchild),
    links_joinBackward (by simpa only [size_joinForward] using h), links_joinForward h]
  split <;> rfl

/-- Putting in a component behind the last child gives the parent a new last child, and a first
one if it had none. -/
theorem links_attach {parent child : ComponentId} (hparent : parent < f.size)
    (hchild : child < f.size) (h : (f.links parent).Below f.size) (i : ComponentId) :
    (f.attach parent child).links i =
      { parent := if i = child then some parent else (f.links i).parent
        firstChild := if i = parent then (f.links i).firstChild.or (some child)
          else (f.links i).firstChild
        lastChild := if i = parent then some child else (f.links i).lastChild
        prevSibling := if i = child then (f.links parent).lastChild
          else (f.links i).prevSibling
        nextSibling := if (f.links parent).lastChild = some i then some child
          else (f.links i).nextSibling } := by
  rw [attach, links_relink (by simpa only [size_relink, size_relink?] using hparent),
    links_relink (by simpa only [size_relink?] using hchild), links_relink? h.lastChild]
  split <;> split <;> split <;> rfl

/-! ### New components and changed ones -/

@[simp] theorem size_create (f : Forest) (typeName : String) :
    (f.create typeName).2.size = f.size + 1 :=
  Array.size_push ..

/-- A new component stands alone, like a number that is not given out. -/
@[simp] theorem links_create (f : Forest) (typeName : String) (i : ComponentId) :
    (f.create typeName).2.links i = f.links i := by
  rw [links, links, create, Array.getElem?_push]
  split
  · subst i
    rw [size, Array.getElem?_size]
    rfl
  · rfl

theorem component?_create (f : Forest) (typeName : String) (i : ComponentId) :
    (f.create typeName).2.component? i =
      if i = f.size then some (.new f.size typeName) else f.component? i := by
  rw [component?, component?, create, Array.getElem?_push, size]
  split <;> rfl

@[simp] theorem size_putComponent (f : Forest) (id : ComponentId) (c : Component) :
    (f.putComponent id c).size = f.size :=
  Array.size_modify

@[simp] theorem links_putComponent (f : Forest) (id : ComponentId) (c : Component)
    (i : ComponentId) : (f.putComponent id c).links i = f.links i := by
  rw [links, links, putComponent, Array.getElem?_modify]
  split
  · rw [Option.map_map]
    rfl
  · rfl

theorem component?_putComponent (f : Forest) (id : ComponentId) (c : Component)
    (i : ComponentId) :
    (f.putComponent id c).component? i =
      if i = id then (f.component? i).map fun _ => c else f.component? i := by
  rw [component?, component?, putComponent, Array.getElem?_modify]
  simp only [eq_comm (a := i)]
  split
  · rw [Option.map_map, Option.map_map]
    rfl
  · rfl

theorem component?_putComponent_self {id : ComponentId} {c : Component}
    (hc : f.component? id = some c) (c' : Component) :
    (f.putComponent id c').component? id = some c' := by
  rw [component?_putComponent, if_pos rfl, hc]
  rfl

end Forest
end StyleCascade
