import StyleCascade.Proofs.Forest.Run

/-!
# Forests in outline

The outline of a forest is what can be told of it without its links: the components, the parent
of each, and the children of each in order. On outlines the edits are plain operations on lists,
which say all that an edit does and, by leaving the rest as it is, all that it does not do. The
links are patched around the component that an edit is about, wherever it stands; `outline_append`
and its companions say that the outline comes out right in each case.

What an edit moves is one component at most. So whatever is not moved keeps its parent and its
place among the others, over any number of edits (`filter_children_run`).
-/

namespace StyleCascade

/-- A list of components without one of them. -/
def without (l : List ComponentId) (c : ComponentId) : List ComponentId := l.filter (· != c)

/-- Components in trees, the children of each in order. -/
@[ext] structure Outline where
  /-- The components, in the order of creation. -/
  components : List Component
  parent : ComponentId → Option ComponentId
  children : ComponentId → List ComponentId

namespace Outline

/-- A component is added that has no place among the others. -/
def create (o : Outline) (typeName : String) : Outline :=
  { o with components := o.components ++ [.new o.components.length typeName] }

/-- A component becomes the last child of another, wherever it was before. -/
def append (o : Outline) (parent child : ComponentId) : Outline :=
  { o with
    parent := fun i => if i = child then some parent else o.parent i
    children := fun q => if q = parent then without (o.children q) child ++ [child]
      else without (o.children q) child }

def remove (o : Outline) (parent child : ComponentId) : Outline :=
  { o with
    parent := fun i => if i = child then none else o.parent i
    children := fun q => if q = parent then without (o.children q) child else o.children q }

def revise (o : Outline) (id : ComponentId) (change : Component → Component) : Outline :=
  { o with components := o.components.modify id change }

end Outline

namespace Edit

/-- The component that an edit changes where it stands, and how it changes it. -/
def revision? : Edit → Option (ComponentId × (Component → Component))
  | .create _ | .append .. | .remove .. => none
  | .setClasses id names => some (id, fun c => c.setClasses names)
  | .addClass id name => some (id, fun c => (c.addClass name).2)
  | .removeClass id name => some (id, fun c => (c.removeClass name).2)
  | .setPseudo id name on => some (id, fun c => c.setPseudo name on)
  | .setMouseOver id on => some (id, fun c => c.setPseudo Component.hover on)
  | .setMouseDown id on => some (id, fun c => c.setPseudo Component.active on)
  | .setFocused id on => some (id, fun c => c.setPseudo Component.focus on)

/-- The component that an edit moves. -/
def moved? : Edit → Option ComponentId
  | .append _ child | .remove _ child => some child
  | _ => none

/-- Test whether an edit leaves a component where it stands. -/
def spares (e : Edit) (c : ComponentId) : Bool := e.moved? != some c

end Edit

/-- Test whether all of a number of edits leave a component where it stands. -/
def unmoved (edits : List Edit) (c : ComponentId) : Bool := edits.all fun e => e.spares c

namespace Outline

/-- What an edit can make of an outline; one that is refused makes nothing of it. -/
inductive Step (o : Outline) : Edit → Outline → Prop where
  | refuse (e : Edit) : Step o e o
  | create (typeName : String) : Step o (.create typeName) (o.create typeName)
  | append (parent child : ComponentId) : Step o (.append parent child) (o.append parent child)
  | remove (parent child : ComponentId) : Step o (.remove parent child) (o.remove parent child)
  | revise {e : Edit} {id : ComponentId} {change : Component → Component} :
      e.revision? = some (id, change) → Step o e (o.revise id change)

theorem filter_spares_without {e : Edit} {c : ComponentId} (he : e.moved? = some c)
    (l : List ComponentId) : (without l c).filter e.spares = l.filter e.spares := by
  rw [without, List.filter_filter]
  refine List.filter_congr fun x _ => ?_
  by_cases hx : x = c
  · simp [Edit.spares, he, hx]
  · simp [hx]

/-- Apart from what a step moves, every list of children is as it was. -/
theorem Step.filter_children {o o' : Outline} {e : Edit} (h : o.Step e o') (q : ComponentId) :
    (o'.children q).filter e.spares = (o.children q).filter e.spares := by
  cases h with
  | refuse | create | revise => rfl
  | append p c =>
      have kept := filter_spares_without (e := .append p c) rfl (o.children q)
      change (if q = p then without (o.children q) c ++ [c]
        else without (o.children q) c).filter _ = _
      split
      · rw [List.filter_append, kept]
        simp [Edit.spares, Edit.moved?]
      · exact kept
  | remove p c =>
      change (if q = p then without (o.children q) c else o.children q).filter _ = _
      split
      · exact filter_spares_without rfl (o.children q)
      · rfl

end Outline

namespace Forest

variable {f g : Forest} {kids : ComponentId → List ComponentId} {p c id : ComponentId}

/-- What can be told of a forest without its links. -/
def outline (f : Forest) : Outline where
  components := f.nodes.toList.map Node.component
  parent := f.parent?
  children := f.children

theorem getElem?_components (f : Forest) (i : ComponentId) :
    f.outline.components[i]? = f.component? i := by
  rw [outline, List.getElem?_map, Array.getElem?_toList, component?]

theorem length_components (f : Forest) : f.outline.components.length = f.size := by
  rw [outline, List.length_map, Array.length_toList, size]

theorem outline_eq {o : Outline} (hcomponents : ∀ i : Nat, f.component? i = o.components[i]?)
    (hparent : ∀ i, f.parent? i = o.parent i) (hchildren : ∀ q, f.children q = o.children q) :
    f.outline = o := by
  apply Outline.ext
  · apply List.ext_getElem?
    intro i
    rw [getElem?_components, hcomponents]
  · exact funext hparent
  · exact funext hchildren

theorem edit_of_revision {e : Edit} {change : Component → Component}
    (h : e.revision? = some (id, change)) : f.edit e = f.reviseAt id change := by
  cases e with
  | create | append | remove => cases h
  | setClasses => cases h; exact edit_setClasses f _ _
  | addClass => cases h; exact edit_addClass f _ _
  | removeClass => cases h; exact edit_removeClass f _ _
  | setPseudo | setMouseOver | setMouseDown | setFocused => cases h; exact edit_setPseudo f _ _ _

namespace Shape

theorem erase_eq_without (h : Shape f kids) (c q : ComponentId) :
    (kids q).erase c = without (f.children q) c := by
  rw [h.children_eq, (h.nodup q).erase_eq_filter, without]

/-- A number that is not given out has no place. -/
theorem placeless (h : Shape f kids) {i : ComponentId} (hi : f.size ≤ i) :
    f.parent? i = none ∧ f.children i = [] := by
  constructor
  · cases hparent : f.parent? i with
    | none => rfl
    | some p => exact absurd (h.lt_size p i ((h.parent_iff p i).mp hparent)).2 hi.not_gt
  · rw [h.children_eq, List.eq_nil_iff_forall_not_mem]
    intro c hc
    exact hi.not_gt (h.lt_size i c hc).1

theorem outline_create (h : Shape f kids) (typeName : String) :
    (f.create typeName).2.outline = f.outline.create typeName := by
  have hcreate : Shape (f.create typeName).2 kids :=
    h.congr (by simp) (links_create f typeName)
  apply outline_eq
  · intro i
    rw [component?_create, Outline.create, List.getElem?_append, length_components]
    rcases Nat.lt_trichotomy i f.size with hlt | rfl | hgt
    · rw [if_neg hlt.ne, if_pos hlt, getElem?_components]
    · simp
    · rw [if_neg hgt.ne', if_neg hgt.not_gt, component?_eq_none.mpr hgt.le, eq_comm,
        List.getElem?_eq_none_iff, List.length_singleton]
      omega
  · intro i
    rw [parent?, links_create]
    rfl
  · intro q
    exact (hcreate.children_eq q).trans (h.children_eq q).symm

theorem outline_reviseAt (h : Shape f kids) (id : ComponentId) (change : Component → Component) :
    (f.reviseAt id change).outline = f.outline.revise id change := by
  rw [reviseAt]
  cases hc : f.component? id with
  | none =>
      have hle : f.outline.components.length ≤ id := by
        rw [length_components]
        exact component?_eq_none.mp hc
      rw [Outline.revise, List.modify_eq_self hle]
  | some c =>
      have hput : Shape (f.putComponent id (change c)) kids :=
        h.congr (by simp) (links_putComponent f id (change c))
      apply outline_eq
      · intro i
        rw [component?_putComponent, Outline.revise, List.getElem?_modify, getElem?_components]
        by_cases hi : i = id
        · subst hi
          simp [hc]
        · simp [hi, Ne.symm hi]
      · intro i
        rw [parent?, links_putComponent]
        rfl
      · intro q
        exact (hput.children_eq q).trans (h.children_eq q).symm

/-- A component that is appended ends up at the end of one list, and in no other. -/
theorem append (h : Shape f kids) (happend : (f.append p c).value = .ok g) :
    Shape g (Function.update (fun q => (kids q).erase c) p ((kids p).erase c ++ [c])) ∧
      (∀ i, g.parent? i = if i = c then some p else f.parent? i) ∧
      ∀ i, g.component? i = f.component? i := by
  obtain ⟨hp, hc, hcycle, ⟨hroot, rfl⟩ | ⟨old, hold, rfl⟩⟩ := append_eq_ok happend
  · obtain ⟨line, hline, hfree⟩ := h.walk_of_not_isInclusiveAncestor hcycle
    have absent : ∀ q, (kids q).erase c = kids q := fun q =>
      List.erase_of_not_mem (h.not_mem_of_parent_none hroot q)
    simp only [absent]
    exact ⟨h.attach hp hc hroot hline hfree, h.parent?_attach hp hc, component?_attach f p c⟩
  · have hmem : c ∈ kids old := (h.parent_iff old c).mp hold
    refine ⟨h.move hmem hp hcycle, fun i => ?_, fun i => ?_⟩
    · rw [(h.detach hmem).parent?_attach (by rwa [size_detach]) (by rwa [size_detach]),
        h.parent?_detach hc]
      split <;> rfl
    · rw [component?_attach, component?_detach]

theorem outline_append (h : Shape f kids) (happend : (f.append p c).value = .ok g) :
    g.outline = f.outline.append p c := by
  obtain ⟨hg, hparent, hcomponent⟩ := h.append happend
  apply outline_eq
  · intro i
    rw [hcomponent, ← getElem?_components]
    rfl
  · exact hparent
  · intro q
    change g.children q =
      if q = p then without (f.children q) c ++ [c] else without (f.children q) c
    rw [hg.children_eq, Function.update_apply, ← h.erase_eq_without]
    split
    next hq => rw [hq]
    · rfl

theorem outline_remove (h : Shape f kids) (hremove : f.remove p c = .ok g) :
    g.outline = f.outline.remove p c := by
  obtain ⟨hold, rfl⟩ := remove_eq_ok hremove
  have hmem : c ∈ kids p := (h.parent_iff p c).mp hold
  apply outline_eq
  · intro i
    rw [component?_detach, ← getElem?_components]
    rfl
  · exact h.parent?_detach (h.lt_size p c hmem).2
  · intro q
    change (f.detach c).children q = if q = p then without (f.children q) c else f.children q
    rw [(h.detach hmem).children_eq, h.erase_eq_without]
    split
    · rfl
    next hq => rw [← h.erase_eq_without, h.erase_of_ne hmem hq, h.children_eq]

/-- A step of a forest is a step of its outline. -/
theorem step_outline (h : Shape f kids) (e : Edit) : f.outline.Step e (f.edit e).outline := by
  cases hrevision : e.revision? with
  | some revision =>
      rw [edit_of_revision hrevision, h.outline_reviseAt]
      exact .revise hrevision
  | none =>
      cases e with
      | create typeName =>
          rw [edit, h.outline_create]
          exact .create typeName
      | append p c =>
          rw [edit]
          cases happend : (f.append p c).value with
          | error _ => exact .refuse _
          | ok g =>
              change f.outline.Step _ g.outline
              rw [h.outline_append happend]
              exact .append p c
      | remove p c =>
          rw [edit]
          cases hremove : f.remove p c with
          | error _ => exact .refuse _
          | ok g =>
              change f.outline.Step _ g.outline
              rw [h.outline_remove hremove]
              exact .remove p c
      | _ => cases hrevision

end Shape

/-- Apart from what any of a number of edits moves, every list of children is as it was. -/
theorem filter_children_run (edits more : List Edit) (q : ComponentId) :
    ((run (edits ++ more)).children q).filter (unmoved more) =
      ((run edits).children q).filter (unmoved more) := by
  induction more generalizing edits with
  | nil => rw [List.append_nil]
  | cons e more ih =>
      obtain ⟨kids, h⟩ := shape_run edits
      have hstep : ((run (edits ++ [e])).children q).filter e.spares =
          ((run edits).children q).filter e.spares := by
        rw [run_concat]
        exact (h.step_outline e).filter_children q
      have twice : ∀ l : List ComponentId,
          l.filter (unmoved (e :: more)) = (l.filter (unmoved more)).filter e.spares :=
        fun l => (List.filter_filter ..).symm
      rw [twice, twice, List.append_cons, ih (edits ++ [e]), List.filter_comm, hstep,
        List.filter_comm]

/-- The edits of a forest are those of its outline. A new component has the number that comes next
and stands alone, and a change of names leaves every component at its place. So does an edit that
moves another component, but for the gap that it closes or the entry that it adds. -/
theorem run_refines_outline (edits : List Edit) :
    (∀ p c g, ((run edits).append p c).value = .ok g → g.outline = (run edits).outline.append p c) ∧
    (∀ p c g, (run edits).remove p c = .ok g → g.outline = (run edits).outline.remove p c) ∧
    (∀ typeName, ((run edits).create typeName).1 = (run edits).size ∧
      ((run edits).create typeName).2.outline = (run edits).outline.create typeName ∧
      ((run edits).create typeName).2.parent? (run edits).size = none ∧
      ((run edits).create typeName).2.children (run edits).size = []) ∧
    (∀ e id change, e.revision? = some (id, change) →
      ((run edits).edit e).outline = (run edits).outline.revise id change) ∧
    (∀ more q, ((run (edits ++ more)).children q).filter (unmoved more) =
      ((run edits).children q).filter (unmoved more)) := by
  obtain ⟨kids, h⟩ := shape_run edits
  refine ⟨?append, ?remove, ?create, ?revise, filter_children_run edits⟩
  case append =>
    intro p c g happend
    exact h.outline_append happend
  case remove =>
    intro p c g hremove
    exact h.outline_remove hremove
  case create =>
    intro typeName
    have hcreate := h.outline_create typeName
    obtain ⟨hparent, hchildren⟩ := h.placeless (Nat.le_refl (run edits).size)
    refine ⟨rfl, hcreate, ?_, ?_⟩
    · exact (congrFun (congrArg Outline.parent hcreate) _).trans hparent
    · exact (congrFun (congrArg Outline.children hcreate) _).trans hchildren
  case revise =>
    intro e id change hrevision
    rw [edit_of_revision hrevision, h.outline_reviseAt]

/-- The first of three children is appended once more. -/
example : (run [.create "a", .create "b", .create "c", .create "d", .append 0 1, .append 0 2,
    .append 0 3, .append 0 1]).children 0 = [2, 3, 1] := by decide

end Forest
end StyleCascade
