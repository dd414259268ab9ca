import StyleCascade.Forest.StyledTree
import StyleCascade.Proofs.Forest.Run
import StyleCascade.Proofs.Stylesheet.Inheritance

/-!
# Resolving a whole tree

A tree is resolved from its root down by working off a list of pending components. Each of them is
given with the place where its parent's entry stands among the entries that are there already, and
takes the parent's style from that entry.

`resolvePending_eq` follows the loop along the tour of the pending components, for any assignment
of entries to components in which every entry comes from its parent's by one step (`Handed`). When
the style of the root is its computed style, all styles are, because a component computed alone
also takes one step from its parent's computed style.
-/

namespace StyleCascade

/-!
## Computed styles in a forest

A component is computed by a climb along its own line of ancestors. Below a parent this comes to
one step from the parent's computed style, and at a root to a step from nothing, because the
lineage of the parent is the rest of the lineage of the child (`Shape.lineage?_of_parent`).
-/

namespace Forest

variable {f : Forest} {sheet : Stylesheet} {id p : ComponentId} {c : Component} {l : Lineage}

theorem lineage?_isSome : (f.lineage? id).isSome ↔ id < f.size := by
  rw [lineage?, Option.isSome_map, element?, Option.isSome_map, component?_isSome]

theorem compute_of_le (h : f.size ≤ id) : f.compute sheet id = pure none := by
  have hnone : f.lineage? id = none :=
    Option.not_isSome_iff_eq_none.mp fun hsome => Nat.not_lt.mpr h (lineage?_isSome.mp hsome)
  rw [compute, hnone]

theorem resolveOne_of_le (h : f.size ≤ id) (parentStyle : Option Style) :
    f.resolveOne sheet id parentStyle = pure none := by
  rw [resolveOne, component?_eq_none.mpr h]

def styleOf (f : Forest) (sheet : Stylesheet) (id : ComponentId) : Style :=
  (f.compute sheet id).value.getD .empty

/-- The events of resolving a component: those of its matches, and then the style itself. -/
def resolutionEvents (f : Forest) (sheet : Stylesheet) (id : ComponentId) : List Event :=
  match f.component? id, f.lineage? id with
  | some c, some l => (sheet.cascade l).events ++ [.resolved c (f.styleOf sheet id)]
  | _, _ => []

theorem styleOf_eq (hl : f.lineage? id = some l) :
    f.styleOf sheet id = (sheet.computeStyle l).value := by
  rw [styleOf, compute, hl]
  rfl

theorem value_compute (h : id < f.size) :
    (f.compute sheet id).value = some (f.styleOf sheet id) := by
  obtain ⟨l, hl⟩ := Option.isSome_iff_exists.mp (lineage?_isSome.mpr h)
  rw [styleOf_eq hl, compute, hl]
  rfl

theorem resolveOne_eq (hc : f.component? id = some c) (hl : f.lineage? id = some l)
    (parentStyle : Option Style) :
    f.resolveOne sheet id parentStyle =
      { value := some (sheet.computeWithParent l parentStyle).value
        events := (sheet.cascade l).events ++
          [.resolved c (sheet.computeWithParent l parentStyle).value] } := by
  rw [resolveOne, hc, hl]
  change Logged.mk _ (((sheet.cascade l).events ++ []) ++ ([_] ++ [])) = _
  rw [List.append_nil, List.append_nil]
  rfl

namespace Shape

variable {kids : ComponentId → List ComponentId}

theorem lineage?_of_root (hroot : f.parent? id = none) (hl : f.lineage? id = some l) :
    l.ancestors = [] := by
  obtain ⟨e, -, rfl⟩ := Option.map_eq_some_iff.mp hl
  rw [ancestors_of_root hroot]
  rfl

theorem lineage?_of_parent (h : Shape f kids) (hp : f.parent? id = some p)
    (hl : f.lineage? id = some l) :
    ∃ above, f.lineage? p = some above ∧ l.ancestors = above.element :: above.ancestors := by
  obtain ⟨above, habove⟩ := Option.isSome_iff_exists.mp
    (lineage?_isSome.mpr ((h.below id).parent p hp))
  refine ⟨above, habove, ?_⟩
  obtain ⟨e, -, rfl⟩ := Option.map_eq_some_iff.mp hl
  obtain ⟨e', he', rfl⟩ := Option.map_eq_some_iff.mp habove
  simp only [h.ancestors_of_parent hp, List.filterMap_cons, he']

/-- The climb along all ancestors comes to one step from the parent's computed style. -/
theorem styleOf_eq_computeWithParent (h : Shape f kids) (hl : f.lineage? id = some l) :
    f.styleOf sheet id =
      (sheet.computeWithParent l ((f.parent? id).map (f.styleOf sheet))).value := by
  rw [styleOf_eq hl]
  cases hp : f.parent? id with
  | none =>
      rw [Stylesheet.value_computeStyle, lineage?_of_root hp hl]
      rfl
  | some p =>
      obtain ⟨above, habove, hancestors⟩ := h.lineage?_of_parent hp hl
      rw [Option.map_some, styleOf_eq habove]
      obtain ⟨e, _⟩ := l
      subst hancestors
      exact Stylesheet.value_computeStyle_cons sheet e above.element above.ancestors

/-- Resolving a component from the computed style of its parent gives its own computed style. -/
theorem resolveOne_styleOf (h : Shape f kids) (sheet : Stylesheet) (hid : id < f.size) :
    f.resolveOne sheet id ((f.parent? id).map (f.styleOf sheet)) =
      { value := some (f.styleOf sheet id), events := f.resolutionEvents sheet id } := by
  obtain ⟨c, hc⟩ := Option.isSome_iff_exists.mp (component?_isSome.mpr hid)
  obtain ⟨l, hl⟩ := Option.isSome_iff_exists.mp (lineage?_isSome.mpr hid)
  rw [resolveOne_eq hc hl, ← h.styleOf_eq_computeWithParent hl, resolutionEvents, hc, hl]

end Shape
end Forest

/-! ## The loop of the resolver -/

namespace Forest

variable {f : Forest} {sheet : Stylesheet} {kids : ComponentId → List ComponentId}
variable {entry : ComponentId → StyledComponent} {log : ComponentId → List Event}
variable {order ids : List ComponentId} {resolved : Array StyledComponent} {count : Nat}
variable {pending : List (ComponentId × Nat)} {p c r x : ComponentId}

/-- The entry of a component comes from the entry of its parent by one step. -/
structure Handed (f : Forest) (sheet : Stylesheet) (entry : ComponentId → StyledComponent)
    (log : ComponentId → List Event) (p c : ComponentId) : Prop where
  step : f.resolveOne sheet c (some (entry p).style) =
    { value := some (entry c).style, events := log c }
  entry_eq : entry c =
    { id := c, parent := some (entry p).id, depth := (entry p).depth + 1, style := (entry c).style }

/-- One round of the loop, for a component whose parent's entry is there. -/
theorem resolvePending_cons {slot : Nat} (hslot : resolved[slot]? = some (entry p))
    (handed : Handed f sheet entry log p c) :
    f.resolvePending sheet (count + 1) resolved ((c, slot) :: pending) =
      { value := (f.resolvePending sheet count (resolved.push (entry c))
          ((f.children c).map (fun child => (child, resolved.size)) ++ pending)).value
        events := log c ++ (f.resolvePending sheet count (resolved.push (entry c))
          ((f.children c).map (fun child => (child, resolved.size)) ++ pending)).events } := by
  rw [resolvePending, hslot]
  simp only [handed.step]
  rw [handed.entry_eq]
  rfl

/-- The loop adds the entries of the components in the order of the tour. -/
theorem resolvePending_eq (h : Shape f kids) (tour : Tour f.children ids order)
    (hids : pending.map Prod.fst = ids) (enough : order.length ≤ count)
    (placed : ∀ t ∈ pending, ∃ p, f.parent? t.1 = some p ∧ resolved[t.2]? = some (entry p))
    (handed : ∀ c ∈ order, ∀ p, f.parent? c = some p → Handed f sheet entry log p c) :
    f.resolvePending sheet count resolved pending =
      { value := resolved ++ (order.map entry).toArray, events := order.flatMap log } := by
  induction tour generalizing pending resolved count with
  | done =>
      rw [List.map_eq_nil_iff.mp hids]
      cases count <;> simp [resolvePending] <;> rfl
  | @visit _ _ order _ ih =>
      obtain ⟨⟨c, slot⟩, pending, rfl, rfl, rfl⟩ := List.map_eq_cons_iff.mp hids
      cases count with
      | zero => cases enough
      | succ count =>
          obtain ⟨p, hp, hslot⟩ := placed (c, slot) List.mem_cons_self
          rw [resolvePending_cons hslot (handed c List.mem_cons_self p hp),
            ih (by simp [Function.comp_def]) (Nat.le_of_succ_le_succ enough) ?_
              fun x hx => handed x (List.mem_cons_of_mem c hx)]
          · simp
          · intro t ht
            rcases List.mem_append.mp ht with ht | ht
            · obtain ⟨child, hchild, rfl⟩ := List.mem_map.mp ht
              exact ⟨c, h.mem_children.mp hchild, Array.getElem?_push_size⟩
            · obtain ⟨q, hq, hplace⟩ := placed t (List.mem_cons_of_mem _ ht)
              refine ⟨q, hq, ?_⟩
              obtain ⟨hlt, -⟩ := Array.getElem?_eq_some_iff.mp hplace
              rw [Array.getElem?_push, if_neg hlt.ne, hplace]

/-- The number of steps up to the root. -/
def level (f : Forest) (id : ComponentId) : Nat := (f.ancestors id).length

theorem Shape.level_of_parent (h : Shape f kids) (hp : f.parent? c = some p) :
    f.level c = f.level p + 1 := by
  rw [level, h.ancestors_of_parent hp, List.length_cons, level]

theorem Shape.level_le_of_under (h : Shape f kids) (hx : f.Under x r) : f.level r ≤ f.level x := by
  induction hx using Relation.ReflTransGen.head_induction_on with
  | refl => exact Nat.le_refl _
  | head hp _ ih => exact ih.trans (Nat.le_of_lt (by rw [h.level_of_parent hp]; omega))

/-- The entry of a component in the tree of `root`. -/
def entryUnder (f : Forest) (sheet : Stylesheet) (root id : ComponentId) : StyledComponent where
  id := id
  parent := if id = root then none else f.parent? id
  depth := f.level id - f.level root
  style := f.styleOf sheet id

theorem Shape.handed_entryUnder (h : Shape f kids) (hp : f.parent? c = some p)
    (under : f.Under p r) :
    Handed f sheet (f.entryUnder sheet r) (f.resolutionEvents sheet) p c where
  step := by
    have hstep := h.resolveOne_styleOf sheet (h.lt_size p c ((h.parent_iff p c).mp hp)).2
    rwa [hp] at hstep
  entry_eq := by
    have hle := h.level_le_of_under under
    rw [entryUnder, if_neg (h.ne_of_parent hp under), hp, h.level_of_parent hp,
      Nat.sub_add_comm hle]
    rfl

theorem entryUnder_self (f : Forest) (sheet : Stylesheet) (r : ComponentId) :
    f.entryUnder sheet r r =
      { id := r, parent := none, depth := 0, style := f.styleOf sheet r } := by
  rw [entryUnder, if_pos rfl, Nat.sub_self]

/-- The loop starts from the entry of the root. -/
theorem resolveWithParent_of_step {parentStyle : Option Style} {style : Style}
    {events : List Event}
    (step : f.resolveOne sheet r parentStyle = { value := some style, events }) :
    f.resolveWithParent sheet r parentStyle =
      { value := some { components := (f.resolvePending sheet f.size
          #[{ id := r, parent := none, depth := 0, style }]
          ((f.children r).map fun child => (child, 0))).value.toList }
        events := events ++ (f.resolvePending sheet f.size
          #[{ id := r, parent := none, depth := 0, style }]
          ((f.children r).map fun child => (child, 0))).events } := by
  rw [resolveWithParent, step]
  change Logged.mk _ (_ ++ (_ ++ [])) = _
  rw [List.append_nil]
  rfl

/-- From a given style of its parent on, a component gives the entries of all components under it
in the order of the tour, if its own entry takes one step from there and every other one a step from
the entry of its parent. -/
theorem Shape.resolveWithParent_eq (h : Shape f kids) (hr : r < f.size)
    (tour : Tour f.children [r] order) {parentStyle : Option Style}
    (root : entry r = { id := r, parent := none, depth := 0, style := (entry r).style })
    (step : f.resolveOne sheet r parentStyle =
      { value := some (entry r).style, events := log r })
    (handed : ∀ p c, f.parent? c = some p → f.Under p r → Handed f sheet entry log p c) :
    f.resolveWithParent sheet r parentStyle =
      { value := some { components := order.map entry }, events := order.flatMap log } := by
  have hlen := h.length_tour_le hr tour
  cases tour with
  | @visit _ _ order rest =>
      have below : ∀ c ∈ order, ∀ p, f.parent? c = some p → Handed f sheet entry log p c := by
        intro c hc p hp
        obtain ⟨x, hx, under⟩ := (h.mem_tour rest).mp hc
        rw [List.append_nil] at hx
        exact handed p c hp (h.under_of_parent hx under hp)
      have placed : ∀ t ∈ (f.children r).map fun child => (child, 0),
          ∃ p, f.parent? t.1 = some p ∧ #[entry r][t.2]? = some (entry p) := by
        intro t ht
        obtain ⟨child, hchild, rfl⟩ := List.mem_map.mp ht
        exact ⟨r, h.mem_children.mp hchild, rfl⟩
      rw [resolveWithParent_of_step step, ← root,
        resolvePending_eq h rest (by simp [Function.comp_def]) (Nat.le_of_succ_le hlen) placed
          below]
      simp

/-- From the computed style of its parent on, a component gives every component under it its own
computed style. -/
theorem Shape.resolveWithParent_styleOf (h : Shape f kids) (sheet : Stylesheet) (hr : r < f.size)
    (tour : Tour f.children [r] order) :
    f.resolveWithParent sheet r ((f.parent? r).map (f.styleOf sheet)) =
      { value := some { components := order.map (f.entryUnder sheet r) }
        events := order.flatMap (f.resolutionEvents sheet) } :=
  h.resolveWithParent_eq hr tour (entryUnder_self f sheet r) (h.resolveOne_styleOf sheet hr)
    fun _ _ hp under => h.handed_entryUnder hp under

/-- The tree of a component, in the order of the tour; the computed style of the parent comes
first in the log. -/
theorem Shape.resolve_eq (h : Shape f kids) (hr : r < f.size)
    (tour : Tour f.children [r] order) :
    f.resolve sheet r =
      { value := some { components := order.map (f.entryUnder sheet r) }
        events := (match f.parent? r with
            | none => []
            | some p => (f.compute sheet p).events) ++
          order.flatMap (f.resolutionEvents sheet) } := by
  have hroot := h.resolveWithParent_styleOf sheet hr tour
  rw [resolve]
  cases hp : f.parent? r with
  | none =>
      rw [hp] at hroot
      exact hroot
  | some p =>
      rw [hp, Option.map_some, ← value_compute ((h.below r).parent p hp)] at hroot
      change Logged.mk (f.resolveWithParent sheet r (f.compute sheet p).value).value
        (_ ++ (f.resolveWithParent sheet r (f.compute sheet p).value).events) = _
      rw [hroot]

/-- A child that is appended once more comes last. -/
example :
    ((run [.create "panel", .create "label", .create "label", .append 0 1, .append 0 2,
        .append 0 1]).resolve .empty 0).value.map (fun t => t.components.map StyledComponent.id) =
      some [0, 2, 1] := by
  decide

theorem Shape.resolve_of_le (h : Shape f kids) (hr : f.size ≤ r) :
    f.resolve sheet r = pure none := by
  have hroot : f.parent? r = none := by
    cases hp : f.parent? r with
    | none => rfl
    | some p => exact absurd (h.lt_size p r ((h.parent_iff p r).mp hp)).2 (Nat.not_lt.mpr hr)
  rw [resolve, hroot]
  simp only [resolveWithParent, resolveOne_of_le hr]
  rfl

/-- Resolving a tree and computing its components one by one agree, whatever edits the forest comes
from: the tree of a component has an entry for each component under it and for no other, and each
entry has the style that its component is computed to have by the climb to the root. A number that
is not given out has neither a tree nor a style. -/
theorem resolve_agrees (edits : List Edit) (sheet : Stylesheet) (id : ComponentId) :
    (id < (run edits).size ∧ ∃ t, ((run edits).resolve sheet id).value = some t ∧
        (∀ x, x ∈ t.components.map StyledComponent.id ↔ (run edits).Under x id) ∧
        ∀ e ∈ t.components, ((run edits).compute sheet e.id).value = some e.style) ∨
      ((run edits).size ≤ id ∧ ((run edits).resolve sheet id).value = none ∧
        ((run edits).compute sheet id).value = none) := by
  obtain ⟨kids, h⟩ := shape_run edits
  rcases Nat.lt_or_ge id (run edits).size with hid | hid
  · obtain ⟨order, tour⟩ := h.exists_tour [id]
    refine .inl ⟨hid, _, congrArg Logged.value (h.resolve_eq hid tour), ?_, ?_⟩
    · intro x
      rw [List.map_map, ← h.mem_tour_single tour]
      simp [Function.comp_def, entryUnder]
    · intro e he
      obtain ⟨x, hx, rfl⟩ := List.mem_map.mp he
      exact value_compute (h.lt_of_under hid ((h.mem_tour_single tour).mp hx))
  · refine .inr ⟨hid, ?_, ?_⟩
    · rw [h.resolve_of_le hid, Logged.value_pure]
    · rw [compute_of_le hid, Logged.value_pure]

end Forest
end StyleCascade
