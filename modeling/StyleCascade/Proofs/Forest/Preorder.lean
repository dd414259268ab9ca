import Mathlib.Data.Set.Card
import StyleCascade.Proofs.Forest.Resolution

/-!
# Pre-order

A tree in pre-order is its root, followed by the trees of the children, one after the other. The
definition bounds the depth of the recursion by the number of components; in a forest with a shape
the bound has no effect (`Shape.preorder_eq`), since no way down is longer than that.

The resolver does not recur. What it works off is a tour, and a tour from one component is the
pre-order (`Shape.tour_preorder`). So its result lists a tree in pre-order (`resolve_preorder`), and
the children of a component are found in it in their order, because they come in this order in the
tree of the component, which is a part of the list.
-/

namespace StyleCascade

namespace Forest

/-- The tree of a component in pre-order, down to a given depth. -/
def preorderTo (f : Forest) : Nat → ComponentId → List ComponentId
  | 0, _ => []
  | depth + 1, id => id :: (f.children id).flatMap (f.preorderTo depth)

def preorder (f : Forest) (id : ComponentId) : List ComponentId := f.preorderTo (f.size + 1) id

/-- The component that stands a number of steps above another. -/
def above? (f : Forest) : Nat → ComponentId → Option ComponentId
  | 0, id => some id
  | steps + 1, id => (f.parent? id).bind (f.above? steps)

end Forest

/-- The members of a part of a list, picked out of the whole list. -/
theorem filter_eq_of_sublist {α : Type} {p : α → Bool} {part whole : List α}
    (sub : part.Sublist whole) (hnodup : whole.Nodup) (h : ∀ a ∈ whole, p a = true ↔ a ∈ part) :
    whole.filter p = part := by
  have picked : part.filter p = part :=
    List.filter_eq_self.mpr fun a ha => (h a (sub.subset ha)).mpr ha
  have hsub : part.Sublist (whole.filter p) := picked ▸ sub.filter p
  refine (hsub.eq_of_length_le (List.Nodup.length_le_of_subset (hnodup.filter p) ?_)).symm
  intro a ha
  obtain ⟨hmem, hp⟩ := List.mem_filter.mp ha
  exact (h a hmem).mp hp

namespace Forest

variable {f : Forest} {sheet : Stylesheet} {kids : ComponentId → List ComponentId}
variable {r x y : ComponentId} {steps : Nat}

namespace Shape

/-! ### The tour from one component -/

theorem level_le (h : Shape f kids) (x : ComponentId) : f.level x ≤ f.size :=
  length_le_of_nodup (h.walk_ancestors x).nodup fun _ => h.lt_of_mem_ancestors

/-- A depth is enough if no way down from the root is longer. -/
theorem tour_preorderTo (h : Shape f kids) (x : ComponentId) :
    ∀ depth, f.size < f.level x + depth → Tour f.children [x] (f.preorderTo depth x) := by
  induction x using h.descend with | step p hchildren
  intro depth enough
  cases depth with
  | zero =>
      -- No component has more steps up to its root than there are components.
      exact absurd (h.level_le p) (Nat.not_le.mpr enough)
  | succ depth =>
      refine .visit ?_
      rw [List.append_nil]
      refine Tour.flatMap fun c hc => hchildren c hc depth ?_
      rw [h.level_of_parent (h.mem_children.mp hc)]
      omega

theorem tour_preorder (h : Shape f kids) (x : ComponentId) :
    Tour f.children [x] (f.preorder x) :=
  h.tour_preorderTo x (f.size + 1) (by omega)

/-- The bound of the recursion has no effect. -/
theorem preorder_eq (h : Shape f kids) (x : ComponentId) :
    f.preorder x = x :: (f.children x).flatMap f.preorder := by
  have byParts : Tour f.children [x] (x :: (f.children x).flatMap f.preorder) := by
    refine .visit ?_
    rw [List.append_nil]
    exact Tour.flatMap fun c _ => h.tour_preorder c
  exact (h.tour_preorder x).unique byParts

theorem mem_preorder (h : Shape f kids) : y ∈ f.preorder x ↔ f.Under y x :=
  h.mem_tour_single (h.tour_preorder x)

theorem nodup_preorder (h : Shape f kids) (x : ComponentId) : (f.preorder x).Nodup :=
  h.nodup_tour_single (h.tour_preorder x)

theorem length_preorder (h : Shape f kids) (x : ComponentId) :
    (f.preorder x).length = {y | f.Under y x}.ncard := by
  have hset : {y | f.Under y x} = (f.preorder x).toFinset := by
    ext y
    simp [h.mem_preorder]
  rw [hset, Set.ncard_coe_finset, List.toFinset_card_of_nodup (h.nodup_preorder x)]

/-! ### Parts of the list -/

/-- The children come in their order. -/
theorem children_sublist_preorder (h : Shape f kids) (x : ComponentId) :
    (f.children x).Sublist (f.preorder x) := by
  have heads : ∀ c ∈ f.children x, [c].Sublist (f.preorder c) :=
    fun c _ => List.singleton_sublist.mpr (h.mem_preorder.mpr .refl)
  rw [h.preorder_eq]
  calc
    f.children x = (f.children x).flatMap fun c => [c] := (List.flatMap_singleton' _).symm
    List.Sublist _ ((f.children x).flatMap f.preorder) := List.Sublist.flatMap_right _ heads
    List.Sublist _ _ := List.sublist_cons_self x _

/-- The tree of a component under another is a part of the other's, without a gap. -/
theorem preorder_infix (h : Shape f kids) (hx : f.Under x r) :
    f.preorder x <:+: f.preorder r := by
  induction hx using Relation.ReflTransGen.head_induction_on with
  | refl => exact List.infix_refl _
  | @head x p hp _ ih =>
      have inParent : f.preorder x <:+: f.preorder p := by
        rw [h.preorder_eq p]
        exact (List.infix_flatMap_of_mem (h.mem_children.mpr hp) f.preorder).trans
          (List.suffix_cons p _).isInfix
      exact inParent.trans ih

theorem parent_entryUnder_iff (h : Shape f kids) (hx : f.Under x r) :
    (f.entryUnder sheet r y).parent = some x ↔ y ∈ f.children x := by
  rw [h.mem_children]
  by_cases hy : y = r
  · -- The root has no parent in its tree, and `x` is not above it.
    subst hy
    have hroot : f.parent? y ≠ some x := fun hp => h.not_under_child (h.mem_children.mpr hp) hx
    rw [entryUnder_self]
    exact iff_of_false nofun hroot
  · rw [entryUnder, if_neg hy]

/-! ### Steps up -/

theorem above?_of_under (h : Shape f kids) (hx : f.Under x r) :
    f.above? (f.level x - f.level r) x = some r := by
  induction hx using Relation.ReflTransGen.head_induction_on with
  | refl =>
      rw [Nat.sub_self]
      rfl
  | @head x p hp hup ih =>
      rw [h.level_of_parent hp, Nat.sub_add_comm (h.level_le_of_under hup), above?, hp]
      exact ih

theorem level_of_above? (h : Shape f kids) (hx : f.above? steps x = some r) :
    f.level x = f.level r + steps := by
  induction steps generalizing x with
  | zero => rw [Option.some.inj hx, Nat.add_zero]
  | succ steps ih =>
      obtain ⟨p, hp, hup⟩ := Option.bind_eq_some_iff.mp hx
      rw [h.level_of_parent hp, ih hup, Nat.add_assoc]

theorem above?_iff (h : Shape f kids) (hx : f.Under x r) :
    f.above? steps x = some r ↔ steps = f.level x - f.level r := by
  constructor
  · intro hsteps
    rw [h.level_of_above? hsteps, Nat.add_sub_cancel_left]
  · rintro rfl
    exact h.above?_of_under hx

end Shape

/-! ### The styled tree -/

def styledTree (f : Forest) (sheet : Stylesheet) (r : ComponentId) : StyledTree where
  components := (f.preorder r).map (f.entryUnder sheet r)

theorem Shape.value_resolve (h : Shape f kids) (sheet : Stylesheet) (hr : r < f.size) :
    (f.resolve sheet r).value = some (f.styledTree sheet r) := by
  rw [h.resolve_eq hr (h.tour_preorder r)]
  rfl

theorem map_id_styledTree (f : Forest) (sheet : Stylesheet) (r : ComponentId) :
    (f.styledTree sheet r).components.map StyledComponent.id = f.preorder r := by
  simp [styledTree, entryUnder, Function.comp_def]

/-- Each component is found by its own entry. -/
theorem get?_map {order : List ComponentId} {entry : ComponentId → StyledComponent}
    {e : StyledComponent} (own : ∀ y, (entry y).id = y) :
    StyledTree.get? { components := order.map entry } x = some e ↔ x ∈ order ∧ e = entry x := by
  have sound : ∀ e, StyledTree.get? { components := order.map entry } x = some e →
      x ∈ order ∧ e = entry x := by
    intro e he
    rw [StyledTree.get?] at he
    have hid := List.find?_some he
    obtain ⟨y, hy, rfl⟩ := List.mem_map.mp (List.mem_of_find?_eq_some he)
    obtain rfl : y = x := by simpa [own] using hid
    exact ⟨hy, rfl⟩
  refine ⟨sound e, ?_⟩
  rintro ⟨hx, rfl⟩
  have found : (StyledTree.get? { components := order.map entry } x).isSome :=
    List.find?_isSome.mpr ⟨_, List.mem_map_of_mem hx, by simp [own]⟩
  obtain ⟨e, he⟩ := Option.isSome_iff_exists.mp found
  rw [he, (sound e he).2]

theorem get?_styledTree {e : StyledComponent} : (f.styledTree sheet r).get? x = some e ↔
    x ∈ f.preorder r ∧ e = f.entryUnder sheet r x :=
  get?_map fun _ => rfl

/-- The children of a component are picked out of the list in their order. -/
theorem Shape.children_styledTree (h : Shape f kids) (hx : f.Under x r) :
    ((f.styledTree sheet r).children x).map StyledComponent.id = f.children x := by
  have picked : (f.preorder r).filter
      (fun y => (f.entryUnder sheet r y).parent == some x) = f.children x := by
    refine filter_eq_of_sublist ?_ (h.nodup_preorder r) fun y _ => ?_
    · exact (h.children_sublist_preorder x).trans (h.preorder_infix hx).sublist
    · rw [beq_iff_eq, h.parent_entryUnder_iff hx]
  rw [StyledTree.children, styledTree, List.filter_map, List.map_map]
  calc
    _ = ((f.preorder r).filter fun y => (f.entryUnder sheet r y).parent == some x).map id := rfl
    _ = f.children x := by rw [List.map_id, picked]

/-- A component is resolved to its tree in pre-order: itself, then the trees of its children, one
after the other. There is one entry for each component under it, with its parent and with the number
of steps up to the root of the tree, which alone has no parent; and the children of a component are
found among the entries as they stand in the forest. -/
theorem resolve_preorder (edits : List Edit) (sheet : Stylesheet) (r : ComponentId)
    (hr : r < (run edits).size) :
    (∀ x, (run edits).preorder x =
      x :: ((run edits).children x).flatMap (run edits).preorder) ∧
    ∃ t, ((run edits).resolve sheet r).value = some t ∧
      t.components.map StyledComponent.id = (run edits).preorder r ∧
      ((run edits).preorder r).Nodup ∧
      (∀ x, (t.get? x).isSome ↔ (run edits).Under x r) ∧
      t.size = {x | (run edits).Under x r}.ncard ∧
      (∃ e, t.get? r = some e ∧ e.parent = none ∧ e.depth = 0) ∧
      (∀ x e, x ≠ r → t.get? x = some e →
        ∃ p, (run edits).parent? x = some p ∧ e.parent = some p ∧
          ∀ steps, (run edits).above? steps x = some r ↔ steps = e.depth) ∧
      ∀ x, (run edits).Under x r →
        (t.children x).map StyledComponent.id = (run edits).children x := by
  obtain ⟨kids, h⟩ := shape_run edits
  refine ⟨h.preorder_eq, _, h.value_resolve sheet hr, map_id_styledTree _ sheet r,
    h.nodup_preorder r, fun x => ?_, ?_, ?_, fun x e hne he => ?_,
    fun x hx => h.children_styledTree hx⟩
  case refine_1 =>
    simp only [Option.isSome_iff_exists, get?_styledTree, h.mem_preorder, exists_and_left,
      exists_eq, and_true]
  case refine_2 =>
    rw [← h.length_preorder, StyledTree.size, styledTree, List.length_map]
  case refine_3 =>
    exact ⟨_, get?_styledTree.mpr ⟨h.mem_preorder.mpr .refl, rfl⟩, if_pos rfl, Nat.sub_self _⟩
  case refine_4 =>
    obtain ⟨hmem, rfl⟩ := get?_styledTree.mp he
    have hx := h.mem_preorder.mp hmem
    obtain heq | ⟨p, hp, -⟩ := hx.cases_head
    · exact absurd heq hne
    · exact ⟨p, hp, (if_neg hne).trans hp, fun steps => h.above?_iff hx⟩

/-- A panel in a window, with a button in it that has a label of its own, and another label. -/
theorem resolve_preorder_panel :
    let edits : List Edit := [.create "window", .create "panel", .create "label", .create "button",
      .create "label", .append 0 1, .append 1 3, .append 1 4, .append 3 2]
    1 < (run edits).size ∧ ∀ sheet : Stylesheet, ∃ t,
      ((run edits).resolve sheet 1).value = some t ∧
      t.components.map StyledComponent.id = [1, 3, 2, 4] ∧ (t.get? 0).isSome = false ∧
      (t.children 1).map StyledComponent.id = [3, 4] := by
  intro edits
  have hr : 1 < (run edits).size := by decide
  have order : (run edits).preorder 1 = [1, 3, 2, 4] := by decide
  refine ⟨hr, fun sheet => ?_⟩
  obtain ⟨-, t, ht, hids, -, hget, -, -, -, hchildren⟩ := resolve_preorder edits sheet 1 hr
  obtain ⟨kids, h⟩ := shape_run edits
  have above : ¬ (run edits).Under 0 1 := by
    rw [← h.mem_preorder, order]
    decide
  refine ⟨t, ht, hids.trans order, Bool.eq_false_iff.mpr fun found => above ((hget 0).mp found), ?_⟩
  rw [hchildren 1 .refl]
  decide

end Forest

/-!
## Resolving a part of a tree

A tree can be resolved from any style that is given for the parent of its root. The given style goes
down from component to component (`handedStyle`), and the entries of the tree follow from it
(`entryFrom`).

A component under the root is handed the style of its parent's entry. Resolving it alone from that
style is one more way down that comes to the same styles (`Shape.handedStyle_below`), and its tree
in pre-order stands in the larger one without a gap. So the two results differ in nothing but what
the entries say about the root: the depth is counted from there, and it has no parent (`graft`).
-/

/-- A tree put in below a component, its root at a given depth. -/
def StyledTree.graft (t : StyledTree) (parent : ComponentId) (depth : Nat) : StyledTree where
  components := (t.components.map fun e => { e with depth := e.depth + depth }).modifyHead
    fun e => { e with parent := some parent }

namespace Forest

/-- The style that a component takes on in one step from a given style of its parent. -/
def styleFrom (f : Forest) (sheet : Stylesheet) (id : ComponentId) (given : Option Style) : Style :=
  (f.resolveOne sheet id given).value.getD .empty

/-- The style that a component is handed from its parent. A number of steps above the component a
style is given, and what stands in between takes one step from what it is handed itself. -/
def handedStyle (f : Forest) (sheet : Stylesheet) (given : Option Style) :
    Nat → ComponentId → Option Style
  | 0, _ => given
  | steps + 1, id =>
    (f.parent? id).map fun p => f.styleFrom sheet p (f.handedStyle sheet given steps p)

/-- The entry of a component in the tree of `root`, from a given style of the parent of `root`. -/
def entryFrom (f : Forest) (sheet : Stylesheet) (given : Option Style) (root id : ComponentId) :
    StyledComponent where
  id := id
  parent := if id = root then none else f.parent? id
  depth := f.level id - f.level root
  style := f.styleFrom sheet id (f.handedStyle sheet given (f.level id - f.level root) id)

def styledTreeFrom (f : Forest) (sheet : Stylesheet) (given : Option Style) (r : ComponentId) :
    StyledTree where
  components := (f.preorder r).map (f.entryFrom sheet given r)

variable {f : Forest} {sheet : Stylesheet} {kids : ComponentId → List ComponentId}
variable {given : Option Style} {p c r x : ComponentId}

theorem value_resolveOne (hid : x < f.size) :
    (f.resolveOne sheet x given).value = some (f.styleFrom sheet x given) := by
  obtain ⟨c, hc⟩ := Option.isSome_iff_exists.mp (component?_isSome.mpr hid)
  obtain ⟨l, hl⟩ := Option.isSome_iff_exists.mp (lineage?_isSome.mpr hid)
  rw [styleFrom, resolveOne_eq hc hl]
  rfl

theorem get?_styledTreeFrom {e : StyledComponent} :
    (f.styledTreeFrom sheet given r).get? x = some e ↔
      x ∈ f.preorder r ∧ e = f.entryFrom sheet given r x :=
  get?_map fun _ => rfl

theorem style_entryFrom : (f.entryFrom sheet given r x).style =
    f.styleFrom sheet x (f.handedStyle sheet given (f.level x - f.level r) x) := rfl

theorem entryFrom_self (f : Forest) (sheet : Stylesheet) (given : Option Style) (r : ComponentId) :
    f.entryFrom sheet given r r =
      { id := r, parent := none, depth := 0, style := f.styleFrom sheet r given } := by
  rw [entryFrom, if_pos rfl, Nat.sub_self, handedStyle]

namespace Shape

/-- What is handed to a component is the style of its parent's entry. -/
theorem handedStyle_of_parent (h : Shape f kids) (hp : f.parent? c = some p) (under : f.Under p r) :
    f.handedStyle sheet given (f.level c - f.level r) c =
      some (f.entryFrom sheet given r p).style := by
  rw [h.level_of_parent hp, Nat.sub_add_comm (h.level_le_of_under under), handedStyle, hp]
  rfl

theorem handed_entryFrom (h : Shape f kids) (hp : f.parent? c = some p) (under : f.Under p r) :
    Handed f sheet (f.entryFrom sheet given r)
      (fun x => (f.resolveOne sheet x
        (f.handedStyle sheet given (f.level x - f.level r) x)).events) p c where
  step := by
    have hc := (h.lt_size p c ((h.parent_iff p c).mp hp)).2
    rw [← h.handedStyle_of_parent hp under, entryFrom, ← value_resolveOne hc]
  entry_eq := by
    rw [entryFrom, if_neg (h.ne_of_parent hp under), hp, h.level_of_parent hp,
      Nat.sub_add_comm (h.level_le_of_under under)]
    rfl

theorem value_resolveWithParent (h : Shape f kids) (sheet : Stylesheet) (given : Option Style)
    (hr : r < f.size) :
    (f.resolveWithParent sheet r given).value = some (f.styledTreeFrom sheet given r) := by
  have root := entryFrom_self f sheet given r
  rw [h.resolveWithParent_eq hr (h.tour_preorder r) (by rw [root]) ?_
    fun p c hp under => h.handed_entryFrom hp under]
  · rfl
  · rw [root, Nat.sub_self, handedStyle, ← value_resolveOne hr]

/-- From a component on, the way down is the same if it starts there with what came that far. -/
theorem handedStyle_below (h : Shape f kids) (hp : f.parent? c = some p) (under : f.Under p r)
    (hx : f.Under x c) :
    f.handedStyle sheet given (f.level x - f.level r) x =
      f.handedStyle sheet (some (f.entryFrom sheet given r p).style) (f.level x - f.level c) x := by
  have hcr : f.Under c r := .head hp under
  -- From `x` up to `c` both ways take the same steps, so the parents of `x` decide.
  induction hx using Relation.ReflTransGen.head_induction_on with
  | refl => rw [h.handedStyle_of_parent hp under, Nat.sub_self, handedStyle]
  | @head x q hq hup ih =>
      rw [h.handedStyle_of_parent hq (hup.trans hcr), h.handedStyle_of_parent hq hup,
        style_entryFrom, ih, ← style_entryFrom]

/-- In the larger tree an entry is the same but for what it says about the root. -/
theorem entryFrom_below (h : Shape f kids) (hp : f.parent? c = some p) (under : f.Under p r)
    (hx : f.Under x c) :
    f.entryFrom sheet given r x =
      { f.entryFrom sheet (some (f.entryFrom sheet given r p).style) c x with
        parent := f.parent? x
        depth := f.level x - f.level c + (f.level c - f.level r) } := by
  have hcr : f.Under c r := .head hp under
  have hxr : x ≠ r := by
    rintro rfl
    exact h.not_under_child (h.mem_children.mpr hp) (under.trans hx)
  have hdepth : f.level x - f.level r = f.level x - f.level c + (f.level c - f.level r) := by
    have := h.level_le_of_under hx
    have := h.level_le_of_under hcr
    omega
  rw [entryFrom, if_neg hxr, h.handedStyle_below hp under hx, hdepth]
  rfl

/-- The entries of what is under a component are those of its own tree, put in below its parent. -/
theorem map_entryFrom_below (h : Shape f kids) (hp : f.parent? c = some p)
    (under : f.Under p r) :
    (f.preorder c).map (f.entryFrom sheet given r) =
      ((f.styledTreeFrom sheet (some (f.entryFrom sheet given r p).style) c).graft p
        (f.level c - f.level r)).components := by
  have hnodup := h.nodup_preorder c
  have hunder : ∀ x ∈ f.preorder c, f.Under x c := fun x hx => h.mem_preorder.mp hx
  rw [StyledTree.graft, styledTreeFrom]
  -- The root of the part has a parent in the larger tree; the others keep theirs.
  rw [h.preorder_eq c] at hnodup hunder ⊢
  simp only [List.map_cons, List.modifyHead_cons, List.map_map, List.cons.injEq]
  constructor
  · rw [h.entryFrom_below hp under .refl, hp]
    rfl
  · refine List.map_congr_left fun x hx => ?_
    have hne : x ≠ c := fun heq => (List.nodup_cons.mp hnodup).1 (heq ▸ hx)
    rw [h.entryFrom_below hp under (hunder x (List.mem_cons_of_mem c hx))]
    simp only [Function.comp_apply, entryFrom, if_neg hne]

/-- A part of a tree that is resolved from computed styles is resolved from computed styles. -/
theorem value_resolve_below (h : Shape f kids) (hr : r < f.size) (hp : f.parent? c = some p)
    (under : f.Under p r)
    (whole : (f.resolve sheet r).value = some (f.styledTreeFrom sheet given r)) :
    (f.resolve sheet c).value =
      some (f.styledTreeFrom sheet (some (f.entryFrom sheet given r p).style) c) := by
  have hc : c < f.size := h.lt_of_under hr (.head hp under)
  have same : f.styledTreeFrom sheet given r = f.styledTree sheet r :=
    Option.some.inj (whole.symm.trans (h.value_resolve sheet hr))
  have hstyle : (f.entryFrom sheet given r p).style = f.styleOf sheet p := by
    have found : (f.styledTreeFrom sheet given r).get? p = some (f.entryFrom sheet given r p) :=
      get?_styledTreeFrom.mpr ⟨h.mem_preorder.mpr under, rfl⟩
    rw [same] at found
    rw [(get?_styledTree.mp found).2]
    rfl
  have alone := h.resolveWithParent_styleOf sheet hc (h.tour_preorder c)
  rw [hp, Option.map_some, ← hstyle] at alone
  rw [h.value_resolve sheet hc, ← h.value_resolveWithParent sheet _ hc, alone]
  rfl

end Shape

/-- Resolving a part of a tree alone gives the same as resolving the whole, whatever style is given
for the parent of the root. The entries of what is under a component stand together in the tree, and
they are those of the component's own tree, from the style that its parent has there, put in below
this parent. If the tree is the one that is resolved from computed styles, then so is the part. -/
theorem resolve_subtree (edits : List Edit) (sheet : Stylesheet) (r : ComponentId)
    (hr : r < (run edits).size) (given : Option Style) :
    ∃ t, ((run edits).resolveWithParent sheet r given).value = some t ∧
      ∀ c, (run edits).Under c r → c ≠ r →
        ∃ p above here block before after, (run edits).parent? c = some p ∧
          t.get? p = some above ∧ t.get? c = some here ∧
          ((run edits).resolveWithParent sheet c (some above.style)).value = some block ∧
          t.components = before ++ (block.graft p here.depth).components ++ after ∧
          (∀ e ∈ block.components, (run edits).Under e.id c) ∧
          (∀ e ∈ before ++ after, ¬ (run edits).Under e.id c) ∧
          (((run edits).resolve sheet r).value = some t →
            ((run edits).resolve sheet c).value = some block) := by
  obtain ⟨kids, h⟩ := shape_run edits
  refine ⟨_, h.value_resolveWithParent sheet given hr, fun c hcr hne => ?_⟩
  obtain heq | ⟨p, hp, under⟩ := hcr.cases_head
  · exact absurd heq hne
  obtain ⟨before, after, hsplit⟩ := h.preorder_infix hcr
  refine ⟨p, _, _, _, before.map ((run edits).entryFrom sheet given r),
    after.map ((run edits).entryFrom sheet given r), hp,
    get?_styledTreeFrom.mpr ⟨h.mem_preorder.mpr under, rfl⟩,
    get?_styledTreeFrom.mpr ⟨h.mem_preorder.mpr hcr, rfl⟩,
    h.value_resolveWithParent sheet _ (h.lt_of_under hr hcr), ?contiguous, ?inside, ?outside,
    h.value_resolve_below hr hp under⟩
  case contiguous =>
    rw [styledTreeFrom, ← hsplit, List.map_append, List.map_append, h.map_entryFrom_below hp under]
    rfl
  case inside =>
    intro e he
    obtain ⟨x, hx, rfl⟩ := List.mem_map.mp he
    exact h.mem_preorder.mp hx
  case outside =>
    have hnodup := h.nodup_preorder r
    rw [← hsplit] at hnodup
    obtain ⟨hfront, -, hback⟩ := List.nodup_append'.mp hnodup
    intro e he hx
    rw [← List.map_append] at he
    obtain ⟨x, hmem, rfl⟩ := List.mem_map.mp he
    have hpart : x ∈ (run edits).preorder c := h.mem_preorder.mpr hx
    rcases List.mem_append.mp hmem with hbefore | hafter
    · exact List.disjoint_of_nodup_append hfront hbefore hpart
    · exact hback (List.mem_append_right before hpart) hafter

/-- A button with a label of its own, in a panel in a window. -/
theorem resolve_subtree_button :
    let edits : List Edit := [.create "window", .create "panel", .create "label", .create "button",
      .create "label", .append 0 1, .append 1 3, .append 1 4, .append 3 2]
    0 < (run edits).size ∧ (run edits).Under 3 0 ∧ ∀ (sheet : Stylesheet) (given : Option Style),
      ∃ t here above block before after,
        ((run edits).resolveWithParent sheet 0 given).value = some t ∧
        t.get? 3 = some here ∧ t.get? 1 = some above ∧
        ((run edits).resolveWithParent sheet 3 (some above.style)).value = some block ∧
        t.components = before ++ (block.graft 1 here.depth).components ++ after := by
  intro edits
  have hr : 0 < (run edits).size := by decide
  have panel : (run edits).parent? 3 = some 1 := by decide
  have window : (run edits).parent? 1 = some 0 := by decide
  have under : (run edits).Under 3 0 := .head panel (.single window)
  refine ⟨hr, under, fun sheet given => ?_⟩
  obtain ⟨t, ht, parts⟩ := resolve_subtree edits sheet 0 hr given
  obtain ⟨p, above, here, block, before, after, hp, habove, hhere, hblock, hsplit, -⟩ :=
    parts 3 under (by decide)
  obtain rfl : p = 1 := Option.some.inj (hp.symm.trans panel)
  exact ⟨t, here, above, block, before, after, ht, hhere, habove, hblock, hsplit⟩

end Forest
end StyleCascade
