import Mathlib.Data.List.Nodup
import Mathlib.Logic.Function.Basic
import StyleCascade.Proofs.Forest.Links

/-!
# The shape behind the links

The links of a forest are right when they all tell of one shape: for every component the list of
its children, without cycles above it. `Shape f kids` says so for given lists. Each edit has its
plain effect on the lists, and the links follow it: taking a component out erases it from the list
of its parent, and putting it in adds it at the end.

A component without a parent is in no list. A number that is not given out counts as one.
-/

namespace StyleCascade

namespace Forest

/-- The links tell of a shape. -/
structure Shape (f : Forest) (kids : ComponentId → List ComponentId) : Prop where
  lt_size : ∀ p c, c ∈ kids p → p < f.size ∧ c < f.size
  nodup : ∀ p, (kids p).Nodup
  parent_iff : ∀ p c, f.parent? c = some p ↔ c ∈ kids p
  firstChild : ∀ p, (f.links p).firstChild = (kids p).head?
  lastChild : ∀ p, (f.links p).lastChild = (kids p).getLast?
  siblings : ∀ p front c back, kids p = front ++ c :: back →
    (f.links c).prevSibling = front.getLast? ∧ (f.links c).nextSibling = back.head?
  alone : ∀ c, f.parent? c = none →
    (f.links c).prevSibling = none ∧ (f.links c).nextSibling = none
  ends : ∀ c, ∃ line, Walk f.parent? (some c) line

namespace Shape

variable {f g : Forest} {kids : ComponentId → List ComponentId} {p c d : ComponentId}
variable {front back line : List ComponentId}

/-- No component is a child twice. -/
theorem parent_unique {q : ComponentId} (h : Shape f kids) (hp : c ∈ kids p) (hq : c ∈ kids q) :
    p = q :=
  Option.some.inj (((h.parent_iff p c).mpr hp).symm.trans ((h.parent_iff q c).mpr hq))

theorem not_mem_of_parent_none (h : Shape f kids) (hc : f.parent? c = none) (p : ComponentId) :
    c ∉ kids p := by
  intro hmem
  rw [(h.parent_iff p c).mpr hmem] at hc
  cases hc

/-- The shape depends on the links alone, if no component goes away. -/
theorem congr (h : Shape f kids) (hsize : f.size ≤ g.size) (same : ∀ i, g.links i = f.links i) :
    Shape g kids where
  lt_size p c hc :=
    ⟨(h.lt_size p c hc).1.trans_le hsize, (h.lt_size p c hc).2.trans_le hsize⟩
  nodup := h.nodup
  parent_iff p c := by rw [parent?, same]; exact h.parent_iff p c
  firstChild p := by rw [same]; exact h.firstChild p
  lastChild p := by rw [same]; exact h.lastChild p
  siblings p front c back hsplit := by rw [same]; exact h.siblings p front c back hsplit
  alone c hc := by rw [parent?, same] at hc; rw [same]; exact h.alone c hc
  ends c := by
    obtain ⟨line, hline⟩ := h.ends c
    exact ⟨line, hline.congr fun i _ => by rw [parent?, same, parent?]⟩

/-- All links lead to components. -/
theorem below (h : Shape f kids) (i : ComponentId) : (f.links i).Below f.size where
  parent p hp := (h.lt_size p i ((h.parent_iff p i).mp hp)).1
  firstChild c hc := by
    rw [h.firstChild] at hc
    exact (h.lt_size i c (List.mem_of_head? hc)).2
  lastChild c hc := by
    rw [h.lastChild] at hc
    exact (h.lt_size i c (List.mem_of_getLast? hc)).2
  prevSibling d hd := by
    cases hparent : f.parent? i with
    | none => rw [(h.alone i hparent).1] at hd; cases hd
    | some p =>
        obtain ⟨front, back, hsplit⟩ := List.append_of_mem ((h.parent_iff p i).mp hparent)
        rw [(h.siblings p front i back hsplit).1] at hd
        refine (h.lt_size p d ?_).2
        rw [hsplit]
        exact List.mem_append_left _ (List.mem_of_getLast? hd)
  nextSibling d hd := by
    cases hparent : f.parent? i with
    | none => rw [(h.alone i hparent).2] at hd; cases hd
    | some p =>
        obtain ⟨front, back, hsplit⟩ := List.append_of_mem ((h.parent_iff p i).mp hparent)
        rw [(h.siblings p front i back hsplit).2] at hd
        refine (h.lt_size p d ?_).2
        rw [hsplit]
        exact List.mem_append_right _ (List.mem_cons_of_mem _ (List.mem_of_head? hd))

/-- The lists of the children are what the links spell. -/
theorem walk_children (h : Shape f kids) (p : ComponentId) :
    Walk (fun c => (f.links c).nextSibling) (f.links p).firstChild (kids p) := by
  have suffix : ∀ back front, kids p = front ++ back →
      Walk (fun c => (f.links c).nextSibling) back.head? back := by
    intro back
    induction back with
    | nil => exact fun _ _ => .done
    | cons c back ih =>
        intro front hsplit
        apply Walk.next
        rw [(h.siblings p front c back hsplit).2]
        exact ih (front ++ [c]) (by rw [hsplit, List.append_assoc]; rfl)
  rw [h.firstChild]
  exact suffix (kids p) [] rfl

theorem children_eq (h : Shape f kids) (p : ComponentId) : f.children p = kids p :=
  (h.walk_children p).follow_eq
    ((h.walk_children p).length_le fun c hc => (h.lt_size p c hc).2)

/-- Whatever stands above something is a component. -/
theorem lt_of_mem_walk {start : Option ComponentId} (h : Shape f kids)
    (hline : Walk f.parent? start line) (hstart : ∀ c, start = some c → c < f.size)
    (hd : d ∈ line) : d < f.size := by
  induction hline with
  | done => cases hd
  | @next x line _ ih =>
      rcases List.mem_cons.mp hd with rfl | hd
      · exact hstart d rfl
      · exact ih (h.below x).parent hd

theorem ancestors_eq (h : Shape f kids) (hline : Walk f.parent? (f.parent? c) line) :
    f.ancestors c = line :=
  hline.follow_eq (hline.length_le fun _ hd => h.lt_of_mem_walk hline (h.below c).parent hd)

/-- The walk to the root passes the ancestors. -/
theorem walk_ancestors (h : Shape f kids) (c : ComponentId) :
    Walk f.parent? (f.parent? c) (f.ancestors c) := by
  obtain ⟨line, hline⟩ := h.ends c
  cases hline with
  | next rest => rwa [h.ancestors_eq rest]

theorem lt_of_mem_ancestors (h : Shape f kids) (hd : d ∈ f.ancestors c) : d < f.size :=
  h.lt_of_mem_walk (h.walk_ancestors c) (h.below c).parent hd

theorem ancestors_of_root (hc : f.parent? c = none) : f.ancestors c = [] := by
  rw [Forest.ancestors, hc]
  cases f.size <;> rfl

theorem ancestors_of_parent (h : Shape f kids) (hp : f.parent? c = some p) :
    f.ancestors c = p :: f.ancestors p :=
  h.ancestors_eq (hp ▸ .next (h.walk_ancestors p))

theorem parent?_eq_head?_ancestors (h : Shape f kids) (c : ComponentId) :
    f.parent? c = (f.ancestors c).head? := by
  cases hp : f.parent? c with
  | none => rw [ancestors_of_root hp, List.head?_nil]
  | some p => rw [h.ancestors_of_parent hp, List.head?_cons]

end Shape

/-- A component is another or stands below it: there is a way up. -/
def Under (f : Forest) : ComponentId → ComponentId → Prop :=
  Relation.ReflTransGen fun x y => f.parent? x = some y

namespace Shape

variable {f : Forest} {kids : ComponentId → List ComponentId} {p c x y z : ComponentId}

theorem under_iff_mem_ancestors (h : Shape f kids) : f.Under x p ↔ p ∈ x :: f.ancestors x :=
  (Walk.next (h.walk_ancestors x)).mem_iff.symm

theorem isInclusiveAncestor_iff (h : Shape f kids) :
    f.isInclusiveAncestor p x = true ↔ f.Under x p := by
  rw [isInclusiveAncestor, List.contains_iff_mem, h.under_iff_mem_ancestors]

theorem mem_children (h : Shape f kids) : c ∈ f.children p ↔ f.parent? c = some p := by
  rw [h.children_eq, h.parent_iff]

/-- A component is under another if it is that one or under one of its children. -/
theorem under_iff (h : Shape f kids) : f.Under x p ↔ x = p ∨ ∃ c ∈ f.children p, f.Under x c := by
  rw [Under, Relation.ReflTransGen.cases_tail_iff, eq_comm]
  simp only [h.mem_children, and_comm]

theorem not_under_child (h : Shape f kids) (hc : c ∈ f.children p) : ¬ f.Under p c := by
  intro up
  obtain ⟨line, hline⟩ := h.ends c
  exact hline.not_transGen (.head' (h.mem_children.mp hc) up)

/-- The children of what is under a component are not that component. -/
theorem ne_of_parent (h : Shape f kids) (hp : f.parent? c = some p) (under : f.Under p x) :
    c ≠ x := by
  rintro rfl
  exact h.not_under_child (h.mem_children.mpr hp) under

/-- Below the children of a component, parents are still under it. -/
theorem under_of_parent (h : Shape f kids) (hc : c ∈ f.children p) (hx : f.Under x c)
    (hy : f.parent? x = some y) : f.Under y p := by
  rcases hx.cases_head with rfl | ⟨z, hz, up⟩
  · rw [h.mem_children.mp hc, Option.some.injEq] at hy
    exact hy ▸ .refl
  · rw [hy, Option.some.injEq] at hz
    exact h.under_iff.mpr (.inr ⟨c, hc, hz ▸ up⟩)

/-- Of two components above the same one, one is above the other. -/
theorem under_total (hx : f.Under z x) (hy : f.Under z y) : f.Under x y ∨ f.Under y x :=
  Relation.ReflTransGen.total_of_right_unique
    (fun _ _ _ hb hc => Option.some.inj (hb.symm.trans hc)) hx hy

theorem eq_of_under_children (h : Shape f kids) (hx : x ∈ f.children p) (hy : y ∈ f.children p)
    (hxy : f.Under x y) : x = y := by
  rcases hxy.cases_head with heq | ⟨q, hq, up⟩
  · exact heq
  · rw [h.mem_children.mp hx, Option.some.injEq] at hq
    exact absurd (hq ▸ up) (h.not_under_child hy)

/-- What goes from the children to their parent goes for every component. -/
theorem descend {P : ComponentId → Prop} (h : Shape f kids)
    (step : ∀ p, (∀ c ∈ f.children p, P c) → P p) (p : ComponentId) : P p := by
  have reach : ∀ count p, f.size ≤ (f.ancestors p).length + count → P p := by
    intro count
    induction count with
    | zero =>
        intro p hp
        apply step
        intro c hc
        -- With one component more, the way up would pass more components than there are.
        have hparent := h.mem_children.mp hc
        have hlt := length_le_of_nodup (h.walk_ancestors c).nodup fun _ => h.lt_of_mem_ancestors
        rw [h.ancestors_of_parent hparent, List.length_cons] at hlt
        omega
    | succ count ih =>
        intro p hp
        apply step
        intro c hc
        apply ih
        rw [h.ancestors_of_parent (h.mem_children.mp hc), List.length_cons]
        omega
  exact reach f.size p (Nat.le_add_left ..)

end Shape
end Forest

/-!
## Tours of a forest

A list of pending components is worked off from the front, and the children of each component go
in front of what is still pending. `Tour below pending order` says that the work ends, and that
the components come out in that order, which is the pre-order of the trees below them.

In a forest with a shape every tour ends (`Shape.exists_tour`), passes exactly what is under the
pending components (`Shape.mem_tour`), and passes nothing twice if no two of them have anything
under them in common (`Shape.nodup_tour`). So a tour from one component has no more steps than
there are components.
-/

/-- Working off a list of pending components ends, and they come out in a given order. -/
inductive Tour (below : ComponentId → List ComponentId) :
    List ComponentId → List ComponentId → Prop where
  | done : Tour below [] []
  | visit {id : ComponentId} {pending order : List ComponentId} :
      Tour below (below id ++ pending) order → Tour below (id :: pending) (id :: order)

namespace Tour

variable {below : ComponentId → List ComponentId}
variable {pending pending' order order' : List ComponentId}

/-- A tour has one course. -/
theorem unique (h : Tour below pending order) (h' : Tour below pending order') :
    order = order' := by
  induction h generalizing order' with
  | done =>
      cases h'
      rfl
  | visit _ ih =>
      cases h' with
      | visit h' => rw [ih h']

/-- What is pending behind other components waits until all below them is done. -/
theorem append (h : Tour below pending order) (h' : Tour below pending' order') :
    Tour below (pending ++ pending') (order ++ order') := by
  induction h with
  | done => exact h'
  | visit _ ih =>
      rw [List.append_assoc] at ih
      exact visit ih

/-- Pending components are worked off one after the other. -/
theorem flatMap {tree : ComponentId → List ComponentId}
    (h : ∀ id ∈ pending, Tour below [id] (tree id)) :
    Tour below pending (pending.flatMap tree) := by
  induction pending with
  | nil => exact .done
  | cons id pending ih =>
      exact (h id List.mem_cons_self).append (ih fun x hx => h x (List.mem_cons_of_mem id hx))

end Tour

namespace Forest.Shape

variable {f : Forest} {kids : ComponentId → List ComponentId} {id : ComponentId}
variable {pending order : List ComponentId}

theorem exists_tour_of_forall (h : ∀ id ∈ pending, ∃ order, Tour f.children [id] order) :
    ∃ order, Tour f.children pending order := by
  induction pending with
  | nil => exact ⟨[], .done⟩
  | cons id pending ih =>
      obtain ⟨first, hfirst⟩ := h id List.mem_cons_self
      obtain ⟨rest, hrest⟩ := ih fun x hx => h x (List.mem_cons_of_mem id hx)
      exact ⟨first ++ rest, hfirst.append hrest⟩

theorem exists_tour (h : Shape f kids) (pending : List ComponentId) :
    ∃ order, Tour f.children pending order := by
  have single : ∀ id, ∃ order, Tour f.children [id] order := by
    refine h.descend fun p hchildren => ?_
    obtain ⟨order, horder⟩ := exists_tour_of_forall hchildren
    refine ⟨p :: order, .visit ?_⟩
    rwa [List.append_nil]
  exact exists_tour_of_forall fun id _ => single id

/-- A tour passes what is under the pending components. -/
theorem mem_tour (h : Shape f kids) (tour : Tour f.children pending order) {x : ComponentId} :
    x ∈ order ↔ ∃ id ∈ pending, f.Under x id := by
  induction tour with
  | done => simp
  | @visit id pending order _ ih =>
      simp only [List.mem_cons, ih, List.mem_append, or_and_right, exists_or, exists_eq_left,
        h.under_iff (p := id), or_assoc]

/-- A tour passes no component twice if no component is under two pending ones. -/
theorem nodup_tour (h : Shape f kids) (tour : Tour f.children pending order)
    (apart : pending.Pairwise fun x y => ∀ z, f.Under z x → ¬ f.Under z y) : order.Nodup := by
  induction tour with
  | done => exact List.nodup_nil
  | @visit id pending order tour ih =>
      obtain ⟨hpending, apart⟩ := List.pairwise_cons.mp apart
      refine List.nodup_cons.mpr ⟨?_, ih ?_⟩
      · intro hid
        obtain ⟨x, hx, up⟩ := (h.mem_tour tour).mp hid
        rcases List.mem_append.mp hx with hx | hx
        · exact h.not_under_child hx up
        · exact hpending x hx id .refl up
      · refine List.pairwise_append.mpr ⟨?_, apart, ?_⟩
        · have hnodup : (f.children id).Nodup := h.children_eq id ▸ h.nodup id
          refine hnodup.imp_of_mem fun {x y} hx hy hne z hzx hzy => hne ?_
          rcases under_total hzx hzy with hxy | hyx
          · exact h.eq_of_under_children hx hy hxy
          · exact (h.eq_of_under_children hy hx hyx).symm
        · intro x hx y hy z hzx
          exact hpending y hy z ((h.under_iff).mpr (.inr ⟨x, hx, hzx⟩))

theorem mem_tour_single (h : Shape f kids) (tour : Tour f.children [id] order)
    {x : ComponentId} : x ∈ order ↔ f.Under x id := by
  rw [h.mem_tour tour]
  simp only [List.mem_singleton, exists_eq_left]

theorem nodup_tour_single (h : Shape f kids) (tour : Tour f.children [id] order) : order.Nodup :=
  h.nodup_tour tour (List.pairwise_singleton _ id)

/-- What is under a component is one. -/
theorem lt_of_under (h : Shape f kids) {x : ComponentId} (hid : id < f.size)
    (hx : f.Under x id) : x < f.size := by
  rcases hx.cases_head with rfl | ⟨p, hp, -⟩
  · exact hid
  · exact (h.lt_size p x ((h.parent_iff p x).mp hp)).2

/-- A tour from one component has no more steps than there are components. -/
theorem length_tour_le (h : Shape f kids) (hid : id < f.size)
    (tour : Tour f.children [id] order) : order.length ≤ f.size := by
  refine length_le_of_nodup (h.nodup_tour_single tour) fun x hx => ?_
  exact h.lt_of_under hid ((h.mem_tour_single tour).mp hx)

end Forest.Shape
end StyleCascade
