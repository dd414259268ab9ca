import StyleCascade.Proofs.Component
import StyleCascade.Proofs.Forest.Outline
import StyleCascade.Proofs.Forest.Preorder

/-!
# Changes that have no bearing on each other

A style depends on few of the changes that a forest has gone through. Those that are not about its
line can be left out, and of those that are the order does not matter where they turn different
names.
-/

namespace StyleCascade

/-!
## What a computed style depends on

The style of a component is told by its line: the component itself and those above it, with their
types and names, in this order. What stands beside the line or below it does not matter.

An edit patches links in up to five places, and some of these may well be on the line. But it is
about one component, or about none when it creates one, and of all others it leaves the names and
the parent alone (`Outline.Step.kept`). The links between siblings and down to children are no part
of a line. So edits that are not about a component of a line keep the whole line (`sameLine_run`),
and with it the rules that match and the style.
-/

/-- The component that an edit is about: the one that it moves, or whose names it changes. -/
def Edit.target? : Edit → Option ComponentId
  | .create _ => none
  | .append _ child | .remove _ child => some child
  | .setClasses id _ | .addClass id _ | .removeClass id _ | .setPseudo id _ _
  | .setMouseOver id _ | .setMouseDown id _ | .setFocused id _ => some id

theorem Edit.target?_of_revision {e : Edit} {id : ComponentId} {change : Component → Component}
    (h : e.revision? = some (id, change)) : e.target? = some id := by
  cases e with
  | create | append | remove => cases h
  | _ => cases h; rfl

/-- A step leaves the names and the parent of a component alone, unless the edit is about it. -/
theorem Outline.Step.kept {o o' : Outline} {e : Edit} {i : ComponentId} (h : o.Step e o')
    (hi : i < o.components.length) (apart : e.target? ≠ some i) :
    o'.parent i = o.parent i ∧ o'.components[i]? = o.components[i]? := by
  cases h with
  | refuse => exact ⟨rfl, rfl⟩
  | create typeName => exact ⟨rfl, List.getElem?_append_left hi⟩
  | append p c | remove p c =>
      have hne : i ≠ c := by
        rintro rfl
        exact apart rfl
      exact ⟨if_neg hne, rfl⟩
  | @revise _ id _ hrevision =>
      have hne : id ≠ i := by
        rintro rfl
        exact apart (Edit.target?_of_revision hrevision)
      exact ⟨rfl, List.getElem?_modify_ne _ _ hne⟩

namespace Forest

variable {f g g' : Forest} {kids kids' : ComponentId → List ComponentId} {id : ComponentId}
variable {e : Edit}

/-- A component has the same line in two forests. -/
structure SameLine (f g : Forest) (id : ComponentId) : Prop where
  ancestors : g.ancestors id = f.ancestors id
  component? : ∀ i ∈ id :: f.ancestors id, g.component? i = f.component? i

namespace SameLine

theorem refl (f : Forest) (id : ComponentId) : SameLine f f id := ⟨rfl, fun _ _ => rfl⟩

theorem trans (h : SameLine f g id) (h' : SameLine g g' id) : SameLine f g' id := by
  refine ⟨h'.ancestors.trans h.ancestors, fun i hi => ?_⟩
  have hi' : i ∈ id :: g.ancestors id := h.ancestors ▸ hi
  exact (h'.component? i hi').trans (h.component? i hi)

theorem lt_size (h : SameLine f g id) (hid : id < f.size) : id < g.size := by
  have same := h.component? id List.mem_cons_self
  rw [← component?_isSome] at hid ⊢
  rwa [same]

/-- What stands above the component is the same. -/
theorem under_iff (h : SameLine f g id) (hf : Shape f kids) (hg : Shape g kids')
    {x : ComponentId} : g.Under id x ↔ f.Under id x := by
  simp only [hf.under_iff_mem_ancestors, hg.under_iff_mem_ancestors, h.ancestors]

/-- Selectors see the same. -/
theorem lineage? (h : SameLine f g id) : g.lineage? id = f.lineage? id := by
  have element? : ∀ i ∈ id :: f.ancestors id, g.element? i = f.element? i := by
    intro i hi
    simp only [Forest.element?, h.component? i hi]
  have above : (f.ancestors id).filterMap g.element? = (f.ancestors id).filterMap f.element? :=
    List.filterMap_congr fun i hi => element? i (List.mem_cons_of_mem id hi)
  simp only [Forest.lineage?, h.ancestors, element? id List.mem_cons_self, above]

end SameLine

/-- A line is kept where nothing on it changes its parent or its names. -/
theorem Shape.sameLine (hf : Shape f kids) (hg : Shape g kids')
    (kept : ∀ i, f.Under id i →
      g.parent? i = f.parent? i ∧ g.component? i = f.component? i) : SameLine f g id := by
  refine ⟨hg.ancestors_eq ?_, fun i hi => (kept i (hf.under_iff_mem_ancestors.mpr hi)).2⟩
  rw [(kept id .refl).1]
  refine (hf.walk_ancestors id).congr fun i hi => (kept i ?_).1
  exact hf.under_iff_mem_ancestors.mpr (List.mem_cons_of_mem id hi)

/-- One edit keeps a line if it is not about a component of it. -/
theorem Shape.sameLine_edit (h : Shape f kids) (hid : id < f.size)
    (apart : ∀ x, e.target? = some x → ¬ f.Under id x) : SameLine f (f.edit e) id := by
  obtain ⟨kids', h'⟩ := shape_change h (change_edit f e)
  refine h.sameLine h' fun i hi => ?_
  have hlt : i < f.outline.components.length := by
    rw [length_components]
    rcases List.mem_cons.mp (h.under_iff_mem_ancestors.mp hi) with rfl | above
    · exact hid
    · exact h.lt_of_mem_ancestors above
  have kept := (h.step_outline e).kept hlt fun htarget => apart i htarget hi
  rwa [getElem?_components, getElem?_components] at kept

/-- Any number of edits keep a line if none of them is about a component of it. It is enough to ask
this of the line as it is at the start, because it stays as it is. -/
theorem sameLine_run (edits more : List Edit) (hid : id < (run edits).size)
    (apart : ∀ e ∈ more, ∀ x, e.target? = some x → ¬ (run edits).Under id x) :
    SameLine (run edits) (run (edits ++ more)) id := by
  induction more using List.reverseRecOn with
  | nil =>
      rw [List.append_nil]
      exact SameLine.refl _ id
  | append_singleton more e ih =>
      have sofar := ih fun e' he' => apart e' (List.mem_append_left [e] he')
      obtain ⟨kids, h⟩ := shape_run edits
      obtain ⟨kids', h'⟩ := shape_run (edits ++ more)
      have step : SameLine (run (edits ++ more)) ((run (edits ++ more)).edit e) id := by
        refine h'.sameLine_edit (sofar.lt_size hid) fun x htarget under => ?_
        exact apart e (by simp) x htarget ((sofar.under_iff h h').mp under)
      rw [← List.append_assoc, run_concat]
      exact sofar.trans step

def rulesFor (f : Forest) (sheet : Stylesheet) (id : ComponentId) : Option (List MatchedRule) :=
  (f.lineage? id).map fun l => (sheet.matchingRules l).value

/-- The style of a component depends on the component and on those above it only. Edits that are
not about any of these, one or many, and whether they succeed or are refused, change neither the
rules that match the component, nor their order, nor what its style is computed to be. A new
component and all that is done to siblings, to descendants or elsewhere is of this sort, also where
a parent on the line gains or loses a child by it. -/
theorem compute_run_apart (edits more : List Edit) (id : ComponentId)
    (hid : id < (run edits).size)
    (apart : ∀ e ∈ more, ∀ x, e.target? = some x → ¬ (run edits).Under id x) :
    (run (edits ++ more)).lineage? id = (run edits).lineage? id ∧
    ∀ sheet : Stylesheet, ((run edits).compute sheet id).value.isSome ∧
      (run (edits ++ more)).rulesFor sheet id = (run edits).rulesFor sheet id ∧
      (run (edits ++ more)).compute sheet id = (run edits).compute sheet id := by
  have line := (sameLine_run edits more hid apart).lineage?
  refine ⟨line, fun sheet => ⟨?_, ?_, ?_⟩⟩
  · rw [value_compute hid, Option.isSome_some]
  · simp only [rulesFor, line]
  · simp only [compute, line]

/-- The style of a label in a button in a panel does not change while its button takes over another
label from the panel and that label gets a class, nor when the label is to become its own parent,
which is refused. -/
theorem compute_label_beside_label :
    let edits : List Edit := [.create "panel", .create "button", .create "label", .create "label",
      .append 0 1, .append 1 2, .append 0 3]
    let more : List Edit := [.append 1 3, .addClass 3 "big", .append 3 3, .create "panel"]
    2 < (run edits).size ∧
    (∀ e ∈ more, ∀ x, e.target? = some x → ¬ (run edits).Under 2 x) ∧
    (run (edits ++ more)).children 1 = [2, 3] ∧
    ∀ sheet : Stylesheet,
      (run (edits ++ more)).rulesFor sheet 2 = (run edits).rulesFor sheet 2 ∧
      (run (edits ++ more)).compute sheet 2 = (run edits).compute sheet 2 := by
  intro edits more
  have hid : 2 < (run edits).size := by decide
  have apart : ∀ e ∈ more, ∀ x, e.target? = some x → ¬ (run edits).Under 2 x := by
    obtain ⟨kids, h⟩ := shape_run edits
    have beside : ¬ (run edits).Under 2 3 := by
      rw [← h.isInclusiveAncestor_iff]
      decide
    intro e he x hx
    have htargets : ∀ e ∈ more, e.target? = some 3 ∨ e.target? = none := by decide
    rcases htargets e he with htarget | htarget
    · rw [htarget] at hx
      cases hx
      exact beside
    · rw [htarget] at hx
      cases hx
  obtain ⟨-, same⟩ := compute_run_apart edits more 2 hid apart
  exact ⟨hid, apart, by decide, fun sheet => (same sheet).2⟩

end Forest

/-!
## Changes that do not depend on each other

Two changes of single names are independent if they are about different components, or about
classes and pseudo-states, or about names that are stored differently. It does then not matter which
of them is made first (`toggles_commute`). The lists of names that come out may still differ, since
names are kept in the order in which they were added; but a list is only ever asked whether it has a
name, and so the order is seen by no selector.

`SameLook` relates two forests with the same links in which every component gives the same answers.
Whatever is computed from such forests is the same.
-/

namespace Component

variable {c c' : Component} {t t' : Toggle} {kind : TestKind} {x : String}

theorem mem_names_toggled_congr (t : Toggle) (h : x ∈ c.names kind ↔ x ∈ c'.names kind) :
    x ∈ (c.toggled t).names kind ↔ x ∈ (c'.toggled t).names kind := by
  rw [names_toggled, names_toggled]
  split
  · split
    · rw [mem_insertName, mem_insertName, h]
    · rw [mem_eraseName, mem_eraseName, h]
  · exact h

/-- The names that are there do not tell which of two different targets was turned first. -/
theorem mem_names_toggled_comm (apart : t.target ≠ t'.target) :
    x ∈ ((c.toggled t).toggled t').names kind ↔ x ∈ ((c.toggled t').toggled t).names kind := by
  -- The name is the target of one of the two at most, and the other one does not touch it.
  by_cases h : t.target = (kind, x)
  · have h' : t'.target ≠ (kind, x) := fun heq => apart (h.trans heq.symm)
    rw [mem_names_toggled_of_ne h']
    exact mem_names_toggled_congr t (mem_names_toggled_of_ne h').symm
  · rw [mem_names_toggled_of_ne (c := c.toggled t') h]
    exact mem_names_toggled_congr t' (mem_names_toggled_of_ne h)

theorem answers_congr (h : ∀ x, x ∈ c.names kind ↔ x ∈ c'.names kind) (name : String) :
    c.answers kind name = c'.answers kind name := by
  rw [answers_eq, answers_eq, Bool.eq_iff_iff, List.any_eq_true, List.any_eq_true]
  simp only [h]

theorem typeName_toggled (c : Component) (t : Toggle) : (c.toggled t).typeName = c.typeName := by
  cases t <;> rfl

/-- Selectors see of a component its type and its answers. -/
theorem toElement_eq (htype : c.typeName = c'.typeName)
    (h : ∀ kind name, c.answers kind name = c'.answers kind name) :
    c.toElement = c'.toElement := by
  rw [toElement, toElement, htype, Element.mk.injEq]
  exact ⟨rfl, funext (h .classTest), funext (h .pseudoTest)⟩

theorem toElement_toggled_comm (c : Component) (apart : t.target ≠ t'.target) :
    ((c.toggled t).toggled t').toElement = ((c.toggled t').toggled t).toElement := by
  refine toElement_eq ?_ fun kind => answers_congr fun x => mem_names_toggled_comm apart
  simp only [typeName_toggled]

/-- What a component tells does not depend on other names than the one that is turned. -/
theorem reply_toggled (c : Component) (apart : t.target ≠ t'.target) :
    (c.toggled t').reply t = c.reply t := by
  have same : ((c.toggled t').names t.kind).contains (storedName t.name) =
      (c.names t.kind).contains (storedName t.name) := by
    rw [Bool.eq_iff_iff, List.contains_iff_mem, List.contains_iff_mem]
    exact mem_names_toggled_of_ne apart.symm
  cases t with
  | addClass name => exact congrArg (fun b => some (storedName name != "" && !b)) same
  | removeClass name => exact congrArg some same
  | setPseudo name on => rfl

end Component

namespace Forest

open Component (Toggle)

variable {f g : Forest} {kids : ComponentId → List ComponentId} {id id' : ComponentId}
variable {t t' : Toggle}

/-! ### Turning names in a forest -/

/-- Turn a name of a component on or off; also give what the component tells. -/
def toggle (f : Forest) (id : ComponentId) : Toggle → Except ForestError (Option Bool × Forest)
  | .addClass name => (f.addClass id name).map fun (isNew, g) => (some isNew, g)
  | .removeClass name => (f.removeClass id name).map fun (wasThere, g) => (some wasThere, g)
  | .setPseudo name on => (f.setPseudo id name on).map fun g => (none, g)

def reply (f : Forest) (id : ComponentId) (t : Toggle) : Except ForestError (Option Bool) :=
  (f.toggle id t).map Prod.fst

/-- The forest after a name is turned on or off; if this is refused, nothing changes. -/
def toggled (f : Forest) (id : ComponentId) (t : Toggle) : Forest :=
  ((f.toggle id t).map Prod.snd).toOption.getD f

theorem toggle_eq (f : Forest) (id : ComponentId) (t : Toggle) :
    f.toggle id t =
      (f.require id).map fun c => (c.reply t, f.putComponent id (c.toggled t)) := by
  cases t with
  | addClass name =>
      rw [toggle, addClass]
      cases f.require id <;> rfl
  | removeClass name =>
      rw [toggle, removeClass]
      cases f.require id <;> rfl
  | setPseudo name on =>
      rw [toggle, setPseudo]
      cases f.require id <;> rfl

theorem reply_eq (f : Forest) (id : ComponentId) (t : Toggle) :
    f.reply id t = (f.require id).map fun c => c.reply t := by
  rw [reply, toggle_eq]
  cases f.require id <;> rfl

theorem toggled_eq (f : Forest) (id : ComponentId) (t : Toggle) :
    f.toggled id t = f.reviseAt id fun c => c.toggled t := by
  rw [toggled, toggle_eq, require, reviseAt]
  cases f.component? id <;> rfl

@[simp] theorem size_toggled (f : Forest) (id : ComponentId) (t : Toggle) :
    (f.toggled id t).size = f.size := by
  rw [toggled_eq, reviseAt]
  split
  · rfl
  · exact size_putComponent ..

@[simp] theorem links_toggled (f : Forest) (id : ComponentId) (t : Toggle) (i : ComponentId) :
    (f.toggled id t).links i = f.links i := by
  rw [toggled_eq, reviseAt]
  split
  · rfl
  · exact links_putComponent ..

theorem component?_toggled (f : Forest) (id : ComponentId) (t : Toggle) (i : ComponentId) :
    (f.toggled id t).component? i =
      (f.component? i).map fun c => if i = id then c.toggled t else c := by
  rw [toggled_eq, reviseAt]
  by_cases hi : i = id
  · subst hi
    cases hc : f.component? i with
    | none => simpa using hc
    | some c => simp [component?_putComponent, hc]
  · cases f.component? id with
    | none => simp [hi]
    | some c => simp [component?_putComponent, hi]

/-- What comes back does not depend on what else is turned. -/
theorem reply_toggled (apart : (id, t.target) ≠ (id', t'.target)) :
    (f.toggled id' t').reply id t = f.reply id t := by
  rw [reply_eq, reply_eq, require, require, component?_toggled]
  cases f.component? id with
  | none => rfl
  | some c =>
      by_cases hid : id = id'
      · have htarget : t.target ≠ t'.target := fun heq => apart (Prod.ext hid heq)
        simp only [Option.map_some, if_pos hid, Except.map, c.reply_toggled htarget]
      · simp only [Option.map_some, if_neg hid]

/-! ### What cannot be told apart -/

/-- Two forests look the same to selectors. -/
structure SameLook (f g : Forest) : Prop where
  size : g.size = f.size
  links : ∀ i, g.links i = f.links i
  element? : ∀ i, g.element? i = f.element? i

theorem sameLook_toggled (f : Forest) (apart : (id, t.target) ≠ (id', t'.target)) :
    SameLook ((f.toggled id t).toggled id' t') ((f.toggled id' t').toggled id t) where
  size := by simp
  links i := by simp
  element? i := by
    simp only [Forest.element?, component?_toggled, Option.map_map]
    congr 1
    funext c
    -- A component that one of the two is not about is the same in either order.
    by_cases hid : i = id
    · by_cases hid' : i = id'
      · have htarget : t.target ≠ t'.target := fun heq => apart (Prod.ext (hid.symm.trans hid') heq)
        simp only [Function.comp_apply, if_pos hid, if_pos hid']
        exact (c.toElement_toggled_comm htarget).symm
      · simp only [Function.comp_apply, if_pos hid, if_neg hid']
    · simp only [Function.comp_apply, if_neg hid]

namespace SameLook

theorem answers (h : SameLook f g) (i : ComponentId) (kind : TestKind) (name : String) :
    (g.component? i).map (fun c => c.answers kind name) =
      (f.component? i).map fun c => c.answers kind name := by
  have seen := h.element? i
  rw [Forest.element?, Forest.element?] at seen
  cases kind with
  | classTest =>
      have asked := congrArg (Option.map fun e => e.hasClass name) seen
      rwa [Option.map_map, Option.map_map] at asked
  | pseudoTest =>
      have asked := congrArg (Option.map fun e => e.isPseudoActive name) seen
      rwa [Option.map_map, Option.map_map] at asked

theorem parent? (h : SameLook f g) : g.parent? = f.parent? :=
  funext fun i => congrArg Links.parent (h.links i)

theorem ancestors (h : SameLook f g) (i : ComponentId) : g.ancestors i = f.ancestors i := by
  rw [Forest.ancestors, Forest.ancestors, h.parent?, h.size]

theorem children (h : SameLook f g) : g.children = f.children := by
  funext i
  simp only [Forest.children, h.links, h.size]

theorem lineage? (h : SameLook f g) (i : ComponentId) : g.lineage? i = f.lineage? i := by
  have same : g.element? = f.element? := funext h.element?
  rw [Forest.lineage?, Forest.lineage?, h.ancestors, same]

theorem compute (h : SameLook f g) (sheet : Stylesheet) (i : ComponentId) :
    g.compute sheet i = f.compute sheet i := by
  rw [Forest.compute, Forest.compute, h.lineage?]

theorem preorder (h : SameLook f g) (r : ComponentId) : g.preorder r = f.preorder r := by
  have toDepth : ∀ depth, g.preorderTo depth = f.preorderTo depth := by
    intro depth
    induction depth with
    | zero => rfl
    | succ depth ih =>
        funext x
        rw [preorderTo, preorderTo, h.children, ih]
  rw [Forest.preorder, Forest.preorder, h.size, toDepth]

theorem entryUnder (h : SameLook f g) (sheet : Stylesheet) (r x : ComponentId) :
    g.entryUnder sheet r x = f.entryUnder sheet r x := by
  simp only [Forest.entryUnder, styleOf, level, h.parent?, h.ancestors, h.compute]

/-- A whole tree is resolved to the same styled tree. -/
theorem value_resolve (h : SameLook f g) (hf : Shape f kids) (sheet : Stylesheet)
    (r : ComponentId) : (g.resolve sheet r).value = (f.resolve sheet r).value := by
  have hg : Shape g kids := hf.congr (Nat.le_of_eq h.size.symm) h.links
  rcases Nat.lt_or_ge r f.size with hr | hr
  · have same : g.styledTree sheet r = f.styledTree sheet r := by
      rw [styledTree, styledTree, h.preorder, funext (h.entryUnder sheet r)]
    rw [hg.value_resolve sheet (h.size ▸ hr), hf.value_resolve sheet hr, same]
  · rw [hg.resolve_of_le (h.size ▸ hr), hf.resolve_of_le hr]

end SameLook

/-- Turning two names commutes, if they are names of different components, or of different kinds, or
stored differently. In either order the same comes back for each of them, every component answers
all questions alike afterwards, and all computed styles are the same, those of single components and
those in resolved trees. It does not matter whether the components exist. -/
theorem toggles_commute (edits : List Edit) (id id' : ComponentId) (t t' : Toggle)
    (apart : (id, t.target) ≠ (id', t'.target)) :
    (((run edits).toggled id' t').reply id t = (run edits).reply id t ∧
      ((run edits).toggled id t).reply id' t' = (run edits).reply id' t') ∧
    (∀ i kind name,
      ((((run edits).toggled id t).toggled id' t').component? i).map
          (fun c => c.answers kind name) =
        ((((run edits).toggled id' t').toggled id t).component? i).map
          fun c => c.answers kind name) ∧
    ∀ (sheet : Stylesheet) (i : ComponentId),
      (((run edits).toggled id t).toggled id' t').compute sheet i =
        (((run edits).toggled id' t').toggled id t).compute sheet i ∧
      ((((run edits).toggled id t).toggled id' t').resolve sheet i).value =
        ((((run edits).toggled id' t').toggled id t).resolve sheet i).value := by
  obtain ⟨kids, h⟩ := shape_run edits
  have look := sameLook_toggled (run edits) apart.symm
  have shape : Shape (((run edits).toggled id' t').toggled id t) kids :=
    h.congr (by simp) (by simp)
  exact ⟨⟨reply_toggled apart, reply_toggled apart.symm⟩, look.answers,
    fun sheet i => ⟨look.compute sheet i, look.value_resolve shape sheet i⟩⟩

/-- Two classes of one button. The lists of its classes differ, the styles do not. -/
theorem toggles_commute_two_classes :
    let button : Forest := run [.create "button"]
    let there : Forest := (button.toggled 0 (.addClass "Big ")).toggled 0 (.addClass "red")
    let back : Forest := (button.toggled 0 (.addClass "red")).toggled 0 (.addClass "Big ")
    (0, Toggle.target (.addClass "Big ")) ≠ (0, Toggle.target (.addClass "red")) ∧
    (there.component? 0).map Component.classes = some ["big", "red"] ∧
    (back.component? 0).map Component.classes = some ["red", "big"] ∧
    ∀ sheet : Stylesheet, there.compute sheet 0 = back.compute sheet 0 ∧
      (there.resolve sheet 0).value = (back.resolve sheet 0).value := by
  intro button there back
  have apart : (0, Toggle.target (.addClass "Big ")) ≠ (0, Toggle.target (.addClass "red")) := by
    decide +kernel
  obtain ⟨-, -, styles⟩ := toggles_commute [.create "button"] 0 0 _ _ apart
  exact ⟨apart, by decide +kernel, by decide +kernel, fun sheet => styles sheet 0⟩

end Forest
end StyleCascade
