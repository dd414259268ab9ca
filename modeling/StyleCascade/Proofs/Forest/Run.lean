import StyleCascade.Proofs.Forest.Reshape

/-!
# The history of a forest

A forest comes from the empty one by edits, of which some are refused. `Change` lists what an edit
can do, with all that has been checked by the time it is done; so what every change keeps, every
forest has (`run_induction`).
-/

namespace StyleCascade

inductive Edit where
  | create (typeName : String)
  | append (parent child : ComponentId)
  | remove (parent child : ComponentId)
  | setClasses (id : ComponentId) (names : List String)
  | addClass (id : ComponentId) (name : String)
  | removeClass (id : ComponentId) (name : String)
  | setPseudo (id : ComponentId) (name : String) (on : Bool)
  | setMouseOver (id : ComponentId) (on : Bool)
  | setMouseDown (id : ComponentId) (on : Bool)
  | setFocused (id : ComponentId) (on : Bool)

/-- What an edit can make of a component. -/
inductive Component.Revised (c : Component) : Component → Prop where
  | setClasses (names : List String) : Revised c (c.setClasses names)
  | addClass (name : String) : Revised c (c.addClass name).2
  | removeClass (name : String) : Revised c (c.removeClass name).2
  | setPseudo (name : String) (on : Bool) : Revised c (c.setPseudo name on)

theorem Component.Revised.id_eq {c c' : Component} (h : c.Revised c') : c'.id = c.id := by
  cases h <;> rfl

theorem Component.Revised.typeName_eq {c c' : Component} (h : c.Revised c') :
    c'.typeName = c.typeName := by
  cases h <;> rfl

namespace Forest

variable {f : Forest} {parent child id : ComponentId}

/-- The forest after an edit; one that is refused changes nothing. -/
def edit (f : Forest) : Edit → Forest
  | .create typeName => (f.create typeName).2
  | .append parent child => (f.append parent child).value.toOption.getD f
  | .remove parent child => (f.remove parent child).toOption.getD f
  | .setClasses id names => (f.setClasses id names).toOption.getD f
  | .addClass id name => ((f.addClass id name).map Prod.snd).toOption.getD f
  | .removeClass id name => ((f.removeClass id name).map Prod.snd).toOption.getD f
  | .setPseudo id name on => (f.setPseudo id name on).toOption.getD f
  | .setMouseOver id on => (f.setMouseOver id on).toOption.getD f
  | .setMouseDown id on => (f.setMouseDown id on).toOption.getD f
  | .setFocused id on => (f.setFocused id on).toOption.getD f

def run (edits : List Edit) : Forest := edits.foldl edit empty

/-- What an edit can make of a forest. -/
inductive Change (f : Forest) : Forest → Prop where
  | refuse : Change f f
  | create (typeName : String) : Change f (f.create typeName).2
  | revise {id : ComponentId} {c c' : Component} : f.component? id = some c → c.Revised c' →
      Change f (f.putComponent id c')
  | detach {parent child : ComponentId} : f.parent? child = some parent →
      Change f (f.detach child)
  | attach {parent child : ComponentId} : parent < f.size → child < f.size →
      f.isInclusiveAncestor child parent = false → f.parent? child = none →
      Change f (f.attach parent child)
  | move {parent child old : ComponentId} : parent < f.size → child < f.size →
      f.isInclusiveAncestor child parent = false → f.parent? child = some old →
      Change f ((f.detach child).attach parent child)

theorem require_of_component? {c : Component} (hc : f.component? id = some c) :
    f.require id = .ok c := by
  rw [require, hc]

theorem lt_of_require {c : Component} (h : f.require id = .ok c) : id < f.size := by
  rw [require] at h
  cases hc : f.component? id with
  | none => rw [hc] at h; cases h
  | some _ => exact component?_isSome.mp (by rw [hc, Option.isSome_some])

/-- An append that is not refused has been checked, and puts the child in where it stands alone,
which it does from the start or after it has been taken out. -/
theorem append_eq_ok {g : Forest} (h : (f.append parent child).value = .ok g) :
    parent < f.size ∧ child < f.size ∧ f.isInclusiveAncestor child parent = false ∧
      (f.parent? child = none ∧ g = f.attach parent child ∨
        ∃ old, f.parent? child = some old ∧ g = (f.detach child).attach parent child) := by
  rw [append] at h
  cases hparent : f.require parent with
  | error e => rw [hparent] at h; cases h
  | ok _ =>
      cases hchild : f.require child with
      | error e => rw [hparent, hchild] at h; cases h
      | ok _ =>
          rw [hparent, hchild] at h
          by_cases hcycle : f.isInclusiveAncestor child parent = true
          · simp only [if_pos hcycle] at h
            cases h
          · refine ⟨lt_of_require hparent, lt_of_require hchild, Bool.not_eq_true _ ▸ hcycle, ?_⟩
            simp only [if_neg hcycle] at h
            cases hold : f.parent? child with
            | none => rw [hold] at h; exact .inl ⟨rfl, (Except.ok.inj h).symm⟩
            | some old => rw [hold] at h; exact .inr ⟨old, rfl, (Except.ok.inj h).symm⟩

/-- A removal that is not refused takes out a child of the parent. -/
theorem remove_eq_ok {g : Forest} (h : f.remove parent child = .ok g) :
    f.parent? child = some parent ∧ g = f.detach child := by
  rw [remove] at h
  cases hparent : f.require parent with
  | error e => rw [hparent] at h; cases h
  | ok _ =>
      cases hchild : f.require child with
      | error e => rw [hparent, hchild] at h; cases h
      | ok _ =>
          rw [hparent, hchild] at h
          by_cases hold : f.parent? child = some parent
          · simp only [bind, Except.bind, if_pos hold] at h
            exact ⟨hold, (Except.ok.inj h).symm⟩
          · simp only [bind, Except.bind, if_neg hold] at h
            cases h

theorem change_append (f : Forest) (parent child : ComponentId) :
    Change f (f.edit (.append parent child)) := by
  rw [edit]
  cases h : (f.append parent child).value with
  | error e => exact .refuse
  | ok g =>
      obtain ⟨hparent, hchild, hcycle, ⟨hroot, rfl⟩ | ⟨old, hold, rfl⟩⟩ := append_eq_ok h
      · exact .attach hparent hchild hcycle hroot
      · exact .move hparent hchild hcycle hold

theorem change_remove (f : Forest) (parent child : ComponentId) :
    Change f (f.edit (.remove parent child)) := by
  rw [edit]
  cases h : f.remove parent child with
  | error e => exact .refuse
  | ok g =>
      obtain ⟨hold, rfl⟩ := remove_eq_ok h
      exact .detach hold

def reviseAt (f : Forest) (id : ComponentId) (revise : Component → Component) : Forest :=
  match f.component? id with
  | none => f
  | some c => f.putComponent id (revise c)

theorem edit_setClasses (f : Forest) (id : ComponentId) (names : List String) :
    f.edit (.setClasses id names) = f.reviseAt id fun c => c.setClasses names := by
  rw [edit, setClasses, require, reviseAt]
  cases f.component? id <;> rfl

theorem edit_addClass (f : Forest) (id : ComponentId) (name : String) :
    f.edit (.addClass id name) = f.reviseAt id fun c => (c.addClass name).2 := by
  rw [edit, addClass, require, reviseAt]
  cases f.component? id <;> rfl

theorem edit_removeClass (f : Forest) (id : ComponentId) (name : String) :
    f.edit (.removeClass id name) = f.reviseAt id fun c => (c.removeClass name).2 := by
  rw [edit, removeClass, require, reviseAt]
  cases f.component? id <;> rfl

theorem edit_setPseudo (f : Forest) (id : ComponentId) (name : String) (on : Bool) :
    f.edit (.setPseudo id name on) = f.reviseAt id fun c => c.setPseudo name on := by
  rw [edit, setPseudo, require, reviseAt]
  cases f.component? id <;> rfl

theorem change_reviseAt (f : Forest) (id : ComponentId) {revise : Component → Component}
    (revised : ∀ c : Component, c.Revised (revise c)) : Change f (f.reviseAt id revise) := by
  rw [reviseAt]
  cases hc : f.component? id with
  | none => exact .refuse
  | some c => exact .revise hc (revised c)

/-- Every edit changes the forest in one of these ways. -/
theorem change_edit (f : Forest) (e : Edit) : Change f (f.edit e) := by
  have pseudo : ∀ id name on, Change f (f.edit (.setPseudo id name on)) := by
    intro id name on
    rw [edit_setPseudo]
    exact change_reviseAt f id fun _ => .setPseudo name on
  cases e with
  | create typeName => exact .create typeName
  | append parent child => exact change_append f parent child
  | remove parent child => exact change_remove f parent child
  | setClasses id names =>
      rw [edit_setClasses]
      exact change_reviseAt f id fun _ => .setClasses names
  | addClass id name =>
      rw [edit_addClass]
      exact change_reviseAt f id fun _ => .addClass name
  | removeClass id name =>
      rw [edit_removeClass]
      exact change_reviseAt f id fun _ => .removeClass name
  | setPseudo id name on => exact pseudo id name on
  | setMouseOver id on => exact pseudo id Component.hover on
  | setMouseDown id on => exact pseudo id Component.active on
  | setFocused id on => exact pseudo id Component.focus on

/-- What the empty forest has and what every change keeps, every forest has. -/
theorem run_induction {P : Forest → Prop} (start : P empty)
    (step : ∀ f g, P f → Change f g → P g) (edits : List Edit) : P (run edits) := by
  have kept : ∀ f, P f → P (edits.foldl edit f) := by
    induction edits with
    | nil => exact fun _ hf => hf
    | cons e edits ih => exact fun f hf => ih _ (step f _ hf (change_edit f e))
  exact kept empty start

theorem run_append (edits more : List Edit) :
    run (edits ++ more) = more.foldl edit (run edits) :=
  List.foldl_append

theorem run_concat (edits : List Edit) (e : Edit) : run (edits ++ [e]) = (run edits).edit e :=
  run_append edits [e]

/-! ### The history of a component -/

/-- A component after a change is a new one, or it is as before, or it has been revised. -/
theorem Change.of_component? {g : Forest} {c : Component} (change : Change f g)
    (hc : g.component? id = some c) :
    (∃ typeName, id = f.size ∧ c = .new id typeName) ∨ f.component? id = some c ∨
      ∃ old, f.component? id = some old ∧ old.Revised c := by
  cases change with
  | refuse => exact .inr (.inl hc)
  | create typeName =>
      rw [component?_create] at hc
      split at hc
      next heq => exact .inl ⟨typeName, heq, heq ▸ (Option.some.inj hc).symm⟩
      · exact .inr (.inl hc)
  | revise hold revised =>
      rw [component?_putComponent] at hc
      split at hc
      next heq =>
        subst heq
        rw [hold] at hc
        cases hc
        exact .inr (.inr ⟨_, hold, revised⟩)
      · exact .inr (.inl hc)
  | detach | attach | move => exact .inr (.inl (by simpa using hc))

/-- What every new component has and what every revision keeps, every component has. -/
theorem component_induction {P : ComponentId → Component → Prop}
    (new : ∀ id typeName, P id (.new id typeName))
    (revise : ∀ id c c', P id c → c.Revised c' → P id c') (edits : List Edit) :
    ∀ id c, (run edits).component? id = some c → P id c := by
  apply run_induction (P := fun f => ∀ id c, f.component? id = some c → P id c)
  · intro id c hc
    simp [component?, empty] at hc
  · intro f g hf change id c hc
    obtain ⟨typeName, -, rfl⟩ | hold | ⟨old, hold, revised⟩ := change.of_component? hc
    · exact new id typeName
    · exact hf id c hold
    · exact revise id old c (hf id old hold) revised

theorem Change.size_le {g : Forest} (change : Change f g) : f.size ≤ g.size := by
  cases change <;> simp

/-- A component keeps its type. -/
theorem Change.typeName {g : Forest} {c : Component} (change : Change f g)
    (hc : f.component? id = some c) :
    ∃ c', g.component? id = some c' ∧ c'.typeName = c.typeName := by
  have hid : id < f.size := component?_isSome.mp (by rw [hc, Option.isSome_some])
  obtain ⟨c', hc'⟩ := Option.isSome_iff_exists.mp
    (component?_isSome.mpr (Nat.lt_of_lt_of_le hid change.size_le))
  refine ⟨c', hc', ?_⟩
  obtain ⟨-, heq, -⟩ | hsame | ⟨old, hold, revised⟩ := change.of_component? hc'
  · exact absurd heq (Nat.ne_of_lt hid)
  · rw [hc] at hsame
    cases hsame
    rfl
  · rw [hc] at hold
    cases hold
    exact revised.typeName_eq

theorem typeName_foldl_edit {c : Component} (edits : List Edit) (hc : f.component? id = some c) :
    ∃ c', (edits.foldl edit f).component? id = some c' ∧ c'.typeName = c.typeName := by
  induction edits generalizing f c with
  | nil => exact ⟨c, hc, rfl⟩
  | cons e edits ih =>
      obtain ⟨next, hnext, htype⟩ := (change_edit f e).typeName hc
      obtain ⟨c', hc', htype'⟩ := ih hnext
      exact ⟨c', hc', htype'.trans htype⟩

end Forest

/-!
## Every forest is well formed

The links of the empty forest tell of the empty shape, and every change takes a shape to a shape;
so the links of every forest tell of one (`shape_run`). Whether an edit would make a cycle is
asked of the links themselves, by a walk to the root. The answer is right because there is a shape
behind the links before the edit.

`WellFormed` puts down what this means in terms of the forest alone.
-/

namespace Forest

variable {f g : Forest} {kids : ComponentId → List ComponentId} {id : ComponentId}

theorem shape_empty : Shape empty fun _ => [] where
  lt_size _ _ hc := by cases hc
  nodup _ := List.nodup_nil
  parent_iff p c := by simp [parent?, links, empty]
  firstChild _ := rfl
  lastChild _ := rfl
  siblings p front c back h := by simp at h
  alone _ _ := ⟨rfl, rfl⟩
  ends c := ⟨[c], .next .done⟩

/-- The walk behind a test that answers no. -/
theorem Shape.walk_of_not_isInclusiveAncestor (h : Shape f kids) {parent child : ComponentId}
    (hfree : f.isInclusiveAncestor child parent = false) :
    ∃ line, Walk f.parent? (some parent) line ∧ child ∉ line := by
  refine ⟨_, .next (h.walk_ancestors parent), ?_⟩
  rw [isInclusiveAncestor] at hfree
  simpa using hfree

/-- A child that is taken out can be put in wherever it does not stand above. -/
theorem Shape.move {parent child old : ComponentId} (h : Shape f kids) (hchild : child ∈ kids old)
    (hparent : parent < f.size) (hfree : f.isInclusiveAncestor child parent = false) :
    Shape ((f.detach child).attach parent child)
      (Function.update (fun q => (kids q).erase child) parent
        ((kids parent).erase child ++ [child])) := by
  have hlt : child < f.size := (h.lt_size old child hchild).2
  have cut := h.parent?_detach hlt
  obtain ⟨line, hline, hapart⟩ := h.walk_of_not_isInclusiveAncestor hfree
  have hline' : Walk (f.detach child).parent? (some parent) line := hline.congr fun i hi => by
    rw [cut, if_neg (ne_of_mem_of_not_mem hi hapart)]
  exact (h.detach hchild).attach (by rwa [size_detach]) (by rwa [size_detach])
    (by rw [cut, if_pos rfl]) hline' hapart

theorem shape_change (h : Shape f kids) (change : Change f g) : ∃ kids', Shape g kids' := by
  cases change with
  | refuse => exact ⟨kids, h⟩
  | create typeName =>
      exact ⟨kids, h.congr (by simp) (links_create f typeName)⟩
  | @revise id _ c' _ _ =>
      exact ⟨kids, h.congr (by simp) (links_putComponent f id c')⟩
  | @detach parent child hparent =>
      exact ⟨_, h.detach ((h.parent_iff parent child).mp hparent)⟩
  | @attach parent child hparent hchild hcycle hroot =>
      obtain ⟨line, hline, hfree⟩ := h.walk_of_not_isInclusiveAncestor hcycle
      exact ⟨_, h.attach hparent hchild hroot hline hfree⟩
  | @move parent child old hparent hchild hcycle hold =>
      exact ⟨_, h.move ((h.parent_iff old child).mp hold) hparent hcycle⟩

/-- Behind the links of every forest there is a shape. -/
theorem shape_run (edits : List Edit) : ∃ kids, Shape (run edits) kids := by
  apply run_induction (P := fun f => ∃ kids, Shape f kids)
  · exact ⟨_, shape_empty⟩
  · rintro f g ⟨kids, h⟩ change
    exact shape_change h change

/-- The component with a number knows it. -/
def Numbered (f : Forest) : Prop := ∀ ⦃i c⦄, f.component? i = some c → c.id = i

/-- A new component is given its number, and no revision changes it. -/
theorem numbered_run (edits : List Edit) : (run edits).Numbered := by
  intro i c hc
  exact component_induction (P := fun i c => c.id = i) (fun _ _ => rfl)
    (fun _ _ _ hid revised => revised.id_eq.trans hid) edits i c hc

/-- What holds of every forest. -/
structure WellFormed (f : Forest) : Prop where
  /-- The component with a number knows it. -/
  numbered : ∀ i c, f.component? i = some c → c.id = i
  /-- Every link leads to a component. -/
  links_below : ∀ i, (f.links i).Below f.size
  /-- No component stands above itself. -/
  acyclic : ∀ c, ¬ Relation.TransGen (fun x y => f.parent? x = some y) c c
  /-- From the first child on, the links to the right pass the children and then end. -/
  walk_children : ∀ p, Walk (fun c => (f.links c).nextSibling) (f.links p).firstChild (f.children p)
  nodup_children : ∀ p, (f.children p).Nodup
  mem_children : ∀ p c, c ∈ f.children p ↔ f.parent? c = some p
  /-- The links to the left undo those to the right. -/
  prev_iff_next : ∀ c d, (f.links d).prevSibling = some c ↔ (f.links c).nextSibling = some d
  prev_firstChild : ∀ p c, (f.links p).firstChild = some c → (f.links c).prevSibling = none
  lastChild : ∀ p, (f.links p).lastChild = (f.children p).getLast?
  alone : ∀ c, f.parent? c = none →
    (f.links c).prevSibling = none ∧ (f.links c).nextSibling = none

theorem Shape.prev_iff_next (h : Shape f kids) (c d : ComponentId) :
    (f.links d).prevSibling = some c ↔ (f.links c).nextSibling = some d := by
  constructor
  · intro hprev
    cases hparent : f.parent? d with
    | none =>
        rw [(h.alone d hparent).1] at hprev
        cases hprev
    | some p =>
        obtain ⟨front, back, hsplit⟩ := List.append_of_mem ((h.parent_iff p d).mp hparent)
        rw [(h.siblings p front d back hsplit).1] at hprev
        obtain ⟨front, rfl⟩ := List.getLast?_eq_some_iff.mp hprev
        have hsplit' : kids p = front ++ c :: d :: back := by
          rw [hsplit, List.append_assoc, List.singleton_append]
        exact (h.siblings p front c (d :: back) hsplit').2
  · intro hnext
    cases hparent : f.parent? c with
    | none =>
        rw [(h.alone c hparent).2] at hnext
        cases hnext
    | some p =>
        obtain ⟨front, back, hsplit⟩ := List.append_of_mem ((h.parent_iff p c).mp hparent)
        rw [(h.siblings p front c back hsplit).2] at hnext
        obtain ⟨back, rfl⟩ := List.head?_eq_some_iff.mp hnext
        have hsplit' : kids p = (front ++ [c]) ++ d :: back := by
          rw [hsplit, List.append_assoc, List.singleton_append]
        rw [(h.siblings p (front ++ [c]) d back hsplit').1, List.getLast?_concat]

theorem Shape.prev_firstChild (h : Shape f kids) {p c : ComponentId}
    (hc : (f.links p).firstChild = some c) : (f.links c).prevSibling = none := by
  rw [h.firstChild] at hc
  obtain ⟨back, hsplit⟩ := List.head?_eq_some_iff.mp hc
  exact (h.siblings p [] c back hsplit).1

/-- Every forest is well formed, whatever edits it comes from. -/
theorem wellFormed_run (edits : List Edit) : (run edits).WellFormed := by
  obtain ⟨kids, h⟩ := shape_run edits
  have hchildren := h.children_eq
  refine ⟨?_, ?_, ?_, ?_, ?_, ?_, ?_, ?_, ?_, ?_⟩
  · exact numbered_run edits
  · exact h.below
  · intro c
    obtain ⟨line, hline⟩ := h.ends c
    exact hline.not_transGen
  · intro p
    rw [hchildren]
    exact h.walk_children p
  · intro p
    rw [hchildren]
    exact h.nodup p
  · intro p c
    rw [hchildren]
    exact (h.parent_iff p c).symm
  · exact h.prev_iff_next
  · intro p c hc
    exact h.prev_firstChild hc
  · intro p
    rw [hchildren]
    exact h.lastChild p
  · exact h.alone

end Forest
end StyleCascade
