import StyleCascade.Proofs.Forest.Resolution

/-!
# Loops that go up

The test for an ancestor, the search for the ancestors that a selector asks for and the climb for
inherited properties all go from a component to its parent, again and again, and nothing but the
forest makes them end. An `UpwardLoop` is what they have in common. Its runs are told without a
bound: a loop that came round in a cycle, or to a number without a component, would have no run at
all.

In every forest each of these loops has a run, and only one, which takes no more turns than there
are components on the way up. Its result is the one that the bounded walk gives
(`upward_loops_end`). That the way up ends is due to the test itself, which is asked before a
component is appended; so the proof goes back through the history of the forest, to `shape_run`.
-/

namespace StyleCascade

/-- What one turn of a loop comes to. -/
inductive Turn (σ β : Type) where
  /-- The loop goes on, with what it knows now. -/
  | goOn (s : σ)
  /-- The loop is left with a result. -/
  | leave (result : β)

/-- A loop that goes from a component to its parent with every turn. -/
structure UpwardLoop (σ β : Type) where
  /-- The turn at a component, if it can be taken there. -/
  turn : σ → ComponentId → Option (Turn σ β)
  /-- The result where there is no parent any more. -/
  atEnd : σ → β

/-- There is one run, which has so many turns and this result. -/
def OnlyRun {β : Type} (runs : Nat → β → Prop) (turns : Nat) (result : β) : Prop :=
  ∀ turns' result', runs turns' result' ↔ turns' = turns ∧ result' = result

theorem OnlyRun.of_unique {β : Type} {runs : Nat → β → Prop} {turns : Nat} {result : β}
    (h : runs turns result) (unique : ∀ {turns' result'}, runs turns' result' →
      turns' = turns ∧ result' = result) : OnlyRun runs turns result := by
  intro turns' result'
  constructor
  · exact unique
  · rintro ⟨rfl, rfl⟩
    exact h

namespace UpwardLoop

variable {σ β : Type} {loop : UpwardLoop σ β} {f : Forest} {s : σ} {start : Option ComponentId}
variable {line : List ComponentId} {turns turns' : Nat} {result result' : β}

/-- A run of a loop, from a state and a component to the result, with the number of turns. -/
inductive Runs (loop : UpwardLoop σ β) (f : Forest) :
    σ → Option ComponentId → Nat → β → Prop where
  | stop {s : σ} : Runs loop f s none 0 (loop.atEnd s)
  | leave {s : σ} {id : ComponentId} {result : β} : loop.turn s id = some (.leave result) →
      Runs loop f s (some id) 1 result
  | goOn {s s' : σ} {id : ComponentId} {turns : Nat} {result : β} :
      loop.turn s id = some (.goOn s') → Runs loop f s' (f.parent? id) turns result →
      Runs loop f s (some id) (turns + 1) result

theorem Runs.unique (h : loop.Runs f s start turns result)
    (h' : loop.Runs f s start turns' result') : turns' = turns ∧ result' = result := by
  induction h generalizing turns' with
  | stop =>
      cases h'
      exact ⟨rfl, rfl⟩
  | leave hturn =>
      cases h' with
      | leave hturn' =>
          cases hturn.symm.trans hturn'
          exact ⟨rfl, rfl⟩
      | goOn hturn' => cases hturn.symm.trans hturn'
  | goOn hturn _ ih =>
      cases h' with
      | leave hturn' => cases hturn.symm.trans hturn'
      | goOn hturn' rest =>
          cases hturn.symm.trans hturn'
          obtain ⟨rfl, rfl⟩ := ih rest
          exact ⟨rfl, rfl⟩

/-- What the loop comes to if it goes along a list of components. -/
def along (loop : UpwardLoop σ β) : σ → List ComponentId → Option β
  | s, [] => some (loop.atEnd s)
  | s, id :: line =>
    match loop.turn s id with
    | none => none
    | some (.leave result) => some result
    | some (.goOn s') => loop.along s' line

/-- Where the walk to the root ends, the loop ends. -/
theorem exists_runs (hline : Walk f.parent? start line) (h : loop.along s line = some result) :
    ∃ turns ≤ line.length, loop.Runs f s start turns result := by
  induction hline generalizing s with
  | done =>
      cases h
      exact ⟨0, Nat.le_refl _, .stop⟩
  | @next id line _ ih =>
      rw [along] at h
      split at h
      · cases h
      next hturn =>
        cases h
        exact ⟨1, Nat.le_add_left 1 _, .leave hturn⟩
      next hturn =>
        obtain ⟨turns, hle, hruns⟩ := ih h
        exact ⟨turns + 1, Nat.succ_le_succ hle, .goOn hturn hruns⟩

theorem exists_onlyRun (hline : Walk f.parent? start line) (h : loop.along s line = some result) :
    ∃ turns ≤ line.length, OnlyRun (loop.Runs f s start) turns result := by
  obtain ⟨turns, hle, hruns⟩ := exists_runs hline h
  exact ⟨turns, hle, .of_unique hruns hruns.unique⟩

end UpwardLoop

namespace Forest

open UpwardLoop

variable {f : Forest} {kids : ComponentId → List ComponentId} {a x y z : ComponentId}
variable {l : Lineage} {line : List ComponentId} {frontier : Option ComponentId}

/-! ### The test for an ancestor -/

/-- Go up until a component is found. -/
def ancestorTest (ancestor : ComponentId) : UpwardLoop Unit Bool where
  turn _ id := some (if id = ancestor then .leave true else .goOn ())
  atEnd _ := false

theorem along_ancestorTest (a : ComponentId) (line : List ComponentId) :
    (ancestorTest a).along () line = some (line.contains a) := by
  induction line with
  | nil => rfl
  | cons id line ih =>
      rw [List.contains_cons]
      by_cases h : a = id
      · subst h
        simp [along, ancestorTest]
      · rw [beq_false_of_ne h, Bool.false_or, ← ih]
        simp [along, ancestorTest, Ne.symm h]

/-- The components are ordered by the test, and those above any one of them stand in a line. -/
structure AncestorOrder (f : Forest) : Prop where
  refl : ∀ x, f.isInclusiveAncestor x x = true
  antisymm : ∀ x y, f.isInclusiveAncestor x y = true → f.isInclusiveAncestor y x = true → x = y
  trans : ∀ x y z, f.isInclusiveAncestor x y = true → f.isInclusiveAncestor y z = true →
    f.isInclusiveAncestor x z = true
  total : ∀ x y z, f.isInclusiveAncestor x z = true → f.isInclusiveAncestor y z = true →
    f.isInclusiveAncestor x y = true ∨ f.isInclusiveAncestor y x = true

theorem Shape.under_antisymm (h : Shape f kids) (hxy : f.Under x y) (hyx : f.Under y x) :
    x = y := by
  rcases hxy.cases_head with heq | ⟨p, hp, up⟩
  · exact heq
  · obtain ⟨line, hline⟩ := h.ends x
    exact absurd (.head' hp (up.trans hyx)) hline.not_transGen

theorem Shape.ancestorOrder (h : Shape f kids) : f.AncestorOrder where
  refl x := h.isInclusiveAncestor_iff.mpr .refl
  antisymm x y hxy hyx :=
    h.under_antisymm (h.isInclusiveAncestor_iff.mp hyx) (h.isInclusiveAncestor_iff.mp hxy)
  trans x y z hxy hyz := h.isInclusiveAncestor_iff.mpr
    ((h.isInclusiveAncestor_iff.mp hyz).trans (h.isInclusiveAncestor_iff.mp hxy))
  total x y z hx hy := by
    rw [h.isInclusiveAncestor_iff, h.isInclusiveAncestor_iff] at *
    exact (under_total hx hy).symm

theorem Shape.isInclusiveAncestor_iff_transGen (h : Shape f kids) :
    f.isInclusiveAncestor a x = true ↔
      a = x ∨ Relation.TransGen (fun y z => f.parent? y = some z) x a := by
  rw [h.isInclusiveAncestor_iff, Under, Relation.reflTransGen_iff_eq_or_transGen]

/-- The way up from a component passes components only, so there are not more of them than there are
in the forest. -/
theorem Shape.length_ancestors_le (h : Shape f kids) (x : ComponentId) :
    (f.ancestors x).length ≤ f.size :=
  (h.walk_ancestors x).length_le fun _ => h.lt_of_mem_ancestors

theorem Shape.ancestorTest_ends (h : Shape f kids) (a x : ComponentId) :
    ∃ turns ≤ f.size + 1,
      OnlyRun ((ancestorTest a).Runs f () (some x)) turns (f.isInclusiveAncestor a x) := by
  obtain ⟨turns, hle, hrun⟩ :=
    exists_onlyRun (.next (h.walk_ancestors x)) (along_ancestorTest a (x :: f.ancestors x))
  have hlength := h.length_ancestors_le x
  rw [List.length_cons] at hle
  exact ⟨turns, by omega, hrun⟩

/-! ### The search for the ancestors of a selector -/

/-- Go up to the nearest component that a compound matches. -/
def nearest (f : Forest) (k : Compound) : UpwardLoop Unit (Option ComponentId) where
  turn _ id := (f.element? id).map fun e =>
    if k.matchesElement e then .leave (some id) else .goOn ()
  atEnd _ := none

/-- A search for one component for each compound, each above the one before it, with the number of
turns that it takes in all. -/
inductive Search (f : Forest) :
    List Compound → Option ComponentId → Nat → Option (List ComponentId) → Prop where
  | done {frontier : Option ComponentId} : Search f [] frontier 0 (some [])
  | miss {k : Compound} {ks : List Compound} {frontier : Option ComponentId} {turns : Nat} :
      (nearest f k).Runs f () frontier turns none → Search f (k :: ks) frontier turns none
  | hit {k : Compound} {ks : List Compound} {frontier : Option ComponentId} {id : ComponentId}
      {turns turns' : Nat} {found : Option (List ComponentId)} :
      (nearest f k).Runs f () frontier turns (some id) →
      Search f ks (f.parent? id) turns' found →
      Search f (k :: ks) frontier (turns + turns') (found.map (id :: ·))

namespace Search

variable {ks : List Compound} {k : Compound} {turns turns' : Nat}
variable {found found' : Option (List ComponentId)}

theorem unique (h : f.Search ks frontier turns found)
    (h' : f.Search ks frontier turns' found') : turns' = turns ∧ found' = found := by
  induction h generalizing turns' found' with
  | done =>
      cases h'
      exact ⟨rfl, rfl⟩
  | miss hruns =>
      cases h' with
      | miss hruns' => exact ⟨(hruns.unique hruns').1, rfl⟩
      | hit hruns' => cases (hruns.unique hruns').2
  | hit hruns _ ih =>
      cases h' with
      | miss hruns' => cases (hruns.unique hruns').2
      | hit hruns' rest =>
          obtain ⟨rfl, heq⟩ := hruns.unique hruns'
          obtain rfl := Option.some.inj heq
          obtain ⟨rfl, rfl⟩ := ih rest
          exact ⟨rfl, rfl⟩

/-- A component that the first compound does not match is passed with one turn. -/
theorem pass (h : f.Search (k :: ks) (f.parent? x) turns found)
    (hturn : (nearest f k).turn () x = some (.goOn ())) :
    f.Search (k :: ks) (some x) (turns + 1) found := by
  cases h with
  | miss hruns => exact .miss (.goOn hturn hruns)
  | hit hruns rest =>
      rw [Nat.add_right_comm]
      exact .hit (.goOn hturn hruns) rest

end Search

/-- All compounds together take one walk to the root at most, and find the same elements as the
search along the line of ancestors. -/
theorem exists_search (hline : Walk f.parent? frontier line) (hlt : ∀ id ∈ line, id < f.size)
    (ks : List Compound) : ∃ turns ≤ line.length, ∃ found, f.Search ks frontier turns found ∧
      found.map (List.filterMap f.element?) =
        Selector.findAncestors ks (line.filterMap f.element?) := by
  induction hline generalizing ks with
  | done =>
      cases ks with
      | nil => exact ⟨0, Nat.le_refl _, _, .done, rfl⟩
      | cons k ks => exact ⟨0, Nat.le_refl _, _, .miss .stop, rfl⟩
  | @next x line _ ih =>
      have hrest : ∀ id ∈ line, id < f.size := fun id hid => hlt id (List.mem_cons_of_mem x hid)
      obtain ⟨e, he⟩ : ∃ e, f.element? x = some e := by
        rw [← Option.isSome_iff_exists, element?, Option.isSome_map, component?_isSome]
        exact hlt x List.mem_cons_self
      cases ks with
      | nil => exact ⟨0, Nat.zero_le _, _, .done, by rw [Selector.findAncestors]; rfl⟩
      | cons k ks =>
          rw [List.filterMap_cons_some he, Selector.findAncestors]
          by_cases fits : k.matchesElement e = true
          · obtain ⟨turns, hle, found, hsearch, hfound⟩ := ih hrest ks
            have hturn : (nearest f k).turn () x = some (.leave (some x)) := by
              simp [nearest, he, fits]
            refine ⟨1 + turns, by rw [List.length_cons]; omega, _, .hit (.leave hturn) hsearch, ?_⟩
            rw [if_pos fits, ← hfound, Option.map_map, Option.map_map]
            congr 1
            funext ids
            exact List.filterMap_cons_some he
          · obtain ⟨turns, hle, found, hsearch, hfound⟩ := ih hrest (k :: ks)
            have hturn : (nearest f k).turn () x = some (.goOn ()) := by
              simp [nearest, he, fits]
            exact ⟨turns + 1, Nat.succ_le_succ hle, found, hsearch.pass hturn,
              by rw [if_neg fits, hfound]⟩

theorem Shape.search_ends (h : Shape f kids) (hl : f.lineage? x = some l) (ks : List Compound) :
    ∃ turns ≤ f.size, ∃ found, OnlyRun (f.Search ks (f.parent? x)) turns found ∧
      found.map (List.filterMap f.element?) = Selector.findAncestors ks l.ancestors := by
  obtain ⟨e, -, rfl⟩ := Option.map_eq_some_iff.mp hl
  obtain ⟨turns, hle, found, hsearch, hfound⟩ :=
    exists_search (h.walk_ancestors x) (fun _ => h.lt_of_mem_ancestors) ks
  exact ⟨turns, hle.trans (h.length_ancestors_le x), found, .of_unique hsearch hsearch.unique,
    hfound⟩

/-! ### The climb for inherited properties -/

/-- Go up until no inherited property is missing. -/
def inheriting (f : Forest) (sheet : Stylesheet) : UpwardLoop Style Style where
  turn s id := (f.lineage? id).map fun l =>
    if s.missesInherited then .goOn (s.inherit (sheet.cascade l).value) else .leave s
  atEnd s := s

theorem Shape.along_inheriting (h : Shape f kids) (sheet : Stylesheet)
    (hl : f.lineage? x = some l) (s : Style) :
    (inheriting f sheet).along s (f.ancestors x) = some (sheet.climb s l.ancestors).value := by
  generalize hline : f.ancestors x = line
  induction line generalizing x l s with
  | nil =>
      obtain ⟨e, -, rfl⟩ := Option.map_eq_some_iff.mp hl
      rw [hline]
      rfl
  | cons p line ih =>
      have hp : f.parent? x = some p := by rw [h.parent?_eq_head?_ancestors, hline, List.head?_cons]
      obtain ⟨above, habove, hancestors⟩ := h.lineage?_of_parent hp hl
      have hrest : f.ancestors p = line := by
        rw [h.ancestors_of_parent hp] at hline
        exact (List.cons.inj hline).2
      rw [along, hancestors, Stylesheet.climb]
      by_cases hmiss : s.missesInherited = true
      · simpa [inheriting, habove, hmiss] using
          ih habove (s.inherit (sheet.cascade above).value) hrest
      · simp [inheriting, habove, hmiss]

theorem Shape.inheriting_ends (h : Shape f kids) (sheet : Stylesheet)
    (hl : f.lineage? x = some l) : ∃ turns ≤ f.size,
      OnlyRun ((inheriting f sheet).Runs f (sheet.cascade l).value (f.parent? x)) turns
        (sheet.computeStyle l).value := by
  obtain ⟨turns, hle, hrun⟩ := exists_onlyRun (h.walk_ancestors x)
    (h.along_inheriting sheet hl (sheet.cascade l).value)
  exact ⟨turns, hle.trans (h.length_ancestors_le x), hrun⟩

/-- In every forest the test for an ancestor ends, whatever numbers it is asked for, and tells what
can be reached along the parents. This is an order, in which all that is above a component stands in
a line. The searches of selectors and the climbs for inherited properties end as well, at every
component, with the results that the line of ancestors gives. -/
theorem upward_loops_end (edits : List Edit) :
    (∀ a x, ∃ turns ≤ (run edits).size + 1, OnlyRun ((ancestorTest a).Runs (run edits) () (some x))
      turns ((run edits).isInclusiveAncestor a x)) ∧
    (∀ a x, (run edits).isInclusiveAncestor a x = true ↔
      a = x ∨ Relation.TransGen (fun y z => (run edits).parent? y = some z) x a) ∧
    (run edits).AncestorOrder ∧
    ∀ x < (run edits).size, ∃ l, (run edits).lineage? x = some l ∧
      (∀ s : Selector, ∃ turns ≤ (run edits).size, ∃ found,
        OnlyRun ((run edits).Search s.ancestors ((run edits).parent? x)) turns found ∧
        found.map (List.filterMap (run edits).element?) =
          Selector.findAncestors s.ancestors l.ancestors) ∧
      ∀ sheet : Stylesheet, ∃ turns ≤ (run edits).size,
        OnlyRun ((inheriting (run edits) sheet).Runs (run edits) (sheet.cascade l).value
          ((run edits).parent? x)) turns (sheet.computeStyle l).value := by
  obtain ⟨kids, h⟩ := shape_run edits
  refine ⟨h.ancestorTest_ends, fun a x => h.isInclusiveAncestor_iff_transGen, h.ancestorOrder, ?_⟩
  intro x hx
  obtain ⟨l, hl⟩ := Option.isSome_iff_exists.mp (lineage?_isSome.mpr hx)
  exact ⟨l, hl, fun s => h.search_ends hl s.ancestors, fun sheet => h.inheriting_ends sheet hl⟩

end Forest
end StyleCascade
