import StyleCascade.Proofs.Component
import StyleCascade.Proofs.Forest.Resolution

/-!
# Names in selectors and in components

A name is brought to one form in three places: by the reader of selectors, character by character;
by a component, which stores it without blanks at its ends and in lower case; and by the comparison
of the two, which ignores the case of letters. The three agree on every name (`names_agree`). The
selector that is read from a name, or from a name behind a mark, has one test (`parse_name`,
`parse_test`), and which components pass it is told by the lower case of the name (`matched_ofType`,
`matched_ofTest`).
-/

namespace StyleCascade

/-! ### Selectors with one test -/

/-- The compound that asks for one name by a test. -/
def Compound.ofTest (kind : TestKind) (name : String) : Compound :=
  Compound.empty.add kind name.toLower

namespace Selector

variable {text m : String} {form : CompoundForm} {kind : TestKind}

/-- A text that is one compound describes the selector with this compound only. -/
theorem parse_of_isCompound (h : IsCompound text.toList form) :
    parse text = .ok ⟨[form.compound]⟩ :=
  parse_eq_ok_iff.mpr ⟨[form], h.isSequence.isSelector, rfl⟩

theorem parse_name (hm : IsName m.toList) : parse m = .ok ⟨[.ofType m]⟩ := by
  have hword : IsWord m.toList ⟨some m.toList, []⟩ := by simpa using IsWord.typed hm .nil
  have hread := parse_of_isCompound ⟨hword, hm.ne_nil⟩
  rwa [CompoundForm.compound_eq, Option.map_some, lowerName, String.ofList_toList] at hread

theorem parse_test (kind : TestKind) (hm : IsName m.toList) (htext : text.toList = kind.chars m) :
    parse text = .ok ⟨[.ofTest kind m]⟩ := by
  have hword : IsWord text.toList ⟨none, [(kind, m.toList)]⟩ := by
    rw [htext]
    simpa [TestKind.chars] using IsWord.untyped (IsTests.cons kind hm .nil)
  have hne : text.toList ≠ [] := by simp [htext, TestKind.chars]
  have hread := parse_of_isCompound ⟨hword, hne⟩
  rw [CompoundForm.compound_eq, Compound.addTests, List.foldl_cons, lowerName,
    String.ofList_toList] at hread
  exact hread

/-- Without compounds before the subject the ancestors do not matter. -/
theorem matchesLineage_single (k : Compound) (l : Lineage) :
    (⟨[k]⟩ : Selector).matchesLineage l = k.matchesElement l.element := by
  change (if k.matchesElement l.element then findAncestors [] l.ancestors else none).isSome = _
  split
  next fits => rw [findAncestors, fits, Option.isSome_some]
  next misfit => rw [Bool.eq_false_of_not_eq_true misfit, Option.isSome_none]

end Selector

namespace Component

variable {c c' : Component} {m : String} {kind : TestKind}

theorem matchesElement_ofType :
    (Compound.ofType m).matchesElement c.toElement = true ↔ c.typeName.toLower = m.toLower := by
  simp [Compound.ofType, Compound.matchesElement, toElement, Text.sameName_iff,
    Text.toLower_toLower]

theorem Orderly.matchesElement_ofTest (h : c.Orderly) :
    (Compound.ofTest kind m).matchesElement c.toElement = true ↔ m.toLower ∈ c.names kind := by
  have answered : (Compound.ofTest kind m).matchesElement c.toElement =
      c.answers kind m.toLower := by
    cases kind <;>
      simp [Compound.ofTest, Compound.add, Compound.addName, Compound.empty,
        Compound.matchesElement, toElement, answers]
  rw [answered, h.answers_iff, Text.toLower_toLower]

/-- What an edit makes of a component is what a revision makes of it. -/
theorem Revised.exists_revise (h : c.Revised c') : ∃ r, c' = c.revise r := by
  cases h with
  | setClasses names => exact ⟨.setClasses names, rfl⟩
  | addClass name => exact ⟨.toggle (.addClass name), rfl⟩
  | removeClass name => exact ⟨.toggle (.removeClass name), rfl⟩
  | setPseudo name on => exact ⟨.toggle (.setPseudo name on), rfl⟩

theorem Revised.orderly (h : c.Revised c') (hc : c.Orderly) : c'.Orderly := by
  obtain ⟨r, rfl⟩ := h.exists_revise
  exact hc.revise r

end Component

namespace Forest

variable {f : Forest} {id : ComponentId} {c c' : Component} {m n : String} {kind : TestKind}

theorem orderly_run (edits : List Edit) (hc : (run edits).component? id = some c) : c.Orderly :=
  component_induction (P := fun _ c => c.Orderly)
    (fun id typeName => Component.orderly_new id typeName)
    (fun _ _ _ hc revised => revised.orderly hc) edits id c hc

def Matched (f : Forest) (s : Selector) (id : ComponentId) : Prop :=
  ∃ l, f.lineage? id = some l ∧ s.matchesLineage l = true

theorem matched_single (hc : f.component? id = some c) (k : Compound) :
    f.Matched ⟨[k]⟩ id ↔ k.matchesElement c.toElement = true := by
  have hl : f.lineage? id =
      some ⟨c.toElement, (f.ancestors id).filterMap f.element?⟩ := by
    rw [lineage?, element?, hc]
    rfl
  simp only [Matched, hl, Option.some.injEq, exists_eq_left', Selector.matchesLineage_single]

theorem matched_ofType (hc : f.component? id = some c) :
    f.Matched ⟨[.ofType m]⟩ id ↔ c.typeName.toLower = m.toLower :=
  (matched_single hc _).trans Component.matchesElement_ofType

theorem matched_ofTest (hc : f.component? id = some c) (orderly : c.Orderly) :
    f.Matched ⟨[.ofTest kind m]⟩ id ↔ m.toLower ∈ c.names kind :=
  (matched_single hc _).trans orderly.matchesElement_ofTest

/-! ### Types, classes and pseudo-states -/

variable {edits : List Edit}

/-- A component is matched by the name of the type that it was created with, up to the case of
letters, whatever happens to it afterwards. -/
theorem matched_run_create (edits more : List Edit) :
    (run (edits ++ .create n :: more)).Matched ⟨[.ofType m]⟩ (run edits).size ↔
      n.toLower = m.toLower := by
  have hnew : ((run edits).edit (.create n)).component? (run edits).size =
      some (.new (run edits).size n) := by
    rw [edit, component?_create, if_pos rfl]
  obtain ⟨c, hc, htype⟩ := typeName_foldl_edit more hnew
  rw [run_append, List.foldl_cons, matched_ofType hc, htype, Component.new, Text.toLower_toLower]

/-- A component that adds a name passes the test for it, and those that it passed before. -/
theorem matched_insertName (hc : (run edits).component? id = some c) (revised : c.Revised c')
    (hn : IsName n.toList) (hnames : c'.names kind = Component.insertName (c.names kind) n) :
    ((run edits).putComponent id c').Matched ⟨[.ofTest kind m]⟩ id ↔
      n.toLower = m.toLower ∨ (run edits).Matched ⟨[.ofTest kind m]⟩ id := by
  have orderly := orderly_run edits hc
  rw [matched_ofTest hc orderly,
    matched_ofTest (component?_putComponent_self hc c') (revised.orderly orderly), hnames,
    Component.mem_insertName, and_iff_right (Component.storedName_ne_empty hn),
    Component.storedName_of_isName hn, or_comm, eq_comm]

/-- A component that takes out a name passes the tests for other names that it passed before. -/
theorem matched_eraseName (hc : (run edits).component? id = some c) (revised : c.Revised c')
    (hn : IsName n.toList) (hnames : c'.names kind = Component.eraseName (c.names kind) n) :
    ((run edits).putComponent id c').Matched ⟨[.ofTest kind m]⟩ id ↔
      n.toLower ≠ m.toLower ∧ (run edits).Matched ⟨[.ofTest kind m]⟩ id := by
  have orderly := orderly_run edits hc
  rw [matched_ofTest hc orderly,
    matched_ofTest (component?_putComponent_self hc c') (revised.orderly orderly), hnames,
    Component.mem_eraseName, Component.storedName_of_isName hn, and_comm, ne_comm]

theorem matched_addClass (hc : (run edits).component? id = some c) (hn : IsName n.toList) :
    ∃ isNew g, (run edits).addClass id n = .ok (isNew, g) ∧
      (g.Matched ⟨[.ofTest .classTest m]⟩ id ↔
        n.toLower = m.toLower ∨ (run edits).Matched ⟨[.ofTest .classTest m]⟩ id) := by
  refine ⟨_, _, by rw [addClass, require_of_component? hc]; rfl, ?_⟩
  exact matched_insertName hc (.addClass n) hn rfl

theorem matched_removeClass (hc : (run edits).component? id = some c) (hn : IsName n.toList) :
    ∃ wasThere g, (run edits).removeClass id n = .ok (wasThere, g) ∧
      (g.Matched ⟨[.ofTest .classTest m]⟩ id ↔
        n.toLower ≠ m.toLower ∧ (run edits).Matched ⟨[.ofTest .classTest m]⟩ id) := by
  refine ⟨_, _, by rw [removeClass, require_of_component? hc]; rfl, ?_⟩
  exact matched_eraseName hc (.removeClass n) hn rfl

theorem matched_setPseudo_true (hc : (run edits).component? id = some c) (hn : IsName n.toList) :
    ∃ g, (run edits).setPseudo id n true = .ok g ∧
      (g.Matched ⟨[.ofTest .pseudoTest m]⟩ id ↔
        n.toLower = m.toLower ∨ (run edits).Matched ⟨[.ofTest .pseudoTest m]⟩ id) := by
  refine ⟨_, by rw [setPseudo, require_of_component? hc]; rfl, ?_⟩
  exact matched_insertName hc (.setPseudo n true) hn rfl

theorem matched_setPseudo_false (hc : (run edits).component? id = some c) (hn : IsName n.toList) :
    ∃ g, (run edits).setPseudo id n false = .ok g ∧
      (g.Matched ⟨[.ofTest .pseudoTest m]⟩ id ↔
        n.toLower ≠ m.toLower ∧ (run edits).Matched ⟨[.ofTest .pseudoTest m]⟩ id) := by
  refine ⟨_, by rw [setPseudo, require_of_component? hc]; rfl, ?_⟩
  exact matched_eraseName hc (.setPseudo n false) hn rfl

/-- Names are compared in one way throughout. A component is matched by the name of a type if it
was created with this name, up to the case of ASCII letters, whatever happens to it afterwards. It
is matched by a class or a pseudo-state from when this name is added until it is taken out; both
have no effect on other names. -/
theorem names_agree (edits : List Edit) (n m : String) (hn : IsName n.toList)
    (hm : IsName m.toList) :
    (∃ s, Selector.parse m = .ok s ∧ ∀ more,
      (run (edits ++ .create n :: more)).Matched s ((run edits).create n).1 ↔
        n.toLower = m.toLower) ∧
    (∃ s, Selector.parse ("." ++ m) = .ok s ∧ ∀ id < (run edits).size,
      (∃ isNew g, (run edits).addClass id n = .ok (isNew, g) ∧
        (g.Matched s id ↔ n.toLower = m.toLower ∨ (run edits).Matched s id)) ∧
      ∃ wasThere g, (run edits).removeClass id n = .ok (wasThere, g) ∧
        (g.Matched s id ↔ n.toLower ≠ m.toLower ∧ (run edits).Matched s id)) ∧
    ∃ s, Selector.parse (":" ++ m) = .ok s ∧ ∀ id < (run edits).size,
      (∃ g, (run edits).setPseudo id n true = .ok g ∧
        (g.Matched s id ↔ n.toLower = m.toLower ∨ (run edits).Matched s id)) ∧
      ∃ g, (run edits).setPseudo id n false = .ok g ∧
        (g.Matched s id ↔ n.toLower ≠ m.toLower ∧ (run edits).Matched s id) := by
  have existing : ∀ id < (run edits).size, ∃ c, (run edits).component? id = some c :=
    fun id hid => Option.isSome_iff_exists.mp (component?_isSome.mpr hid)
  refine ⟨⟨_, Selector.parse_name hm, fun more => matched_run_create edits more⟩,
    ⟨_, Selector.parse_test .classTest hm (String.toList_append ..), fun id hid => ?_⟩,
    ⟨_, Selector.parse_test .pseudoTest hm (String.toList_append ..), fun id hid => ?_⟩⟩
  · obtain ⟨c, hc⟩ := existing id hid
    exact ⟨matched_addClass hc hn, matched_removeClass hc hn⟩
  · obtain ⟨c, hc⟩ := existing id hid
    exact ⟨matched_setPseudo_true hc hn, matched_setPseudo_false hc hn⟩

/-- Two spellings of one name, with letters beyond ASCII in the same case in both. -/
theorem names_agree_two_spellings :
    (∃ s, Selector.parse "GRößE-1" = .ok s ∧
      (run [.create "panel", .create "Größe-1", .append 0 1]).Matched s 1) ∧
    (∃ s, Selector.parse ".GRößE-1" = .ok s ∧
      (∃ isNew g, (run [.create "panel"]).addClass 0 "Größe-1" = .ok (isNew, g) ∧
        g.Matched s 0) ∧
      ∃ wasThere g, (run [.create "panel"]).removeClass 0 "Größe-1" = .ok (wasThere, g) ∧
        ¬ g.Matched s 0) ∧
    ∃ s, Selector.parse ":GRößE-1" = .ok s ∧
      ∃ g, (run [.create "panel"]).setPseudo 0 "Größe-1" true = .ok g ∧ g.Matched s 0 := by
  have one : IsName "Größe-1".toList := by decide +kernel
  have other : IsName "GRößE-1".toList := by decide +kernel
  have same : "Größe-1".toLower = "GRößE-1".toLower := by
    rw [← String.toList_inj, Text.toList_toLower, Text.toList_toLower]
    decide
  obtain ⟨⟨typed, htyped, created⟩, ⟨classed, hclassed, classes⟩, stated, hstated, pseudos⟩ :=
    names_agree [.create "panel"] "Größe-1" "GRößE-1" one other
  obtain ⟨⟨isNew, added, hadded, hadd⟩, wasThere, removed, hremoved, hremove⟩ :=
    classes 0 (by decide)
  obtain ⟨⟨g, hg, hset⟩, -⟩ := pseudos 0 (by decide)
  exact ⟨⟨typed, htyped, (created [.append 0 1]).mpr same⟩,
    ⟨classed, hclassed, ⟨isNew, added, hadded, hadd.mpr (.inl same)⟩,
      wasThere, removed, hremoved, fun matched => (hremove.mp matched).1 same⟩,
    stated, hstated, g, hg, hset.mpr (.inl same)⟩

end Forest
end StyleCascade
