import Mathlib.Data.List.Induction
import Mathlib.Data.List.Nodup
import StyleCascade.Forest.Basic
import StyleCascade.Proofs.Names
import StyleCascade.Proofs.Selector.Grammar

/-!
# Components and their names

A component is told by the names that it carries. They are kept in lists, but over any history of
changes a component answers like a pair of sets of names, as long as it is asked for names as they
are stored.
-/

namespace StyleCascade

/-!
## The names of a component

A component keeps its classes and its active pseudo-states as two lists of names, which are changed
in the same two ways: a name is added in the form in which it is stored, or this form is taken out.
What is stored is trimmed and in lower case and not empty, and nothing else is in this form already
(`storedForm_iff`). For a name of the grammar of selectors the form is the name in lower case, since
there are no blanks to be cut (`storedName_of_isName`).

No name is stored twice, so to take a name out is to take out one entry (`NameList.eraseName_eq`).

Questions ignore the case of letters, while names are taken out only if they are the same. The two
go together because all names are stored in lower case: to carry a name is then to have its lower
case in the list (`Orderly.answers_iff`).
-/

namespace Component

variable {list added : List String} {name x : String} {c : Component} {kind : TestKind}

/-! ### The form in which names are stored -/

/-- A name as it can be stored. -/
structure StoredForm (x : String) : Prop where
  ne_empty : x ≠ ""
  trimmed : Text.Trimmed x
  lower : x.toLower = x

theorem toLower_storedName (name : String) : (storedName name).toLower = storedName name :=
  Text.toLower_toLower _

theorem trim_storedName (name : String) : Text.trim (storedName name) = storedName name := by
  rw [storedName, Text.trim_toLower, Text.trim_trim]

theorem storedForm_iff : StoredForm x ↔ x ≠ "" ∧ storedName x = x := by
  constructor
  · intro h
    rw [storedName, Text.trim_eq_self_iff.mpr h.trimmed]
    exact ⟨h.ne_empty, h.lower⟩
  · rintro ⟨hne, hstored⟩
    refine ⟨hne, Text.trim_eq_self_iff.mp ?_, ?_⟩
    · rw [← hstored, trim_storedName]
    · rw [← hstored, toLower_storedName]

theorem storedForm_storedName (h : storedName name ≠ "") : StoredForm (storedName name) := by
  refine ⟨h, Text.trim_eq_self_iff.mp (trim_storedName name), toLower_storedName name⟩

theorem storedName_eq_empty_iff : storedName name = "" ↔ Text.trim name = "" := by
  rw [storedName, ← String.toList_inj, ← String.toList_inj, Text.toList_toLower]
  exact List.map_eq_nil_iff

theorem storedName_of_isName (h : IsName name.toList) : storedName name = name.toLower := by
  rw [storedName, Text.trim_of_isBlank_eq_false h.isBlank_eq_false]

theorem storedName_ne_empty (h : IsName name.toList) : storedName name ≠ "" := by
  intro hempty
  rw [storedName_of_isName h, ← String.toList_inj, Text.toList_toLower] at hempty
  exact h.ne_nil (List.map_eq_nil_iff.mp hempty)

/-! ### Adding and taking out -/

theorem isNewName_iff :
    isNewName list name = true ↔ storedName name ≠ "" ∧ storedName name ∉ list := by
  simp [isNewName]

theorem mem_insertName :
    x ∈ insertName list name ↔ x ∈ list ∨ storedName name ≠ "" ∧ x = storedName name := by
  rw [insertName, isNewName]
  by_cases hempty : storedName name = ""
  · simp [hempty]
  · by_cases hmem : storedName name ∈ list
    · have absorbed : x = storedName name → x ∈ list := fun heq => heq ▸ hmem
      simpa [hempty, hmem] using absorbed
    · simp [hempty, hmem]

theorem mem_eraseName : x ∈ eraseName list name ↔ x ∈ list ∧ x ≠ storedName name := by
  simp [eraseName]

theorem mem_foldl_insertName : x ∈ added.foldl insertName list ↔
    x ∈ list ∨ x ≠ "" ∧ ∃ name ∈ added, storedName name = x := by
  induction added generalizing list with
  | nil => simp
  | cons name added ih =>
      rw [List.foldl_cons, ih, mem_insertName, List.exists_mem_cons_iff, or_assoc, and_or_left]
      have turned : storedName name ≠ "" ∧ x = storedName name ↔
          x ≠ "" ∧ storedName name = x := by
        constructor
        · rintro ⟨hne, rfl⟩
          exact ⟨hne, rfl⟩
        · rintro ⟨hne, rfl⟩
          exact ⟨hne, rfl⟩
      rw [turned]

/-! ### Lists of names -/

/-- A list of names as a component keeps it. -/
structure NameList (list : List String) : Prop where
  nodup : list.Nodup
  stored : ∀ x ∈ list, StoredForm x

namespace NameList

theorem nil : NameList [] := ⟨List.nodup_nil, fun _ hx => nomatch hx⟩

theorem insertName (h : NameList list) (name : String) : NameList (insertName list name) := by
  refine ⟨?_, fun x hx => ?_⟩
  · rw [Component.insertName]
    split
    next hnew =>
      rw [← List.concat_eq_append]
      exact List.Nodup.concat (isNewName_iff.mp hnew).2 h.nodup
    · exact h.nodup
  · rcases mem_insertName.mp hx with hmem | ⟨hne, rfl⟩
    · exact h.stored x hmem
    · exact storedForm_storedName hne

theorem foldl_insertName (h : NameList list) (added : List String) :
    NameList (added.foldl Component.insertName list) := by
  induction added generalizing list with
  | nil => exact h
  | cons name added ih => exact ih (h.insertName name)

theorem eraseName (h : NameList list) (name : String) : NameList (eraseName list name) :=
  ⟨h.nodup.filter _, fun x hx => h.stored x (mem_eraseName.mp hx).1⟩

/-- Taking out all entries of a name takes out one at most. -/
theorem eraseName_eq (h : NameList list) (name : String) :
    Component.eraseName list name = list.erase (storedName name) :=
  (h.nodup.erase_eq_filter _).symm

end NameList

/-! ### Questions -/

/-- The names of a component that tests of a kind ask for. -/
def names (c : Component) : TestKind → List String
  | .classTest => c.classes
  | .pseudoTest => c.pseudos

def answers (c : Component) : TestKind → String → Bool
  | .classTest => c.hasClass
  | .pseudoTest => c.hasPseudo

theorem answers_eq (c : Component) (kind : TestKind) (name : String) :
    c.answers kind name = (c.names kind).any (Text.sameName name) := by
  cases kind <;> rfl

/-- The names of a component are in order, those of both kinds. -/
def Orderly (c : Component) : Prop := ∀ kind, NameList (c.names kind)

theorem orderly_new (id : ComponentId) (typeName : String) : (new id typeName).Orderly := by
  intro kind
  cases kind <;> exact .nil

theorem Orderly.answers_iff (h : c.Orderly) :
    c.answers kind name = true ↔ name.toLower ∈ c.names kind := by
  simp only [answers_eq, List.any_eq_true, Text.sameName_iff]
  constructor
  · rintro ⟨x, hx, same⟩
    rwa [same, ((h kind).stored x hx).lower]
  · intro hmem
    exact ⟨_, hmem, (Text.toLower_toLower name).symm⟩

end Component

/-!
## The history of a component

A component comes from a new one by revisions. All classes are replaced at once, or one name is
turned on or off: a class by adding it or removing it, a pseudo-state by setting it (`Toggle`). The
three ways to turn a name have one effect on the list of its kind (`names_toggled`), and none on
other names than the one that is turned, where names that are stored alike are one.

So a component behaves like a pair of sets of names, over any history. Its lists are in order
(`orderly_run`), and a name is there just if the last revision that concerns it has put it there
(`mem_names_run`). What comes earlier does not matter, nor how a name was spelled.
-/

namespace Component

/-- Turning one name on or off. -/
inductive Toggle where
  | addClass (name : String)
  | removeClass (name : String)
  | setPseudo (name : String) (on : Bool)
  deriving DecidableEq, Repr

namespace Toggle

def kind : Toggle → TestKind
  | addClass _ | removeClass _ => .classTest
  | setPseudo .. => .pseudoTest

def name : Toggle → String
  | addClass name | removeClass name | setPseudo name _ => name

def on : Toggle → Bool
  | addClass _ => true
  | removeClass _ => false
  | setPseudo _ on => on

/-- What is turned on or off. -/
def target (t : Toggle) : TestKind × String := (t.kind, storedName t.name)

end Toggle

/-- The component after a name is turned on or off. -/
def toggled (c : Component) : Toggle → Component
  | .addClass name => (c.addClass name).2
  | .removeClass name => (c.removeClass name).2
  | .setPseudo name on => c.setPseudo name on

/-- What a component tells when a name is turned: for classes, whether this has an effect. -/
def reply (c : Component) : Toggle → Option Bool
  | .addClass name => some (c.addClass name).1
  | .removeClass name => some (c.removeClass name).1
  | .setPseudo .. => none

inductive Revision where
  | setClasses (names : List String)
  | toggle (t : Toggle)
  deriving DecidableEq, Repr

namespace Revision

/-- Test whether a revision decides if a name is there. -/
def concerns (kind : TestKind) (x : String) : Revision → Bool
  | setClasses _ => kind = .classTest
  | toggle t => t.target = (kind, x)

/-- Test whether a name is there after a revision that concerns it. -/
def gives (x : String) : Revision → Bool
  | setClasses names => names.any fun name => storedName name = x
  | toggle t => t.on

end Revision

def revise (c : Component) : Revision → Component
  | .setClasses names => c.setClasses names
  | .toggle t => c.toggled t

def run (id : ComponentId) (typeName : String) (revisions : List Revision) : Component :=
  revisions.foldl revise (new id typeName)

/-- The last revision that decides if a name is there. -/
def lastConcerning? (kind : TestKind) (x : String) (revisions : List Revision) : Option Revision :=
  revisions.reverse.find? fun r => r.concerns kind x

variable {c c' : Component} {t t' : Toggle} {r : Revision} {kind : TestKind} {x : String}

/-! ### One name -/

theorem names_toggled (c : Component) (t : Toggle) (kind : TestKind) :
    (c.toggled t).names kind =
      if t.kind = kind then
        if t.on then insertName (c.names kind) t.name else eraseName (c.names kind) t.name
      else c.names kind := by
  cases t <;> cases kind <;> rfl

theorem mem_names_toggled_of_target (h : t.target = (kind, x)) (hx : x ≠ "") :
    x ∈ (c.toggled t).names kind ↔ t.on = true := by
  obtain ⟨rfl, rfl⟩ := Prod.mk.inj h
  rw [names_toggled, if_pos rfl]
  split
  next hon => simp [mem_insertName, hon, hx]
  next hoff => simp [mem_eraseName, hoff]

theorem mem_names_toggled_of_ne (h : t.target ≠ (kind, x)) :
    x ∈ (c.toggled t).names kind ↔ x ∈ c.names kind := by
  rw [names_toggled]
  split
  next hkind =>
    have hne : x ≠ storedName t.name := by
      rintro rfl
      exact h (congrArg (·, storedName t.name) hkind)
    split
    · simp [mem_insertName, hne]
    · simp [mem_eraseName, hne]
  · rfl

theorem Orderly.toggled (h : c.Orderly) (t : Toggle) : (c.toggled t).Orderly := by
  intro kind
  rw [names_toggled]
  split
  · split
    · exact (h kind).insertName t.name
    · exact (h kind).eraseName t.name
  · exact h kind

/-! ### One revision -/

theorem mem_names_revise_of_concerns (h : r.concerns kind x = true) (hx : x ≠ "") :
    x ∈ (c.revise r).names kind ↔ r.gives x = true := by
  cases r with
  | setClasses names =>
      obtain rfl := of_decide_eq_true h
      change x ∈ names.foldl insertName [] ↔ _
      rw [mem_foldl_insertName]
      simp [Revision.gives, hx]
  | toggle t => exact mem_names_toggled_of_target (of_decide_eq_true h) hx

theorem mem_names_revise_of_not_concerns (h : r.concerns kind x = false) :
    x ∈ (c.revise r).names kind ↔ x ∈ c.names kind := by
  cases r with
  | setClasses names =>
      cases kind with
      | classTest => cases h
      | pseudoTest => rfl
  | toggle t => exact mem_names_toggled_of_ne (of_decide_eq_false h)

theorem Orderly.revise (h : c.Orderly) (r : Revision) : (c.revise r).Orderly := by
  cases r with
  | setClasses names =>
      intro kind
      cases kind with
      | classTest => exact NameList.nil.foldl_insertName names
      | pseudoTest => exact h .pseudoTest
  | toggle t => exact h.toggled t

/-! ### Histories -/

variable {id : ComponentId} {typeName : String} {revisions : List Revision}

theorem run_concat (id : ComponentId) (typeName : String) (revisions : List Revision)
    (r : Revision) :
    run id typeName (revisions ++ [r]) = (run id typeName revisions).revise r := by
  rw [run, List.foldl_append]
  rfl

theorem orderly_run (id : ComponentId) (typeName : String) (revisions : List Revision) :
    (run id typeName revisions).Orderly := by
  induction revisions using List.reverseRecOn with
  | nil => exact orderly_new id typeName
  | append_singleton revisions r ih =>
      rw [run_concat]
      exact ih.revise r

theorem lastConcerning?_concat (kind : TestKind) (x : String) (revisions : List Revision)
    (r : Revision) :
    lastConcerning? kind x (revisions ++ [r]) =
      if r.concerns kind x then some r else lastConcerning? kind x revisions := by
  rw [lastConcerning?, List.reverse_concat, List.find?_cons]
  cases r.concerns kind x <;> rfl

theorem mem_names_run (hx : x ≠ "") :
    x ∈ (run id typeName revisions).names kind ↔
      ∃ r, lastConcerning? kind x revisions = some r ∧ r.gives x = true := by
  induction revisions using List.reverseRecOn with
  | nil => cases kind <;> simp [run, new, names, lastConcerning?]
  | append_singleton revisions r ih =>
      rw [run_concat, lastConcerning?_concat]
      cases hr : r.concerns kind x with
      | true => simp [mem_names_revise_of_concerns hr hx]
      | false => rw [mem_names_revise_of_not_concerns hr, ih]; simp

/-- The names of a component behave like two sets of stored forms, whatever has been done to the
component. Each list holds stored forms only, none of them twice. A stored form is in it just if the
last revision that concerns it has put it there; and this is what a question for it answers. To add
a class tells whether there is a name that was absent, to remove one whether it was present, and
then it takes out exactly this name. -/
theorem names_run (id : ComponentId) (typeName : String) (revisions : List Revision) :
    (∀ kind, ((run id typeName revisions).names kind).Nodup ∧
      ∀ x ∈ (run id typeName revisions).names kind, StoredForm x) ∧
    (∀ kind x, x ≠ "" → storedName x = x →
      (x ∈ (run id typeName revisions).names kind ↔
        ∃ r, lastConcerning? kind x revisions = some r ∧ r.gives x = true) ∧
      ((run id typeName revisions).answers kind x = true ↔
        x ∈ (run id typeName revisions).names kind)) ∧
    ∀ name,
      (((run id typeName revisions).addClass name).1 = true ↔
        storedName name ≠ "" ∧ storedName name ∉ (run id typeName revisions).classes) ∧
      (((run id typeName revisions).removeClass name).1 = true ↔
        storedName name ∈ (run id typeName revisions).classes) ∧
      ((run id typeName revisions).removeClass name).2.classes =
        (run id typeName revisions).classes.erase (storedName name) := by
  have orderly := orderly_run id typeName revisions
  refine ⟨fun kind => ⟨(orderly kind).nodup, (orderly kind).stored⟩, fun kind x hx hstored => ?_,
    fun name => ⟨isNewName_iff, List.contains_iff_mem, ?_⟩⟩
  · refine ⟨mem_names_run hx, ?_⟩
    rw [orderly.answers_iff, (storedForm_iff.mpr ⟨hx, hstored⟩).lower]
  · exact (orderly .classTest).eraseName_eq name

example : (run 0 "button" [.setClasses [" Wide", "red", "WIDE", " "], .toggle (.addClass "Big"),
    .toggle (.setPseudo "hover" true), .toggle (.removeClass "Red ")]).classes =
      ["wide", "big"] := by
  cbv

end Component

/-!
## Asking for a name that has been changed

A name is trimmed before it is added or taken out, but a question takes it as it is. So a component
is found to carry what was added to it if one asks for the trimmed name (`answers_toggled`). The
name as it was given is carried only if there was nothing to trim, because a name with blanks at its
ends is never stored (`Orderly.answers_trim`).
-/

namespace Component

variable {c : Component} {t : Toggle} {kind : TestKind} {name : String}

/-- A name is carried if it is trimmed and its trimmed form is carried. -/
theorem Orderly.answers_trim (h : c.Orderly) (kind : TestKind) (name : String) :
    c.answers kind name =
      (c.answers kind (Text.trim name) && decide (Text.trim name = name)) := by
  by_cases htrim : Text.trim name = name
  · rw [htrim, decide_eq_true rfl, Bool.and_true]
  · rw [decide_eq_false htrim, Bool.and_false, Bool.eq_false_iff]
    intro carried
    have stored := (h kind).stored _ (h.answers_iff.mp carried)
    exact htrim (Text.trim_eq_self_iff.mpr (Text.trimmed_toLower.mp stored.trimmed))

/-- The trimmed name is carried after a toggle just if it was turned on. -/
theorem Orderly.answers_toggled (h : c.Orderly) (hname : Text.trim t.name ≠ "") :
    (c.toggled t).answers t.kind (Text.trim t.name) = t.on := by
  have hstored : storedName t.name ≠ "" := fun hempty =>
    hname (storedName_eq_empty_iff.mp hempty)
  rw [Bool.eq_iff_iff, (h.toggled t).answers_iff]
  exact mem_names_toggled_of_target rfl hstored

theorem Orderly.answers_toggled_name (h : c.Orderly) (hname : Text.trim t.name ≠ "") :
    (c.toggled t).answers t.kind t.name = (t.on && decide (Text.trim t.name = t.name)) := by
  rw [(h.toggled t).answers_trim, h.answers_toggled hname]

/-- To remove a class tells whether the trimmed name was carried. -/
theorem Orderly.removeClass_eq (h : c.Orderly) (name : String) :
    (c.removeClass name).1 = c.hasClass (Text.trim name) := by
  have carried : c.answers .classTest (Text.trim name) = true ↔ storedName name ∈ c.classes :=
    h.answers_iff
  exact Bool.eq_iff_iff.mpr (List.contains_iff_mem.trans carried.symm)

/-- Changes of a name and questions for it agree on the trimmed name: it is carried after it has
been turned on and not after it has been turned off, and what the removal of a class tells is
whether it was carried before. For the name as it is given this is so if there is nothing to trim.
Otherwise it is not carried after it has been turned on, and its removal may tell of what was not
carried. -/
theorem asked_after_change (id : ComponentId) (typeName : String) (revisions : List Revision)
    (name : String) (hname : Text.trim name ≠ "") :
    (∀ t : Toggle, t.name = name →
      ((run id typeName revisions).toggled t).answers t.kind (Text.trim name) = t.on ∧
      (((run id typeName revisions).toggled t).answers t.kind name = t.on ↔
        t.on = false ∨ Text.trim name = name)) ∧
    ((run id typeName revisions).removeClass name).1 =
      (run id typeName revisions).hasClass (Text.trim name) ∧
    (((run id typeName revisions).removeClass name).1 = (run id typeName revisions).hasClass name ↔
      (run id typeName revisions).hasClass (Text.trim name) = false ∨ Text.trim name = name) := by
  have orderly := orderly_run id typeName revisions
  have told := orderly.removeClass_eq name
  refine ⟨?_, told, ?_⟩
  · rintro t rfl
    refine ⟨orderly.answers_toggled hname, ?_⟩
    rw [orderly.answers_toggled_name hname]
    cases t.on <;> simp
  · have asked : (run id typeName revisions).hasClass name =
        ((run id typeName revisions).hasClass (Text.trim name) &&
          decide (Text.trim name = name)) :=
      orderly.answers_trim .classTest name
    rw [told, asked]
    cases (run id typeName revisions).hasClass (Text.trim name) <;> simp

/-- A class that is added with a blank at either end, the second one beyond ASCII. -/
theorem asked_after_change_padded :
    Text.trim " Big\u3000" ≠ "" ∧
    ((run 0 "button" [.setClasses ["wide"]]).addClass " Big\u3000").2.hasClass
      (Text.trim " Big\u3000") = true ∧
    ((run 0 "button" [.setClasses ["wide"]]).addClass " Big\u3000").2.hasClass
      " Big\u3000" ≠ true := by
  have hname : Text.trim " Big\u3000" ≠ "" := by decide +kernel
  have hpadded : Text.trim " Big\u3000" ≠ " Big\u3000" := by decide +kernel
  obtain ⟨toggles, -⟩ :=
    asked_after_change 0 "button" [.setClasses ["wide"]] " Big\u3000" hname
  obtain ⟨trimmed, given⟩ := toggles (.addClass " Big\u3000") rfl
  refine ⟨hname, trimmed, fun carried => ?_⟩
  rcases given.mp carried with off | htrim
  · cases off
  · exact hpadded htrim

/-- With a blank in front, a name is stored when it is added, and yet it is not carried. Its removal
tells that it was there. -/
theorem padded_name_not_carried :
    Text.trim " a " ≠ "" ∧
    ((run 0 "button" []).addClass " a ").1 = true ∧
    ((run 0 "button" []).addClass " a ").2.hasClass " a " = false ∧
    (((run 0 "button" []).addClass " a ").2.removeClass " a ").1 = true ∧
    ((run 0 "button" []).setPseudo " a " true).hasPseudo " a " = false := by
  decide +kernel

end Component
end StyleCascade
