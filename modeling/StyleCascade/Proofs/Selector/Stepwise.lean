import StyleCascade.Proofs.Selector.Failure

/-!
# Reading step by step

A reader takes the characters ahead from a list. Here the same reading is done by a machine that
knows a text and a number of bytes. For each look ahead it cuts the text behind these bytes, which
is a fault inside a character and behind the end; another one is to finish a compound that asks for
nothing. There is a loop over the compounds, one over the blanks in front of them, one over the
tests of a compound and one over the letters of a name, and a state tells the point in them.

From a place in the text a step is no fault: it goes on in one of the ways of `GoesOn`, or gives one
of the results of `Finishes` (`Stands.proceeds_step`). What the readers of `Cursor` find from a
state on (`State.reading`) is found from the next state as well, and in the end it is the result. So
the machine comes to what they come to.
-/

namespace StyleCascade

/-- A compound with a name added, as its type or by a test. -/
def Compound.addAs (k : Compound) : Option TestKind → String → Compound
  | none, name => { k with typeName := some name }
  | some kind, name => k.add kind name

namespace Stepwise

/-- The characters behind a number of bytes. A text cannot be cut behind its end, nor inside a
character. -/
def ahead? (text : String) (pos : Nat) : Option (List Char) :=
  if h : (⟨pos⟩ : String.Pos.Raw).IsValid text then
    some (text.sliceFrom ⟨⟨pos⟩, h⟩).copy.toList
  else none

theorem ahead?_of_append {text : String} {front rest : List Char}
    (h : text.toList = front ++ rest) : ahead? text (utf8Length front) = some rest := by
  have valid := isValid_utf8Length h
  have splits : (⟨⟨utf8Length front⟩, valid⟩ : text.Pos).Splits (.ofList front) (.ofList rest) := by
    constructor
    · rw [← String.ofList_append, ← h, String.ofList_toList]
    · exact String.Pos.Raw.ext (utf8Length_eq front)
  rw [ahead?, dif_pos valid, splits.copy_sliceFrom_eq, String.toList_ofList]

/-- The letter takes up two bytes, so one byte is no place to cut. -/
example : ahead? "é!" 1 = none ∧ ahead? "é!" 2 = some ['!'] := by decide +kernel

/-- Where a reading stands between two steps, and what it holds there. -/
inductive Point where
  /-- A turn of the loop over the compounds begins. -/
  | chain
  /-- A turn of the loop over blanks begins. -/
  | blanks
  /-- The blanks are behind, and a compound comes or the end. -/
  | opening
  /-- A turn of the loop over the letters of a name begins. The name is to be added to a compound,
  and some of its letters have been read. -/
  | letters (k : Compound) (use : Option TestKind) (start : Nat) (read : List Char)
  /-- A turn of the loop over the tests of a compound begins. -/
  | tests (k : Compound)
  deriving DecidableEq, Repr

/-- The number of bytes behind, the compounds that have been read, and the point. -/
structure State where
  pos : Nat
  compounds : List Compound
  point : Point
  deriving DecidableEq, Repr

/-- The state in which a reader is asked for a selector. -/
def State.start (pos : Nat) : State := ⟨pos, [], .chain⟩

inductive Fault where
  /-- The text is cut where no character begins. -/
  | badCut
  /-- A compound without a test is finished. -/
  | emptyCompound
  deriving DecidableEq, Repr

inductive Outcome where
  | goOn (next : State)
  | finish (result : Except ParseError Selector)
  | fault (fault : Fault)
  deriving DecidableEq

/-- The result for all compounds of a text. -/
def assemble (ks : List Compound) : Except ParseError Selector :=
  if ks.isEmpty then .error .empty else .ok ⟨ks⟩

namespace State

def move (s : State) (point : Point) : Outcome := .goOn { s with point }

/-- Go to another point behind the next character. -/
def pass (s : State) (c : Char) (point : Point) : Outcome :=
  .goOn { s with pos := s.pos + c.utf8Size, point }

def close (s : State) (k : Compound) : Outcome :=
  if k.isEmpty then .fault .emptyCompound
  else .goOn { s with compounds := s.compounds ++ [k], point := .chain }

/-- Pass a blank, or leave the loop. -/
def blanks (s : State) : Option Char → Outcome
  | none => s.move .opening
  | some c => if Text.isBlank c then s.pass c .blanks else s.move .opening

/-- Begin a compound with its type, if the next character belongs to a name. -/
def opening (s : State) : Option Char → Outcome
  | none => s.move (.tests .empty)
  | some c =>
    if Text.isNameChar c then s.move (.letters .empty none s.pos []) else s.move (.tests .empty)

/-- The name ends: add it to the compound, if there is one. -/
def endName (s : State) (k : Compound) (use : Option TestKind) (start : Nat) (read : List Char) :
    Outcome :=
  if read.isEmpty then .finish (.error (.expectedName start))
  else s.move (.tests (k.addAs use (String.ofList read)))

/-- Take another letter, or leave the loop with the name. -/
def letters (s : State) (k : Compound) (use : Option TestKind) (start : Nat) (read : List Char) :
    Option Char → Outcome
  | none => s.endName k use start read
  | some c =>
    if Text.isNameChar c then s.pass c (.letters k use start (read ++ [c.toLower]))
    else s.endName k use start read

/-- Begin a test behind its mark, or finish the compound in front of a blank and at the end. -/
def tests (s : State) (k : Compound) : Option Char → Outcome
  | none => s.close k
  | some c =>
    if Text.isBlank c then s.close k
    else
      match TestKind.ofMark? c with
      | some kind => s.pass c (.letters k (some kind) (s.pos + c.utf8Size) [])
      | none => .finish (.error (.unexpectedChar c s.pos))

end State

/-- Go on with the next character, if the text can be cut. -/
def look (text : String) (pos : Nat) (next : Option Char → Outcome) : Outcome :=
  match ahead? text pos with
  | none => .fault .badCut
  | some rest => next rest.head?

def step (text : String) (s : State) : Outcome :=
  match s.point with
  | .chain => s.move .blanks
  | .blanks => look text s.pos s.blanks
  | .opening =>
    if text.utf8ByteSize ≤ s.pos then .finish (assemble s.compounds)
    else look text s.pos s.opening
  | .letters k use start read => look text s.pos (s.letters k use start read)
  | .tests k => look text s.pos (s.tests k)

/-! ### The ways to go on -/

variable {text : String} {s s' : State} {rest rest' : List Char}
  {result : Except ParseError Selector}

/-- The steps of a reading that goes on, each with the characters ahead before it and after it. -/
inductive GoesOn : State → List Char → State → List Char → Prop where
  | seek {pos ks rest} : GoesOn ⟨pos, ks, .chain⟩ rest ⟨pos, ks, .blanks⟩ rest
  | blank {pos ks c rest} : Text.isBlank c = true →
      GoesOn ⟨pos, ks, .blanks⟩ (c :: rest) ⟨pos + c.utf8Size, ks, .blanks⟩ rest
  | found {pos ks rest} : StopsBefore Text.isBlank rest →
      GoesOn ⟨pos, ks, .blanks⟩ rest ⟨pos, ks, .opening⟩ rest
  | typed {pos ks c rest} : Text.isNameChar c = true →
      GoesOn ⟨pos, ks, .opening⟩ (c :: rest) ⟨pos, ks, .letters .empty none pos []⟩ (c :: rest)
  | untyped {pos ks c rest} : Text.isNameChar c = false → Text.isBlank c = false →
      GoesOn ⟨pos, ks, .opening⟩ (c :: rest) ⟨pos, ks, .tests .empty⟩ (c :: rest)
  | letter {pos ks k use start read c rest} : Text.isNameChar c = true →
      GoesOn ⟨pos, ks, .letters k use start read⟩ (c :: rest)
        ⟨pos + c.utf8Size, ks, .letters k use start (read ++ [c.toLower])⟩ rest
  | named {pos ks k use start read rest} : read ≠ [] → StopsBefore Text.isNameChar rest →
      GoesOn ⟨pos, ks, .letters k use start read⟩ rest
        ⟨pos, ks, .tests (k.addAs use (String.ofList read))⟩ rest
  | mark {pos ks k rest} (kind : TestKind) :
      GoesOn ⟨pos, ks, .tests k⟩ (kind.mark :: rest)
        ⟨pos + kind.mark.utf8Size, ks, .letters k (some kind) (pos + kind.mark.utf8Size) []⟩ rest
  | close {pos ks k rest} : k.isEmpty = false → AtBlank rest →
      GoesOn ⟨pos, ks, .tests k⟩ rest ⟨pos, ks ++ [k], .chain⟩ rest

/-- The last steps, with the characters that are still ahead. -/
inductive Finishes : State → List Char → Except ParseError Selector → Prop where
  | ended {pos ks} : Finishes ⟨pos, ks, .opening⟩ [] (assemble ks)
  | unnamed {pos ks k use start rest} : StopsBefore Text.isNameChar rest →
      Finishes ⟨pos, ks, .letters k use start []⟩ rest (.error (.expectedName start))
  | foreign {pos ks k c rest} : Text.isBlank c = false → TestKind.ofMark? c = none →
      Finishes ⟨pos, ks, .tests k⟩ (c :: rest) (.error (.unexpectedChar c pos))

/-- What holds at a point about the characters ahead. A compound begins with some character other
than a blank, so it is not finished before it asks for something. -/
def Point.Fits : Point → List Char → Prop
  | .opening, rest => StopsBefore Text.isBlank rest
  | .tests k, rest => k.isEmpty = true → ¬ AtBlank rest
  | _, _ => True

/-- A state is at a place in the text, with these characters ahead. -/
structure Stands (text : String) (s : State) (rest : List Char) : Prop where
  passed : ∃ run, (Cursor.ofText text).Passes run ⟨s.pos, rest⟩
  fits : s.point.Fits rest

theorem Stands.exists_append (h : Stands text s rest) :
    ∃ front, text.toList = front ++ rest ∧ s.pos = utf8Length front := by
  obtain ⟨front, passes⟩ := h.passed
  exact ⟨front, passes.rest_eq, passes.pos_eq.trans (Nat.zero_add _)⟩

theorem Stands.ahead?_eq (h : Stands text s rest) : ahead? text s.pos = some rest := by
  obtain ⟨front, htext, hpos⟩ := h.exists_append
  rw [hpos]
  exact ahead?_of_append htext

theorem Stands.look_eq (h : Stands text s rest) (next : Option Char → Outcome) :
    look text s.pos next = next rest.head? := by
  rw [look, h.ahead?_eq]

theorem Stands.utf8ByteSize_eq (h : Stands text s rest) :
    text.utf8ByteSize = s.pos + utf8Length rest := by
  obtain ⟨front, htext, hpos⟩ := h.exists_append
  have hsize : utf8Length text.toList = text.utf8ByteSize := by
    rw [utf8Length_eq, String.ofList_toList]
  rw [← hsize, htext, utf8Length_append, hpos]

theorem utf8Length_pos_of_ne_nil (h : rest ≠ []) : 0 < utf8Length rest := by
  obtain ⟨c, rest, rfl⟩ := List.exists_cons_of_ne_nil h
  have := c.utf8Size_pos
  rw [utf8Length_cons]
  omega

inductive Proceeds (s : State) (rest : List Char) : Outcome → Prop where
  | goOn {s' : State} {rest' : List Char} : GoesOn s rest s' rest' → Proceeds s rest (.goOn s')
  | finish {result : Except ParseError Selector} : Finishes s rest result →
      Proceeds s rest (.finish result)

section Turns

variable {pos start : Nat} {ks : List Compound} {k : Compound} {use : Option TestKind}
  {read : List Char}

theorem proceeds_blanks :
    Proceeds ⟨pos, ks, .blanks⟩ rest (State.blanks ⟨pos, ks, .blanks⟩ rest.head?) := by
  cases rest with
  | nil => exact .goOn (.found stopsBefore_nil)
  | cons c rest =>
      rw [List.head?_cons, State.blanks]
      split
      next hc => exact .goOn (.blank hc)
      next hc => exact .goOn (.found (stopsBefore_cons.mpr (Bool.eq_false_iff.mpr hc)))

theorem proceeds_opening (hne : rest ≠ []) (hstops : StopsBefore Text.isBlank rest) :
    Proceeds ⟨pos, ks, .opening⟩ rest (State.opening ⟨pos, ks, .opening⟩ rest.head?) := by
  obtain ⟨c, rest, rfl⟩ := List.exists_cons_of_ne_nil hne
  rw [List.head?_cons, State.opening]
  split
  next hc => exact .goOn (.typed hc)
  next hc => exact .goOn (.untyped (Bool.eq_false_iff.mpr hc) (stopsBefore_cons.mp hstops))

theorem proceeds_endName (hstops : StopsBefore Text.isNameChar rest) :
    Proceeds ⟨pos, ks, .letters k use start read⟩ rest
      (State.endName ⟨pos, ks, .letters k use start read⟩ k use start read) := by
  cases read with
  | nil => exact .finish (.unnamed hstops)
  | cons l read => exact .goOn (.named (List.cons_ne_nil l read) hstops)

theorem proceeds_letters :
    Proceeds ⟨pos, ks, .letters k use start read⟩ rest
      (State.letters ⟨pos, ks, .letters k use start read⟩ k use start read rest.head?) := by
  cases rest with
  | nil => exact proceeds_endName stopsBefore_nil
  | cons c rest =>
      rw [List.head?_cons, State.letters]
      split
      next hc => exact .goOn (.letter hc)
      next hc =>
        apply proceeds_endName
        exact stopsBefore_cons.mpr (Bool.eq_false_iff.mpr hc)

theorem proceeds_close (hk : k.isEmpty = true → ¬ AtBlank rest) (hblank : AtBlank rest) :
    Proceeds ⟨pos, ks, .tests k⟩ rest (State.close ⟨pos, ks, .tests k⟩ k) := by
  rw [State.close]
  split
  next hempty => exact absurd hblank (hk hempty)
  next hempty => exact .goOn (.close (Bool.eq_false_iff.mpr hempty) hblank)

theorem proceeds_tests (hk : k.isEmpty = true → ¬ AtBlank rest) :
    Proceeds ⟨pos, ks, .tests k⟩ rest (State.tests ⟨pos, ks, .tests k⟩ k rest.head?) := by
  cases rest with
  | nil => exact proceeds_close hk atBlank_nil
  | cons c rest =>
      rw [List.head?_cons, State.tests]
      split
      next hc =>
        apply proceeds_close hk
        exact atBlank_cons.mpr hc
      next hc =>
        split
        next kind hmark =>
          obtain rfl := TestKind.ofMark?_eq_some.mp hmark
          exact .goOn (.mark kind)
        next hmark => exact .finish (.foreign (Bool.eq_false_iff.mpr hc) hmark)

end Turns

/-- From a place in the text a reading goes on or finishes. -/
theorem Stands.proceeds_step (h : Stands text s rest) : Proceeds s rest (step text s) := by
  have hlook := h.look_eq
  have hsize := h.utf8ByteSize_eq
  have fits := h.fits
  obtain ⟨pos, ks, point⟩ := s
  cases point with
  | chain => exact .goOn .seek
  | blanks =>
      change Proceeds _ rest (look text pos _)
      rw [hlook]
      exact proceeds_blanks
  | opening =>
      change Proceeds _ rest (if text.utf8ByteSize ≤ pos then _ else look text pos _)
      by_cases hrest : rest = []
      · subst hrest
        rw [if_pos (by exact hsize.le)]
        exact .finish .ended
      · have inside : pos < text.utf8ByteSize := by
          have hpos := utf8Length_pos_of_ne_nil hrest
          change text.utf8ByteSize = pos + utf8Length rest at hsize
          omega
        rw [if_neg (by omega), hlook]
        exact proceeds_opening hrest fits
  | letters k use start read =>
      change Proceeds _ rest (look text pos _)
      rw [hlook]
      exact proceeds_letters
  | tests k =>
      change Proceeds _ rest (look text pos _)
      rw [hlook]
      exact proceeds_tests fits

/-! ### What holds in every state -/

theorem isEmpty_addAs (k : Compound) (use : Option TestKind) (name : String) :
    (k.addAs use name).isEmpty = false := by
  have hne : ∀ names, Compound.addName names name ≠ [] := by
    intro names
    rw [Compound.addName]
    split
    next hmem => exact List.ne_nil_of_mem hmem
    next => simp
  obtain _ | _ | _ := use <;> simp [Compound.addAs, Compound.add, Compound.isEmpty, hne]

theorem GoesOn.passes (h : GoesOn s rest s' rest') :
    ∃ run, (⟨s.pos, rest⟩ : Cursor).Passes run ⟨s'.pos, rest'⟩ := by
  cases h with
  | @blank _ _ c | @letter _ _ _ _ _ _ c => exact ⟨[c], rfl, rfl⟩
  | mark kind => exact ⟨[kind.mark], rfl, rfl⟩
  | seek | found | typed | untyped | named | close => exact ⟨[], .refl _⟩

theorem GoesOn.fits (h : GoesOn s rest s' rest') : s'.point.Fits rest' := by
  cases h with
  | found hstops => exact hstops
  | untyped _ hc =>
      intro _ hblank
      rw [atBlank_cons.mp hblank] at hc
      cases hc
  | named =>
      intro hempty
      rw [isEmpty_addAs] at hempty
      cases hempty
  | seek | blank | typed | letter | mark | close => trivial

theorem Stands.goesOn (h : Stands text s rest) (hstep : GoesOn s rest s' rest') :
    Stands text s' rest' := by
  obtain ⟨front, hfront⟩ := h.passed
  obtain ⟨run, hrun⟩ := hstep.passes
  exact ⟨⟨front ++ run, hfront.trans hrun⟩, hstep.fits⟩

/-! ### What the readers find from a state on -/

/-- Compounds, with those in front of them. -/
def gather (ks : List Compound) : Reading (List Compound) → Reading Selector
  | (.error e, stop) => (.error e, stop)
  | (.ok others, stop) => (assemble (ks ++ others), stop)

/-- A compound, with those in front of it and those that come behind. -/
def follow (ks : List Compound) : Reading Compound → Reading Selector
  | (.error e, stop) => (.error e, stop)
  | (.ok k, next) => gather (ks ++ [k]) next.compounds

/-- A compound, read on from within a name. -/
def nameTests (k : Compound) (use : Option TestKind) (start : Nat) (read : List Char)
    (c : Cursor) : Reading Compound :=
  let letters := read ++ (c.rest.takeWhile Text.isNameChar).map Char.toLower
  if letters.isEmpty then (.error (.expectedName start), c)
  else (c.skip Text.isNameChar).tests (k.addAs use (String.ofList letters))

/-- What the readers find from a state on. -/
def State.reading (s : State) (rest : List Char) : Reading Selector :=
  match s.point with
  | .chain | .blanks | .opening => gather s.compounds (Cursor.compounds ⟨s.pos, rest⟩)
  | .letters k use start read => follow s.compounds (nameTests k use start read ⟨s.pos, rest⟩)
  | .tests k => follow s.compounds (Cursor.tests k ⟨s.pos, rest⟩)

/-- To ask for a selector is to read from the start state on. -/
theorem reading_start (c : Cursor) : (State.start c.pos).reading c.rest = c.selector := by
  change gather [] c.compounds = c.selector
  rw [Cursor.selector]
  split
  next h => rw [h]; rfl
  next h => rw [h]; rfl
  next h => rw [h]; rfl

section Readers

variable {c : Cursor} {ks : List Compound} {k : Compound} {use : Option TestKind} {start : Nat}
  {read : List Char} {ch : Char}

/-- Compounds are read one by one, each behind blanks. -/
theorem gather_compounds : gather ks c.compounds =
    if c.skipBlanks.rest = [] then (assemble ks, c.skipBlanks)
    else follow ks c.skipBlanks.compound := by
  rw [Cursor.compounds]
  split
  next hnil => simp [gather, hnil]
  next hcons =>
    rw [if_neg (by simp [hcons])]
    split
    next h => rw [h]; rfl
    next k next h =>
      rw [h, follow]
      split
      next hothers => rw [hothers]; rfl
      next hothers => simp [hothers, gather]

theorem gather_compounds_of_stopsBefore (hstops : StopsBefore Text.isBlank c.rest) :
    gather ks c.compounds =
      if c.rest = [] then (assemble ks, c) else follow ks c.compound := by
  have hskip : c.skipBlanks = c :=
    Cursor.skipBlanks_eq_iff.mpr ⟨[], isBlanks_nil, .refl c, hstops⟩
  rw [gather_compounds, hskip]

/-- A name that has begun goes on up to its last letter, and then come the tests. -/
theorem nameTests_of_stopsBefore (hread : read ≠ []) (hstops : StopsBefore Text.isNameChar c.rest) :
    nameTests k use start read c = c.tests (k.addAs use (String.ofList read)) := by
  have hnone : ∀ ch ∈ ([] : List Char), Text.isNameChar ch = true := nofun
  have hletters : c.rest.takeWhile Text.isNameChar = [] := hstops.takeWhile hnone
  have hskip : c.skip Text.isNameChar = c :=
    Cursor.skip_eq_iff.mpr ⟨[], hnone, .refl c, hstops⟩
  simp [nameTests, hletters, hskip, hread]

theorem nameTests_nil_of_stopsBefore (hstops : StopsBefore Text.isNameChar c.rest) :
    nameTests k use start [] c = (.error (.expectedName start), c) := by
  have hnone : ∀ ch ∈ ([] : List Char), Text.isNameChar ch = true := nofun
  have hletters : c.rest.takeWhile Text.isNameChar = [] := hstops.takeWhile hnone
  simp [nameTests, hletters]

/-- A name at the start of a compound is its type. -/
theorem compound_eq_nameTests (hrest : c.rest = ch :: rest) (hch : Text.isNameChar ch = true) :
    c.compound = nameTests .empty none c.pos [] c := by
  have hne : c.rest.takeWhile Text.isNameChar ≠ [] := by simp [hrest, hch]
  simp [Cursor.compound, Cursor.name, nameTests, hne, Compound.addAs, Compound.empty]

/-- A name behind a mark is that of a test. -/
theorem tests_eq_nameTests {kind : TestKind} (hrest : c.rest = kind.mark :: rest) :
    c.tests k = nameTests k (some kind) (c.pos + kind.mark.utf8Size) []
      ⟨c.pos + kind.mark.utf8Size, rest⟩ := by
  rw [Cursor.tests_of_mark hrest, Cursor.name, nameTests]
  by_cases hnone : rest.takeWhile Text.isNameChar = []
  · simp [hnone]
  · simp [hnone, Compound.addAs]

/-- A character that is neither a blank nor a mark ends the tests. -/
theorem tests_of_foreign (hrest : c.rest = ch :: rest) (hblank : Text.isBlank ch = false)
    (hmark : TestKind.ofMark? ch = none) : c.tests k = (.error (.unexpectedChar ch c.pos), c) := by
  rw [Cursor.tests]
  split
  next hnil => rw [hrest] at hnil; cases hnil
  next ch' rest' hrest' =>
    obtain ⟨rfl, rfl⟩ := List.cons.inj (hrest.symm.trans hrest')
    simp [hblank, hmark]

end Readers

/-- A step leaves to the readers what they have found. -/
theorem GoesOn.reading_eq (h : GoesOn s rest s' rest') : s.reading rest = s'.reading rest' := by
  cases h with
  | seek | found => rfl
  | @blank pos ks c _ hc =>
      have hskip : Cursor.skipBlanks ⟨pos, c :: rest'⟩ =
          Cursor.skipBlanks ⟨pos + c.utf8Size, rest'⟩ := by
        simp [Cursor.skipBlanks, Cursor.skip, hc, Nat.add_assoc]
      change gather ks (Cursor.compounds _) = gather ks (Cursor.compounds _)
      rw [gather_compounds, gather_compounds, hskip]
  | @typed pos ks c tail hc =>
      have hstops : StopsBefore Text.isBlank (c :: tail) :=
        stopsBefore_cons.mpr (Text.isBlank_of_isNameChar hc)
      change gather ks (Cursor.compounds _) = follow ks (nameTests ..)
      rw [gather_compounds_of_stopsBefore hstops, if_neg (List.cons_ne_nil c tail),
        compound_eq_nameTests rfl hc]
  | @untyped pos ks c tail hname hblank =>
      change gather ks (Cursor.compounds _) = follow ks (Cursor.tests ..)
      rw [gather_compounds_of_stopsBefore (stopsBefore_cons.mpr hblank),
        if_neg (List.cons_ne_nil c tail), Cursor.compound,
        Cursor.name_of_stopsBefore (stopsBefore_cons.mpr hname)]
  | @letter pos ks k use start read c _ hc =>
      change follow ks (nameTests ..) = follow ks (nameTests ..)
      simp [nameTests, Cursor.skip, hc, Nat.add_assoc]
  | named hread hstops => exact congrArg (follow _) (nameTests_of_stopsBefore hread hstops)
  | mark kind => exact congrArg (follow _) (tests_eq_nameTests rfl)
  | close _ hblank => exact congrArg (follow _) (Cursor.tests_of_atBlank _ hblank)

theorem Finishes.reading_eq (h : Finishes s rest result) :
    s.reading rest = (result, ⟨s.pos, rest⟩) := by
  cases h with
  | ended => exact gather_compounds_of_stopsBefore stopsBefore_nil
  | unnamed hstops => exact congrArg (follow _) (nameTests_nil_of_stopsBefore hstops)
  | foreign hblank hmark => exact congrArg (follow _) (tests_of_foreign rfl hblank hmark)

end Stepwise
end StyleCascade
