import StyleCascade.Selector.Basic
import StyleCascade.Text.Quoted

/-!
# Reading selectors

A selector's text is a sequence of compounds parted by blanks. A compound is a type, or none,
and then tests for classes and pseudo-states in any order, each a mark with a name behind it:

    selector := compound (blank+ compound)*
    compound := name? ('.' name | ':' name)*

Names are put in lower case and repeated tests are dropped.

Every reader takes a cursor and gives back its result with the place where it stopped. That
place matters after an error too, since one may read on from there: behind a mark without a
name, but in front of a character that does not belong. Reading always moves forward;
`length_rest_compound_lt` is the progress that makes the sequence of compounds end.
-/

namespace StyleCascade

/-!
## A place in a text

A reader of selectors moves forward through its text. Where it stands is told by the characters
still ahead, and by the number of bytes behind, counted in UTF-8, which is what messages report.
Moving keeps the two in step: `skip` puts behind the longest run of a class of characters, and
adds its bytes.
-/

/-- The number of bytes of a run of characters in UTF-8. -/
def utf8Length (run : List Char) : Nat := run.foldr (fun c n => c.utf8Size + n) 0

@[simp] theorem utf8Length_nil : utf8Length [] = 0 := rfl

@[simp] theorem utf8Length_cons (c : Char) (run : List Char) :
    utf8Length (c :: run) = c.utf8Size + utf8Length run := rfl

@[simp] theorem utf8Length_append (before behind : List Char) :
    utf8Length (before ++ behind) = utf8Length before + utf8Length behind := by
  induction before with
  | nil => rw [List.nil_append, utf8Length_nil, Nat.zero_add]
  | cons c before ih => rw [List.cons_append, utf8Length_cons, utf8Length_cons, ih, Nat.add_assoc]

structure Cursor where
  /-- The number of bytes behind. -/
  pos : Nat
  /-- The characters ahead. -/
  rest : List Char

namespace Cursor

variable {c : Cursor} {p : Char → Bool}

def ofText (text : String) : Cursor := ⟨0, text.toList⟩

/-- The place behind the longest run of characters of a class. -/
def skip (p : Char → Bool) (c : Cursor) : Cursor :=
  ⟨c.pos + utf8Length (c.rest.takeWhile p), c.rest.dropWhile p⟩

@[simp] theorem pos_skip : (c.skip p).pos = c.pos + utf8Length (c.rest.takeWhile p) := rfl

@[simp] theorem rest_skip : (c.skip p).rest = c.rest.dropWhile p := rfl

theorem length_rest_skip_le : (c.skip p).rest.length ≤ c.rest.length :=
  (List.dropWhile_suffix p).length_le

def skipBlanks (c : Cursor) : Cursor := c.skip Text.isBlank

/-- Behind the blanks comes something else. -/
theorem isBlank_of_rest_skipBlanks {ch : Char} {rest : List Char}
    (h : c.skipBlanks.rest = ch :: rest) : Text.isBlank ch = false := by
  have hne : c.rest.dropWhile Text.isBlank ≠ [] := by
    intro hn
    rw [skipBlanks, rest_skip, hn] at h
    cases h
  have := List.head_dropWhile_not Text.isBlank hne
  simp only [skipBlanks, rest_skip] at h
  simpa [h] using this

end Cursor

/-! ## The readers -/

inductive ParseError where
  /-- There is no compound. -/
  | empty
  /-- A character that cannot stand at its place. -/
  | unexpectedChar (c : Char) (pos : Nat)
  /-- A mark without a name behind it. -/
  | expectedName (pos : Nat)
  deriving DecidableEq, Repr

def ParseError.message : ParseError → String
  | empty => "Empty selector"
  | unexpectedChar c pos => "Unexpected character " ++ Text.quoteChar c ++ " at " ++ pos.repr
  | expectedName pos => "Expected identifier at " ++ pos.repr

/-- What a reader gives back: a result or an error, and the place where it stopped. -/
abbrev Reading (α : Type) := Except ParseError α × Cursor

namespace Cursor

def name (c : Cursor) : Reading String :=
  let letters := c.rest.takeWhile Text.isNameChar
  if letters.isEmpty then (.error (.expectedName c.pos), c)
  else (.ok (String.ofList (letters.map Char.toLower)), c.skip Text.isNameChar)

/-- A name takes up at least one character. -/
theorem length_rest_name_lt {c next : Cursor} {n : String} (h : c.name = (.ok n, next)) :
    next.rest.length < c.rest.length := by
  unfold name at h
  dsimp only at h
  split at h
  · cases h
  next hne =>
    cases h
    rw [rest_skip]
    have hsum := congrArg List.length (List.takeWhile_append_dropWhile
      (p := Text.isNameChar) (l := c.rest))
    have hpos : 0 < (c.rest.takeWhile Text.isNameChar).length := by
      rw [List.length_pos_iff]
      simpa using hne
    rw [List.length_append] at hsum
    omega

/-- Read the tests of a compound up to a blank or the end, and add them. -/
def tests (compound : Compound) (c : Cursor) : Reading Compound :=
  match _hc : c.rest with
  | [] => (.ok compound, c)
  | ch :: rest =>
    if Text.isBlank ch then (.ok compound, c)
    else
      match TestKind.ofMark? ch with
      | none => (.error (.unexpectedChar ch c.pos), c)
      | some kind =>
        match _hn : name ⟨c.pos + ch.utf8Size, rest⟩ with
        | (.error e, stop) => (.error e, stop)
        | (.ok n, next) => tests (compound.add kind n) next
termination_by c.rest.length
decreasing_by
  have := length_rest_name_lt _hn
  simp only [_hc, List.length_cons]
  simp only at this
  omega

theorem length_rest_tests_le {k k' : Compound} {c next : Cursor}
    (h : tests k c = (.ok k', next)) : next.rest.length ≤ c.rest.length := by
  fun_induction tests k c with
  | case1 | case2 =>
    cases h
    exact Nat.le_refl _
  | case3 | case4 => cases h
  | case5 k c ch rest hc _ kind _ n next' hn ih =>
    have hlt := length_rest_name_lt hn
    have hle := ih h
    simp only [hc, List.length_cons]
    simp only at hlt
    omega

/-- In front of a character that is no blank the tests take up at least one character. -/
theorem length_rest_tests_lt {k k' : Compound} {c next : Cursor} {ch : Char} {rest : List Char}
    (hc : c.rest = ch :: rest) (hb : Text.isBlank ch = false)
    (h : tests k c = (.ok k', next)) : next.rest.length < c.rest.length := by
  unfold tests at h
  split at h
  next hnil => rw [hc] at hnil; cases hnil
  next ch' rest' hc' =>
    obtain ⟨rfl, rfl⟩ := List.cons.inj (hc.symm.trans hc')
    rw [hb] at h
    simp only [Bool.false_eq_true, if_false] at h
    split at h
    · cases h
    · split at h
      · cases h
      next n next' hn =>
        have hlt := length_rest_name_lt hn
        have hle := length_rest_tests_le h
        simp only [hc, List.length_cons]
        simp only at hlt
        omega

def compound (c : Cursor) : Reading Compound :=
  match c.name with
  | (.ok n, next) => tests { typeName := some n } next
  | (.error _, _) => tests .empty c

/-- In front of a character that is no blank a compound takes up at least one character. -/
theorem length_rest_compound_lt {k : Compound} {c next : Cursor} {ch : Char} {rest : List Char}
    (hc : c.rest = ch :: rest) (hb : Text.isBlank ch = false)
    (h : c.compound = (.ok k, next)) : next.rest.length < c.rest.length := by
  unfold compound at h
  split at h
  next n next' hn => exact Nat.lt_of_le_of_lt (length_rest_tests_le h) (length_rest_name_lt hn)
  · exact length_rest_tests_lt hc hb h

/-- Read compounds up to the end. -/
def compounds (c : Cursor) : Reading (List Compound) :=
  match _hc : c.skipBlanks.rest with
  | [] => (.ok [], c.skipBlanks)
  | _ :: _ =>
    match _hk : c.skipBlanks.compound with
    | (.error e, stop) => (.error e, stop)
    | (.ok first, next) =>
      match compounds next with
      | (.error e, stop) => (.error e, stop)
      | (.ok others, stop) => (.ok (first :: others), stop)
termination_by c.rest.length
decreasing_by
  have hlt := length_rest_compound_lt _hc (isBlank_of_rest_skipBlanks _hc) _hk
  exact Nat.lt_of_lt_of_le hlt length_rest_skip_le

def selector (c : Cursor) : Reading Selector :=
  match c.compounds with
  | (.error e, stop) => (.error e, stop)
  | (.ok [], stop) => (.error .empty, stop)
  | (.ok (k :: ks), stop) => (.ok ⟨k :: ks⟩, stop)

/-- The results of reading selectors one after the other, each from where the last one
stopped. -/
def selectors : Nat → Cursor → List (Except ParseError Selector)
  | 0, _ => []
  | count + 1, c => c.selector.1 :: selectors count c.selector.2

end Cursor

/-- The selector that a text describes. -/
def Selector.parse (text : String) : Except ParseError Selector := (Cursor.ofText text).selector.1

end StyleCascade
