import Mathlib.Logic.Relation
import StyleCascade.Proofs.Selector.Resuming
import StyleCascade.Proofs.Selector.Stepwise

/-!
# Reading goes forward

Each step of a reading passes a character or goes to the next point. There are points that can be
left without passing a character, but not all around: a compound begins in front of a character that
is no blank, and ends in front of a blank or at the end of the text. So a number can be given to a
state that only grows (`State.progress`). It tells that a reading ends, and that it does not come
by a point twice at the same place.

A reader is asked for one selector after the other, each time from the place where it was left, also
behind an error. Every state that is reached in this way is at a place in the text, so no reading
breaks off, and each one ends (`reading_advances`).
-/

namespace StyleCascade
namespace Stepwise

variable {text : String} {s s' : State} {rest rest' : List Char}
variable {result : Except ParseError Selector} {pos steps : Nat}

/-- The points in the order in which a compound goes through them. -/
def Point.number : Point → Nat
  | .chain => 0
  | .blanks => 1
  | .opening => 2
  | .letters .. => 3
  | .tests _ => 4

/-- The points are on a circle. It is cut between two points where a step passes a character: in
front of a blank and at the end of the text these are others than elsewhere. -/
def Point.rank (point : Point) (rest : List Char) : Nat :=
  if rest.head?.all Text.isBlank then (point.number + 2) % 5 else point.number

/-- How far a reading has come. -/
def State.progress (s : State) (rest : List Char) : Nat := 5 * s.pos + s.point.rank rest

theorem Point.rank_lt (point : Point) (rest : List Char) : point.rank rest < 5 := by
  rw [rank]
  split
  · omega
  · cases point <;> simp [number]

/-- To pass a character is worth more than any point. -/
theorem progress_lt_of_pass {c : Char} (h : s'.pos = s.pos + c.utf8Size) :
    s.progress rest < s'.progress rest' := by
  have hsize := c.utf8Size_pos
  have hrank := s.point.rank_lt rest
  simp only [State.progress, h]
  omega

theorem GoesOn.progress_lt (h : GoesOn s rest s' rest') : s.progress rest < s'.progress rest' := by
  cases h with
  | blank | letter | mark => exact progress_lt_of_pass rfl
  | seek | named =>
      simp only [State.progress, Point.rank, Point.number]
      split <;> omega
  | found hstops =>
      cases rest with
      | nil => simp [State.progress, Point.rank, Point.number]
      | cons c rest => simp [State.progress, Point.rank, Point.number, stopsBefore_cons.mp hstops]
  | typed hc =>
      simp [State.progress, Point.rank, Point.number, Text.isBlank_of_isNameChar hc]
  | untyped _ hc => simp [State.progress, Point.rank, Point.number, hc]
  | close _ hblank =>
      cases rest with
      | nil => simp [State.progress, Point.rank, Point.number]
      | cons c rest => simp [State.progress, Point.rank, Point.number, atBlank_cons.mp hblank]

theorem GoesOn.pos_le (h : GoesOn s rest s' rest') : s.pos ≤ s'.pos := by
  obtain ⟨run, hrun⟩ := h.passes
  exact (Nat.le_add_right s.pos _).trans_eq hrun.pos_eq.symm

theorem Stands.pos_le (h : Stands text s rest) : s.pos ≤ text.utf8ByteSize := by
  rw [h.utf8ByteSize_eq]
  exact Nat.le_add_right s.pos _

theorem Stands.isValid (h : Stands text s rest) : (⟨s.pos⟩ : String.Pos.Raw).IsValid text := by
  obtain ⟨front, htext, hpos⟩ := h.exists_append
  rw [hpos]
  exact isValid_utf8Length htext

theorem Stands.step_ne_fault (h : Stands text s rest) (fault : Fault) :
    step text s ≠ .fault fault := by
  intro hfault
  have hproceeds := h.proceeds_step
  rw [hfault] at hproceeds
  cases hproceeds

theorem Stands.progress_lt (h : Stands text s rest) :
    s.progress rest < 5 * text.utf8ByteSize + 5 := by
  have hpos := h.pos_le
  have hrank := s.point.rank_lt rest
  simp only [State.progress]
  omega

/-! ### The end of a reading -/

/-- A number of steps leads from a state to a result and to the place where it is given. -/
inductive Ends (text : String) : State → Nat → Except ParseError Selector → Nat → Prop where
  | finish {s : State} {result : Except ParseError Selector} : step text s = .finish result →
      Ends text s 1 result s.pos
  | goOn {s s' : State} {steps pos : Nat} {result : Except ParseError Selector} :
      step text s = .goOn s' → Ends text s' steps result pos → Ends text s (steps + 1) result pos

/-- From a place in the text a reading ends, with what the readers find from there on. -/
theorem Stands.ends (h : Stands text s rest) :
    ∃ steps, s.progress rest + steps ≤ 5 * text.utf8ByteSize + 5 ∧
      Ends text s steps (s.reading rest).1 (s.reading rest).2.pos := by
  induction hleft : 5 * text.utf8ByteSize + 5 - s.progress rest using Nat.strong_induction_on
    generalizing s rest with
  | _ left ih =>
    have hlt := h.progress_lt
    have hstep := h.proceeds_step
    generalize houtcome : step text s = outcome at hstep
    cases hstep with
    | finish hfinish =>
        rw [hfinish.reading_eq]
        exact ⟨1, by omega, .finish houtcome⟩
    | @goOn s' rest' hgoes =>
        have hnext := h.goesOn hgoes
        have hmore := hgoes.progress_lt
        have hlt' := hnext.progress_lt
        obtain ⟨steps, hle, hends⟩ := ih _ (by omega) hnext rfl
        rw [hgoes.reading_eq]
        exact ⟨steps + 1, by omega, .goOn houtcome hends⟩

/-! ### One reading after the other -/

/-- A state, with the number of readings that came before. -/
structure Moment where
  readings : Nat
  state : State

/-- A reader takes a step, or is asked for another selector where the last reading has ended. -/
inductive Next (text : String) : Moment → Moment → Prop where
  | goOn {n : Nat} {s s' : State} : step text s = .goOn s' → Next text ⟨n, s⟩ ⟨n, s'⟩
  | again {n : Nat} {s : State} {result : Except ParseError Selector} :
      step text s = .finish result → Next text ⟨n, s⟩ ⟨n + 1, .start s.pos⟩

def Later (text : String) : Moment → Moment → Prop := Relation.TransGen (Next text)

/-- The moments that a new reader comes to. -/
def Reached (text : String) : Moment → Prop := Relation.ReflTransGen (Next text) ⟨0, .start 0⟩

/-- A moment is at a place in the text, and the readers find from there on what they find after as
many readings. -/
structure Moment.Sound (text : String) (m : Moment) (rest : List Char) : Prop where
  stands : Stands text m.state rest
  reading_eq : m.state.reading rest = ((Cursor.ofText text).after m.readings).selector

/-- One moment is further on than another one. -/
structure Moment.Further (m : Moment) (rest : List Char) (m' : Moment) (rest' : List Char) :
    Prop where
  readings_le : m.readings ≤ m'.readings
  pos_le : m.state.pos ≤ m'.state.pos
  progress_lt : m'.readings = m.readings → m.state.progress rest < m'.state.progress rest'

variable {m m' m'' : Moment} {rest'' : List Char}

theorem Moment.Further.trans (h : m.Further rest m' rest') (h' : m'.Further rest' m'' rest'') :
    m.Further rest m'' rest'' where
  readings_le := h.readings_le.trans h'.readings_le
  pos_le := h.pos_le.trans h'.pos_le
  progress_lt heq := by
    have hle := h.readings_le
    have hle' := h'.readings_le
    exact (h.progress_lt (by omega)).trans (h'.progress_lt (by omega))

theorem Moment.sound_start {n : Nat} (h : Stands text s rest)
    (hafter : (Cursor.ofText text).after n = ⟨s.pos, rest⟩) :
    Sound text ⟨n, .start s.pos⟩ rest where
  stands := ⟨h.passed, trivial⟩
  reading_eq := by
    rw [hafter]
    exact reading_start ⟨s.pos, rest⟩

/-- A sound moment is followed by another one, which is further on. -/
theorem Next.exists_sound (h : Next text m m') (hm : m.Sound text rest) :
    ∃ rest', m'.Sound text rest' ∧ m.Further rest m' rest' := by
  obtain ⟨hstands, hreading⟩ := hm
  have hproceeds := hstands.proceeds_step
  cases h with
  | goOn hstep =>
      rw [hstep] at hproceeds
      cases hproceeds with
      | @goOn _ rest' hgoes =>
          exact ⟨rest', ⟨hstands.goesOn hgoes, hgoes.reading_eq.symm.trans hreading⟩,
            ⟨Nat.le_refl _, hgoes.pos_le, fun _ => hgoes.progress_lt⟩⟩
  | @again n s _ hstep =>
      rw [hstep] at hproceeds
      cases hproceeds with
      | finish hfinish =>
          have hafter : (Cursor.ofText text).after (n + 1) = ⟨s.pos, rest⟩ := by
            rw [Cursor.after_succ, ← hreading, hfinish.reading_eq]
          refine ⟨rest, Moment.sound_start hstands hafter, Nat.le_succ n, Nat.le_refl _, ?_⟩
          exact fun heq => absurd heq (Nat.succ_ne_self n)

theorem Reached.exists_sound (h : Reached text m) : ∃ rest, m.Sound text rest := by
  induction h with
  | refl =>
      have hstands : Stands text (.start 0) text.toList := ⟨⟨[], .refl _⟩, trivial⟩
      exact ⟨text.toList, Moment.sound_start hstands rfl⟩
  | tail _ hnext ih =>
      obtain ⟨rest, hm⟩ := ih
      obtain ⟨rest', hm', -⟩ := hnext.exists_sound hm
      exact ⟨rest', hm'⟩

theorem Later.exists_sound (h : Later text m m') (hm : m.Sound text rest) :
    ∃ rest', m'.Sound text rest' ∧ m.Further rest m' rest' := by
  induction h with
  | single hnext => exact hnext.exists_sound hm
  | tail _ hnext ih =>
      obtain ⟨rest', hm', hfurther⟩ := ih
      obtain ⟨rest'', hm'', hfurther'⟩ := hnext.exists_sound hm'
      exact ⟨rest'', hm'', hfurther.trans hfurther'⟩

/-- Between two visits to a point in the same reading some character is passed. -/
theorem Later.pos_lt (h : Later text m m') (hm : m.Sound text rest)
    (hreading : m'.readings = m.readings)
    (hpoint : m'.state.point.number = m.state.point.number) : m.state.pos < m'.state.pos := by
  obtain ⟨rest', hm', hfurther⟩ := h.exists_sound hm
  apply hfurther.pos_le.lt_of_ne
  intro heq
  -- At the same place the same is ahead, and then there would be no progress.
  obtain ⟨front, hfront⟩ := hm.stands.passed
  obtain ⟨front', hfront'⟩ := hm'.stands.passed
  obtain rfl : rest = rest' := congrArg Cursor.rest (hfront.eq_of_pos_eq hfront' heq)
  have hprogress := hfurther.progress_lt hreading
  simp only [State.progress, Point.rank, hpoint, heq] at hprogress
  omega

theorem Moment.Sound.ends (h : m.Sound text rest) :
    ∃ steps ≤ 5 * (text.utf8ByteSize - m.state.pos) + 5,
      Ends text m.state steps ((Cursor.ofText text).reading m.readings)
        ((Cursor.ofText text).after (m.readings + 1)).pos := by
  obtain ⟨steps, hle, hends⟩ := h.stands.ends
  refine ⟨steps, ?_, ?_⟩
  · have hpos := h.stands.pos_le
    simp only [State.progress] at hle
    omega
  · rw [Cursor.reading, Cursor.after_succ, ← h.reading_eq]
    exact hends

/-- Where a reading ends the next one can begin. -/
theorem Ends.reached_start {n : Nat} (h : Ends text s steps result pos)
    (hs : Reached text ⟨n, s⟩) : Reached text ⟨n + 1, .start pos⟩ := by
  induction h with
  | finish hstep => exact hs.tail (.again hstep)
  | goOn hstep _ ih => exact ih (hs.tail (.goOn hstep))

theorem reached_start (text : String) (n : Nat) :
    Reached text ⟨n, .start ((Cursor.ofText text).after n).pos⟩ := by
  induction n with
  | zero => exact .refl
  | succ n ih =>
      obtain ⟨rest, hsound⟩ := ih.exists_sound
      obtain ⟨steps, -, hends⟩ := hsound.ends
      exact hends.reached_start ih

/-- A reader can be asked for a selector any number of times, and never breaks off. Whenever it is
looked at, the number of bytes behind it ends at the beginning of a character or at the end of the
text, and its next step is no fault. The number never becomes smaller, and it has become greater
whenever one of the points is come to again in the same reading, so each turn of a loop that is
followed by another one has passed something. A reading ends, after a number of steps that is
bounded by the bytes ahead, with the result and at the place that the readers of `Cursor` come
to. -/
theorem reading_advances (text : String) :
    (∀ n, Reached text ⟨n, .start ((Cursor.ofText text).after n).pos⟩) ∧
    ∀ m, Reached text m →
      m.state.pos ≤ text.utf8ByteSize ∧ (⟨m.state.pos⟩ : String.Pos.Raw).IsValid text ∧
      (∀ fault, step text m.state ≠ .fault fault) ∧
      (∀ m', Later text m m' → m.state.pos ≤ m'.state.pos ∧
        (m'.readings = m.readings → m'.state.point.number = m.state.point.number →
          m.state.pos < m'.state.pos)) ∧
      ∃ steps ≤ 5 * (text.utf8ByteSize - m.state.pos) + 5,
        Ends text m.state steps ((Cursor.ofText text).reading m.readings)
          ((Cursor.ofText text).after (m.readings + 1)).pos := by
  refine ⟨reached_start text, fun m h => ?_⟩
  obtain ⟨rest, hm⟩ := h.exists_sound
  refine ⟨hm.stands.pos_le, hm.stands.isValid, hm.stands.step_ne_fault, fun m' hlater => ?_,
    hm.ends⟩
  obtain ⟨rest', -, hfurther⟩ := hlater.exists_sound hm
  exact ⟨hfurther.pos_le, hlater.pos_lt hm⟩

/-- A name is missing behind the second letter, which takes up two bytes like the first one. The
next reading begins there, and reads the rest. -/
theorem reading_advances_behind_error :
    Reached "éß. ü" ⟨1, .start 5⟩ ∧ ∃ steps ≤ 5 * 3 + 5,
      Ends "éß. ü" (.start 5) steps (.ok ⟨[{ typeName := some "ü" }]⟩) 8 := by
  obtain ⟨starts, moments⟩ := reading_advances "éß. ü"
  have hpos : ((Cursor.ofText "éß. ü").after 1).pos = 5 := by decide +kernel
  have hreading : (Cursor.ofText "éß. ü").reading 1 = .ok ⟨[{ typeName := some "ü" }]⟩ := by
    decide +kernel
  have hend : ((Cursor.ofText "éß. ü").after 2).pos = 8 := by decide +kernel
  have reached := starts 1
  rw [hpos] at reached
  obtain ⟨-, -, -, -, steps, hle, hends⟩ := moments _ reached
  rw [hreading, hend] at hends
  exact ⟨reached, steps, hle, hends⟩

end Stepwise
end StyleCascade
