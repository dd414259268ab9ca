import StyleCascade.Proofs.Stylesheet.Inheritance

/-!
# Styles slot by slot

Whatever is done to a style is done to the slot of each property on its own. With that in hand a
style is followed through the steps of its making, and the laws of layering are those of a choice
between two optional values.
-/

namespace StyleCascade.Style

/-!
## The history of a style

A style comes from the empty one by steps: properties are declared and unset, other styles are laid
over it, and what it misses is taken over from others. Every step acts on each property on its own
(`Step.settle`). So what a property comes to is found from the steps alone, without the styles in
between (`get_run`).
-/

/-- A step in the making of a style. A style is a value, so a copy of it is the style itself, and to
merge two styles is to lay the second one over the first. -/
inductive Step where
  /-- Declare a property, and leave a mismatch to the log. -/
  | set (p : Property) (v : Value)
  /-- Declare a property, and be told of a mismatch. -/
  | set? (p : Property) (v : Value)
  /-- Unset a property. -/
  | erase (p : Property)
  | overlay (top : Style)
  | inherit (parent : Style)

/-- What a step makes of the slot of a property. -/
def Step.settle (p : Property) (slot : Option Value) : Step → Option Value
  | .set q v | .set? q v => if q = p ∧ v.kind = q.kind then some v else slot
  | .erase q => if q = p then none else slot
  | .overlay top => (top.get p).or slot
  | .inherit parent => slot.or (if p.isInherited then parent.get p else none)

/-- The style after a step; a declaration that is refused changes nothing. -/
def take (s : Style) : Step → Style
  | .set p v => (s.set p v).value
  | .set? p v => (s.set? p v).toOption.getD s
  | .erase p => s.erase p
  | .overlay top => s.overlay top
  | .inherit parent => s.inherit parent

/-- The style that a number of steps make, from the empty style on. -/
def run (steps : List Step) : Style := steps.foldl take empty

/-- What a number of steps make of the slot of a property. -/
def outcome (steps : List Step) (p : Property) : Option Value := steps.foldl (Step.settle p) none

theorem value_set (s : Style) (p : Property) (v : Value) :
    (s.set p v).value = (s.set? p v).toOption.getD s := by
  rw [set]
  cases s.set? p v <;> rfl

theorem get_getD_set? (s : Style) (p : Property) (v : Value) (q : Property) :
    ((s.set? p v).toOption.getD s).get q =
      if p = q ∧ v.kind = p.kind then some v else s.get q := by
  rw [set?]
  by_cases fits : v.kind = p.kind
  · simp only [fits, and_true]
    exact get_put s p (some v) q
  · rw [if_neg fits, if_neg fun h => fits h.2]
    rfl

theorem get_take (s : Style) (step : Step) (p : Property) :
    (s.take step).get p = step.settle p (s.get p) := by
  cases step with
  | set q v => exact (congrArg (get · p) (value_set s q v)).trans (get_getD_set? s q v p)
  | set? q v => exact get_getD_set? s q v p
  | erase q => exact get_erase s q p
  | overlay top => exact get_overlay s top p
  | inherit parent => exact get_inherit s parent p

theorem get_foldl_take (s : Style) (steps : List Step) (p : Property) :
    (steps.foldl take s).get p = steps.foldl (Step.settle p) (s.get p) := by
  induction steps generalizing s with
  | nil => rfl
  | cons step steps ih => rw [List.foldl_cons, ih, get_take, List.foldl_cons]

/-- What a property comes to is decided by what the steps do to this property. -/
theorem get_run (steps : List Step) (p : Property) : (run steps).get p = outcome steps p := by
  rw [run, get_foldl_take, get_empty, outcome]

end StyleCascade.Style

namespace StyleCascade

/-!
## The laws of layering

Laying a style over another one and taking over from a parent are both choices, made for each
property on its own, between two optional values: the one prefers what comes in, the other what is
there and leaves most properties alone. From this come the laws of the two and of their mixture.

Neither has to be computed for all properties at once. Laying over amounts to a pass over the
declarations of the upper style, taking over to a pass over the inherited properties
(`overlay_eq_foldl`, `inherit_eq_foldl`). Both passes are loops that settle one slot after the
other, and `get_foldl_of_slotwise` says what such a loop does.
-/

namespace Style

variable {a b : Style}

/-! ### Layers -/

theorem overlay_assoc (a b c : Style) : (a.overlay b).overlay c = a.overlay (b.overlay c) := by
  ext1 p
  simp only [get_overlay, Option.or_assoc]

theorem empty_overlay (a : Style) : empty.overlay a = a := by
  ext1 p
  rw [get_overlay, get_empty, Option.or_none]

theorem overlay_empty (a : Style) : a.overlay empty = a := by
  ext1 p
  rw [get_overlay, get_empty, Option.none_or]

theorem overlay_self (a : Style) : a.overlay a = a := by
  ext1 p
  rw [get_overlay, Option.or_self]

/-! ### Parents -/

theorem inherit_assoc (a b c : Style) : a.inherit (b.inherit c) = (a.inherit b).inherit c := by
  ext1 p
  rw [get_inherit, get_inherit, get_inherit, get_inherit, Option.or_assoc]
  congr 1
  -- For a property that is not inherited, all that could be taken over is `none`.
  split <;> rfl

theorem inherit_self (a : Style) : a.inherit a = a := by
  ext1 p
  rw [get_inherit]
  split
  · rw [Option.or_self]
  · rw [Option.or_none]

/-- What has been taken over once is not taken over again. -/
theorem inherit_inherit_self (a b : Style) : (a.inherit b).inherit b = a.inherit b := by
  rw [← inherit_assoc, inherit_self]

/-- The styles that miss no inherited property are those that no parent can add to. -/
theorem missesInherited_eq_false_iff_inherit :
    a.missesInherited = false ↔ ∀ parent, a.inherit parent = a := by
  refine ⟨inherit_of_missesInherited, fun h => missesInherited_eq_false.mpr fun p hp => ?_⟩
  -- A parent that declares everything would supply `p`.
  let full : Style := ofGet fun _ => some (.keyword "")
  have supplied : (a.inherit full).get p = a.get p := by rw [h full]
  rw [get_inherit, if_pos hp, get_ofGet] at supplied
  rw [← supplied, Option.isSome_or, Option.isSome_some, Bool.or_true]

/-! ### Layers over parents -/

/-- A layer can be laid over before or after something is taken over from a parent. -/
theorem overlay_inherit (a b c : Style) :
    (a.overlay b).inherit c = (a.inherit c).overlay b := by
  ext1 p
  simp only [get_inherit, get_overlay, Option.or_assoc]

/-! ### One slot after the other -/

/-- If a step over a property settles the slot of this property, from what is in it, and a second
step would change nothing, then a loop settles the slots of all properties that it meets. -/
theorem get_foldl_of_slotwise {step : Style → Property → Style}
    (settle : Property → Option Value → Option Value)
    (slotwise : ∀ s p q, (step s p).get q = if p = q then settle q (s.get q) else s.get q)
    (stable : ∀ q v, settle q (settle q v) = settle q v)
    (ps : List Property) (s : Style) (q : Property) :
    (ps.foldl step s).get q = if q ∈ ps then settle q (s.get q) else s.get q := by
  induction ps generalizing s with
  | nil => rw [List.foldl_nil, if_neg List.not_mem_nil]
  | cons p ps ih =>
      rw [List.foldl_cons, ih, slotwise]
      by_cases hp : p = q
      · have hq : q ∈ p :: ps := List.mem_cons.mpr (.inl hp.symm)
        simp only [if_pos hp, stable, ite_self, if_pos hq]
      · simp only [if_neg hp, List.mem_cons, or_iff_right (Ne.symm hp)]

/-- Make a declaration, whatever is there. -/
def declare (s : Style) (entry : Property × Value) : Style := s.put entry.1 (some entry.2)

def takeOver (parent s : Style) (p : Property) : Style :=
  if s.contains p then s
  else
    match parent.get p with
    | some v => s.declare (p, v)
    | none => s

theorem get_takeOver (parent s : Style) (p q : Property) :
    (takeOver parent s p).get q = if p = q then (s.get q).or (parent.get q) else s.get q := by
  rw [takeOver, contains]
  by_cases hpq : p = q
  · subst hpq
    rw [if_pos rfl]
    cases hs : s.get p with
    | some v => exact hs
    | none =>
        cases hv : parent.get p with
        | some v => exact (get_put s p _ p).trans (if_pos rfl)
        | none => exact hs
  · rw [if_neg hpq]
    split
    · rfl
    · cases parent.get p with
      | some v => exact (get_put s p _ q).trans (if_neg hpq)
      | none => rfl

/-- Laying over makes the declarations of the upper style, one after the other. -/
theorem overlay_eq_foldl (a b : Style) : a.overlay b = b.entries.foldl declare a := by
  ext1 q
  rw [entries, List.foldl_filterMap,
    get_foldl_of_slotwise (fun p v => (b.get p).or v) ?_ ?_, if_pos q.mem_all, get_overlay]
  · intro s p q
    by_cases hpq : p = q
    · subst hpq
      rw [if_pos rfl]
      cases b.get p with
      | some v => exact (get_put s p _ p).trans (if_pos rfl)
      | none => rfl
    · rw [if_neg hpq]
      cases b.get p with
      | some v => exact (get_put s p _ q).trans (if_neg hpq)
      | none => rfl
  · intro p v
    rw [← Option.or_assoc, Option.or_self]

/-- Taking over goes through the inherited properties, one after the other. -/
theorem inherit_eq_foldl (a b : Style) :
    a.inherit b = Property.inherited.foldl (takeOver b) a := by
  ext1 q
  rw [get_foldl_of_slotwise (fun p v => v.or (b.get p)) (get_takeOver b) ?_, get_inherit]
  · simp only [Property.mem_inherited]
    split
    · rfl
    · rw [Option.or_none]
  · intro p v
    rw [Option.or_assoc, Option.or_self]

/-- The algebra of styles. Laying over is associative and idempotent, and the empty style is neutral
on both sides. Taking over from a parent is associative; it adds nothing the second time, and
nothing from any parent just if no inherited property is missing. The two commute. Styles are
compared as tables, not up to an equality of values. That `overlay` and `inherit` are the results of
their loops, one over the declarations of the upper style and one over the inherited properties,
comes last. -/
theorem layering_laws (a b c : Style) :
    ((a.overlay b).overlay c = a.overlay (b.overlay c) ∧
      empty.overlay a = a ∧ a.overlay empty = a ∧ a.overlay a = a) ∧
    (a.inherit (b.inherit c) = (a.inherit b).inherit c ∧
      (a.inherit b).inherit b = a.inherit b ∧
      (a.missesInherited = false ↔ ∀ parent, a.inherit parent = a)) ∧
    (a.overlay b).inherit c = (a.inherit c).overlay b ∧
    a.overlay b = b.entries.foldl declare a ∧
    a.inherit b = Property.inherited.foldl (takeOver b) a :=
  ⟨⟨overlay_assoc a b c, empty_overlay a, overlay_empty a, overlay_self a⟩,
    ⟨inherit_assoc a b c, inherit_inherit_self a b, missesInherited_eq_false_iff_inherit⟩,
    overlay_inherit a b c, overlay_eq_foldl a b, inherit_eq_foldl a b⟩

end Style
end StyleCascade
