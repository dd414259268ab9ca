import Mathlib.Data.List.Forall2
import StyleCascade.Proofs.Style.Layering

/-!
# Equality of styles

Styles are compared by their declarations. Two tables are equal if they have the same properties in
them, and equal values for each (`beq_iff_forall₂_entries`). What the comparison of values lacks to
be an equality is due to numbers alone: a number that is not a number equals nothing, itself
included, and the two zeros are equal without being the same.

So equality is symmetric and transitive, and a style equals itself just if every number in it is
one. It goes property by property, and so do the operations that combine styles, so equals may be
put for equals in them (`overlay_beq_overlay`, `inherit_beq_inherit`).
-/

namespace StyleCascade

/-! ### Values -/

/-- Zeros are equal to zeros only, and all other numbers to those with the same bits. -/
theorem Single.isZero_eq_of_beq {x y : Single} (h : (x == y) = true) : x.isZero = y.isZero := by
  obtain ⟨-, -, same | ⟨hx, hy⟩⟩ := Single.beq_iff.mp h
  · simp only [isZero, biasedExponent, fraction, same]
  · rw [hx, hy]

instance : PartialEquivBEq Single where
  symm {x y} h := by
    obtain ⟨hx, hy, same⟩ := Single.beq_iff.mp h
    exact Single.beq_iff.mpr ⟨hy, hx, same.imp Eq.symm And.symm⟩
  trans {x y z} h h' := by
    have hzero := Single.isZero_eq_of_beq h
    have hzero' := Single.isZero_eq_of_beq h'
    obtain ⟨hx, -, same⟩ := Single.beq_iff.mp h
    obtain ⟨-, hz, same'⟩ := Single.beq_iff.mp h'
    refine Single.beq_iff.mpr ⟨hx, hz, ?_⟩
    rcases same, same' with ⟨same | zeros, same' | zeros'⟩
    · exact .inl (same.trans same')
    · exact .inr ⟨hzero.trans zeros'.1, zeros'.2⟩
    · exact .inr ⟨zeros.1, hzero'.symm.trans zeros.2⟩
    · exact .inr ⟨zeros.1, zeros'.2⟩

namespace Value

variable {v w : Value}

/-- Values are equal as numbers are, or by being the same. -/
theorem beq_iff : (v == w) = true ↔
    (∃ x y, v = .number x ∧ w = .number y ∧ (x == y) = true) ∨ v.kind ≠ .number ∧ v = w := by
  cases v <;> cases w <;> simp [kind]

/-- Values that are not both numbers are equal only if they are the same. -/
theorem beq_iff_eq_of_kind (h : v.kind ≠ .number ∨ w.kind ≠ .number) :
    (v == w) = true ↔ v = w := by
  rw [beq_iff]
  constructor
  · rintro (⟨x, y, rfl, rfl, -⟩ | ⟨-, same⟩)
    · simp [kind] at h
    · exact same
  · rintro rfl
    exact .inr ⟨h.elim id id, rfl⟩

/-- A value equals itself, unless it is a number that is not one. -/
theorem beq_self_iff (v : Value) : (v == v) = true ↔ ∀ x, v = .number x → x.isNaN = false := by
  cases v with
  | number x =>
      rw [beq_number, Single.beq_iff]
      constructor
      · rintro ⟨hx, -, -⟩ _ ⟨⟩
        exact hx
      · intro h
        exact ⟨h x rfl, h x rfl, .inl rfl⟩
  | color | integer | string | keyword => simp

instance : PartialEquivBEq Value where
  symm h := by
    rcases beq_iff.mp h with ⟨x, y, rfl, rfl, hxy⟩ | ⟨hkind, rfl⟩
    · exact beq_iff.mpr (.inl ⟨y, x, rfl, rfl, BEq.symm hxy⟩)
    · exact h
  trans h h' := by
    rcases beq_iff.mp h with ⟨x, y, rfl, rfl, hxy⟩ | ⟨-, rfl⟩
    · rcases beq_iff.mp h' with ⟨_, z, ⟨⟩, rfl, hyz⟩ | ⟨hkind, -⟩
      · exact beq_iff.mpr (.inl ⟨x, z, rfl, rfl, BEq.trans hxy hyz⟩)
      · exact absurd rfl hkind
    · exact h'

end Value

/-! ### Slots -/

section Slots

variable {a b c d : Option Value}

theorem beq_slot_iff : (a == b) = true ↔
    a.isSome = b.isSome ∧ ∀ v w, a = some v → b = some w → (v == w) = true := by
  cases a <;> cases b <;> simp

instance : PartialEquivBEq (Option Value) where
  symm {a b} h := by
    obtain ⟨filled, equal⟩ := beq_slot_iff.mp h
    exact beq_slot_iff.mpr ⟨filled.symm, fun v w hv hw => BEq.symm (equal w v hw hv)⟩
  trans {a b c} h h' := by
    cases a <;> cases b <;> cases c <;> simp at h h' ⊢
    exact BEq.trans h h'

/-- Between two slots the choice is the same if each is given an equal one. -/
theorem or_beq_or (h : (a == b) = true) (h' : (c == d) = true) : (a.or c == b.or d) = true := by
  cases a <;> cases b <;> simp at h ⊢
  · exact h'
  · exact h

end Slots

namespace Style

variable {a b c d : Style} {p : Property}

/-! ### Tables -/

instance : PartialEquivBEq Style where
  symm h := beq_iff.mpr fun p => BEq.symm (beq_iff.mp h p)
  trans h h' := beq_iff.mpr fun p => BEq.trans (beq_iff.mp h p) (beq_iff.mp h' p)

theorem beq_self_iff (a : Style) :
    (a == a) = true ↔ ∀ p x, a.get p = some (.number x) → x.isNaN = false := by
  have slot : ∀ p, (a.get p == a.get p) = true ↔
      ∀ x, a.get p = some (.number x) → x.isNaN = false := by
    intro p
    cases a.get p with
    | none => simp
    | some v => simp [Value.beq_self_iff]
  simp only [beq_iff, slot]

/-- Tables are equal if they have the same properties in them and equal values for each. -/
theorem beq_iff_contains : (a == b) = true ↔ (∀ p, a.contains p = b.contains p) ∧
    ∀ p v w, a.get p = some v → b.get p = some w → (v == w) = true := by
  simp only [beq_iff, beq_slot_iff, contains, forall_and]

/-- Two declarations of the same property, with equal values. -/
def SameEntry (e e' : Property × Value) : Prop := e.1 = e'.1 ∧ (e.2 == e'.2) = true

/-- The declarations of the listed properties, in the order of the list. -/
def listed (f : Property → Option Value) (ps : List Property) : List (Property × Value) :=
  ps.filterMap fun p => (f p).map fun v => (p, v)

theorem fst_mem_of_mem_listed {f : Property → Option Value} {ps : List Property}
    {e : Property × Value} (h : e ∈ listed f ps) : e.1 ∈ ps := by
  obtain ⟨q, hq, hslot⟩ := List.mem_filterMap.mp h
  obtain ⟨v, -, rfl⟩ := Option.map_eq_some_iff.mp hslot
  exact hq

/-- Declarations that are listed in one order are compared pair by pair. No property is listed
twice, so a declaration that the other side lacks meets that of another property. -/
theorem forall₂_listed_iff {f g : Property → Option Value} {ps : List Property}
    (hnodup : ps.Nodup) : List.Forall₂ SameEntry (listed f ps) (listed g ps) ↔
      ∀ p ∈ ps, (f p == g p) = true := by
  induction ps with
  | nil => simp [listed]
  | cons p ps ih =>
      obtain ⟨hp, hnodup⟩ := List.nodup_cons.mp hnodup
      have absent : ∀ (h : Property → Option Value), ∀ e ∈ listed h ps, e.1 ≠ p :=
        fun h e he heq => hp (heq ▸ fst_mem_of_mem_listed he)
      have present : ∀ (h : Property → Option Value) {v : Value}, h p = some v →
          listed h (p :: ps) = (p, v) :: listed h ps :=
        fun h v hv => List.filterMap_cons_some (by rw [hv]; rfl)
      have passed : ∀ (h : Property → Option Value), h p = none →
          listed h (p :: ps) = listed h ps :=
        fun h hnone => List.filterMap_cons_none (by rw [hnone]; rfl)
      rw [List.forall_mem_cons, ← ih hnodup]
      cases hf : f p with
      | none =>
          cases hg : g p with
          | none => simp [passed f hf, passed g hg]
          | some w =>
              rw [passed f hf, present g hg, List.forall₂_cons_right_iff]
              refine iff_of_false ?_ (by simp)
              rintro ⟨e, rest, ⟨hkey, -⟩, -, hrest⟩
              exact absent f e (hrest ▸ List.mem_cons_self) hkey
      | some v =>
          cases hg : g p with
          | none =>
              rw [present f hf, passed g hg, List.forall₂_cons_left_iff]
              refine iff_of_false ?_ (by simp)
              rintro ⟨e, rest, ⟨hkey, -⟩, -, hrest⟩
              exact absent g e (hrest ▸ List.mem_cons_self) hkey.symm
          | some w => simp [present f hf, present g hg, SameEntry]

/-- Tables are compared declaration by declaration, in the order of the properties. -/
theorem beq_iff_forall₂_entries :
    (a == b) = true ↔ List.Forall₂ SameEntry a.entries b.entries := by
  have hnodup : Property.all.Nodup := by decide
  have compared := forall₂_listed_iff (f := a.get) (g := b.get) hnodup
  refine Iff.trans ?_ compared.symm
  simp only [beq_iff, Property.mem_all, true_imp_iff]

/-! ### Equals for equals -/

theorem overlay_beq_overlay (h : (a == b) = true) (h' : (c == d) = true) :
    (a.overlay c == b.overlay d) = true := by
  refine beq_iff.mpr fun p => ?_
  rw [get_overlay, get_overlay]
  exact or_beq_or (beq_iff.mp h' p) (beq_iff.mp h p)

theorem inherit_beq_inherit (h : (a == b) = true) (h' : (c == d) = true) :
    (a.inherit c == b.inherit d) = true := by
  refine beq_iff.mpr fun p => ?_
  rw [get_inherit, get_inherit]
  apply or_beq_or (beq_iff.mp h p)
  split
  · exact beq_iff.mp h' p
  · rfl

/-- Of how two styles were made, no more counts than what each property has come to. -/
theorem run_beq_run_iff (steps others : List Step) :
    (run steps == run others) = true ↔ ∀ p, (outcome steps p == outcome others p) = true := by
  simp only [beq_iff, get_run]

/-- Styles are equal just if they have the same properties with equal values, in other words if
their declarations are equal pair by pair. Numbers are equal if they are numbers and have the same
bits or are both zero, and all other values if they are the same. This equality is symmetric and
transitive, and a style equals itself unless a number in it is not one. How two styles were made
counts for no more than what each property has come to, and equals laid over equals, or taken over
by equals, give equals. -/
theorem equality_laws (a b c d : Style) :
    ((a == b) = true ↔ (∀ p, a.contains p = b.contains p) ∧
      ∀ p v w, a.get p = some v → b.get p = some w → (v == w) = true) ∧
    ((a == b) = true ↔ List.Forall₂ SameEntry a.entries b.entries) ∧
    (∀ x y, (Value.number x == Value.number y) = true ↔
      x.isNaN = false ∧ y.isNaN = false ∧ (x.bits = y.bits ∨ x.isZero = true ∧ y.isZero = true)) ∧
    (∀ v w : Value, v.kind ≠ .number ∨ w.kind ≠ .number → ((v == w) = true ↔ v = w)) ∧
    (a == b) = (b == a) ∧
    ((a == b) = true → (b == c) = true → (a == c) = true) ∧
    ((a == a) = true ↔ ∀ p x, a.get p = some (.number x) → x.isNaN = false) ∧
    (∀ steps others, (run steps == run others) = true ↔
      ∀ p, (outcome steps p == outcome others p) = true) ∧
    ((a == b) = true → (c == d) = true →
      (a.overlay c == b.overlay d) = true ∧ (a.inherit c == b.inherit d) = true) :=
  ⟨beq_iff_contains, beq_iff_forall₂_entries, fun _ _ => Single.beq_iff,
    fun _ _ => Value.beq_iff_eq_of_kind, BEq.comm, BEq.trans, beq_self_iff a, run_beq_run_iff,
    fun h h' => ⟨overlay_beq_overlay h h', inherit_beq_inherit h h'⟩⟩

/-- A width of zero equals one of minus zero, also where an opacity is laid over both. -/
theorem equality_laws_zeros :
    let plus := empty.put .width (some (.number ⟨0⟩))
    let minus := empty.put .width (some (.number ⟨0x80000000⟩))
    let faint := empty.put .opacity (some (.number ⟨0x3F000000⟩))
    (plus == minus) = true ∧ (faint == faint) = true ∧
      (plus.overlay faint == minus.overlay faint) = true := by
  intro plus minus faint
  have zeros : (plus == minus) = true := by decide
  have same : (faint == faint) = true := by decide
  obtain ⟨-, -, -, -, -, -, -, -, congruent⟩ := equality_laws plus minus faint faint
  exact ⟨zeros, same, (congruent zeros same).1⟩

end Style
end StyleCascade
