import StyleCascade.Proofs.Forest.Outline

/-!
# Edits that are refused

An edit of the shape names a parent and a child. It is refused if one of them does not exist, of
which the parent is looked at first; then an append is refused if the child is the parent or stands
above it, and a removal if the child is not among the children of the parent. `AppendFault` and
`RemoveFault` put this down, and the two edits fail for these reasons and for no others
(`Shape.append_eq_error_iff`, `Shape.remove_eq_error_iff`).

Appending closes a cycle in one case only, which is the one that is refused: with the child put
under the parent, the way up from the parent to the child would go on to the parent again
(`Shape.acyclic_append_iff`).
-/

namespace StyleCascade
namespace Forest

variable {f : Forest} {kids : ComponentId → List ComponentId} {p c id : ComponentId}
variable {e : ForestError}

/-- Of the two numbers that an edit names, this is the first that is not given out. -/
inductive UnknownFault (f : Forest) (p c : ComponentId) : ForestError → Prop where
  | parent : f.size ≤ p → UnknownFault f p c (.unknownComponent p)
  | child : p < f.size → f.size ≤ c → UnknownFault f p c (.unknownComponent c)

/-- What stands against putting a component under another. -/
inductive AppendFault (f : Forest) (p c : ComponentId) : ForestError → Prop where
  | unknown {e : ForestError} : f.UnknownFault p c e → AppendFault f p c e
  | cycle : p < f.size → c < f.size → f.Under p c → AppendFault f p c (.cycle p c)

/-- What stands against taking a component from another. -/
inductive RemoveFault (f : Forest) (p c : ComponentId) : ForestError → Prop where
  | unknown {e : ForestError} : f.UnknownFault p c e → RemoveFault f p c e
  | notAChild : p < f.size → c < f.size → c ∉ f.children p → RemoveFault f p c (.notAChild p c)

def Acyclic (parent : ComponentId → Option ComponentId) : Prop :=
  ∀ x, ¬ Relation.TransGen (fun a b => parent a = some b) x x

/-! ### Numbers that are not given out -/

theorem require_of_lt (h : id < f.size) : ∃ k, f.require id = .ok k := by
  obtain ⟨k, hk⟩ := Option.isSome_iff_exists.mp (component?_isSome.mpr h)
  exact ⟨k, require_of_component? hk⟩

theorem require_of_le (h : f.size ≤ id) : f.require id = .error (.unknownComponent id) := by
  rw [require, component?_eq_none.mpr h]

theorem append_of_unknown (fault : f.UnknownFault p c e) : (f.append p c).value = .error e := by
  cases fault with
  | parent hp => rw [append, require_of_le hp, Logged.value_pure]
  | child hp hc =>
      obtain ⟨k, hk⟩ := require_of_lt hp
      rw [append, hk, require_of_le hc, Logged.value_pure]

theorem remove_of_unknown (fault : f.UnknownFault p c e) : f.remove p c = .error e := by
  cases fault with
  | parent hp =>
      rw [remove, require_of_le hp]
      rfl
  | child hp hc =>
      obtain ⟨k, hk⟩ := require_of_lt hp
      rw [remove, hk, require_of_le hc]
      rfl

/-- An edit names a number that is not given out, or both are. -/
theorem unknownFault_or (f : Forest) (p c : ComponentId) :
    (∃ e, f.UnknownFault p c e) ∨ p < f.size ∧ c < f.size := by
  rcases Nat.lt_or_ge p f.size with hp | hp
  · rcases Nat.lt_or_ge c f.size with hc | hc
    · exact .inr ⟨hp, hc⟩
    · exact .inl ⟨_, .child hp hc⟩
  · exact .inl ⟨_, .parent hp⟩

/-! ### Components that both exist -/

/-- Whether the child stands above the parent is all that is still asked. -/
theorem append_of_lt (hp : p < f.size) (hc : c < f.size) :
    (f.isInclusiveAncestor c p = true → (f.append p c).value = .error (.cycle p c)) ∧
      (f.isInclusiveAncestor c p = false → ∃ g, (f.append p c).value = .ok g) := by
  obtain ⟨k, hk⟩ := require_of_lt hp
  obtain ⟨k', hk'⟩ := require_of_lt hc
  rw [append, hk, hk']
  refine ⟨fun above => ?_, fun free => ?_⟩
  · simp only [if_pos above]
    rfl
  · simp only [free, Bool.false_eq_true, if_false]
    split <;> exact ⟨_, rfl⟩

theorem remove_of_lt (hp : p < f.size) (hc : c < f.size) :
    f.remove p c =
      if f.parent? c = some p then .ok (f.detach c) else .error (.notAChild p c) := by
  obtain ⟨k, hk⟩ := require_of_lt hp
  obtain ⟨k', hk'⟩ := require_of_lt hc
  rw [remove, hk, hk']
  rfl

namespace Shape

theorem append_of_under (h : Shape f kids) (hp : p < f.size) (hc : c < f.size)
    (above : f.Under p c) : (f.append p c).value = .error (.cycle p c) :=
  (append_of_lt hp hc).1 (h.isInclusiveAncestor_iff.mpr above)

theorem exists_append_of_not_under (h : Shape f kids) (hp : p < f.size) (hc : c < f.size)
    (free : ¬ f.Under p c) : ∃ g, (f.append p c).value = .ok g :=
  (append_of_lt hp hc).2 (Bool.eq_false_iff.mpr (h.isInclusiveAncestor_iff.not.mpr free))

/-- An append fails just when something stands against it. -/
theorem append_eq_error_iff (h : Shape f kids) :
    (f.append p c).value = .error e ↔ f.AppendFault p c e := by
  constructor
  · intro herror
    obtain ⟨e', fault⟩ | ⟨hp, hc⟩ := unknownFault_or f p c
    · rw [append_of_unknown fault] at herror
      cases herror
      exact .unknown fault
    · by_cases above : f.Under p c
      · rw [h.append_of_under hp hc above] at herror
        cases herror
        exact .cycle hp hc above
      · obtain ⟨g, hg⟩ := h.exists_append_of_not_under hp hc above
        rw [hg] at herror
        cases herror
  · intro fault
    cases fault with
    | unknown fault => exact append_of_unknown fault
    | cycle hp hc above => exact h.append_of_under hp hc above

/-- A removal fails just when something stands against it. That the component is no child is told
by its parent, and is true of the list of children. -/
theorem remove_eq_error_iff (h : Shape f kids) :
    f.remove p c = .error e ↔ f.RemoveFault p c e := by
  constructor
  · intro herror
    obtain ⟨e', fault⟩ | ⟨hp, hc⟩ := unknownFault_or f p c
    · rw [remove_of_unknown fault] at herror
      cases herror
      exact .unknown fault
    · rw [remove_of_lt hp hc] at herror
      split at herror
      · cases herror
      next absent =>
        cases herror
        exact .notAChild hp hc (h.mem_children.not.mpr absent)
  · intro fault
    cases fault with
    | unknown fault => exact remove_of_unknown fault
    | notAChild hp hc absent => rw [remove_of_lt hp hc, if_neg (h.mem_children.not.mp absent)]

theorem exists_remove_iff (h : Shape f kids) :
    (∃ g, f.remove p c = .ok g) ↔ c ∈ f.children p := by
  rw [h.mem_children]
  constructor
  · rintro ⟨g, hg⟩
    exact (remove_eq_ok hg).1
  · intro hparent
    obtain ⟨hp, hc⟩ := h.lt_size p c ((h.parent_iff p c).mp hparent)
    exact ⟨f.detach c, by rw [remove_of_lt hp hc, if_pos hparent]⟩

/-! ### Cycles -/

theorem acyclic (h : Shape f kids) : Acyclic f.parent? := by
  intro x
  obtain ⟨line, hline⟩ := h.ends x
  exact hline.not_transGen

/-- With a component put under one that it stands above, the way up from it comes back to it. -/
theorem not_acyclic_of_under (above : f.Under p c) : ¬ Acyclic (f.outline.append p c).parent := by
  have closing : (f.outline.append p c).parent c = some p := if_pos rfl
  have others : ∀ a, a ≠ c → (f.outline.append p c).parent a = f.parent? a := fun a ha => if_neg ha
  generalize (f.outline.append p c).parent = parent at closing others ⊢
  have way : Relation.ReflTransGen (fun a b => parent a = some b) p c := by
    clear closing
    induction above using Relation.ReflTransGen.head_induction_on with
    | refl => exact .refl
    | @head a b hstep _ ih =>
        by_cases ha : a = c
        · exact ha ▸ .refl
        · exact .head ((others a ha).trans hstep) ih
  intro acyclic
  exact acyclic c (.head' closing way)

/-- An append is refused only where it would close a cycle. -/
theorem acyclic_append_iff (h : Shape f kids) (hp : p < f.size) (hc : c < f.size) :
    Acyclic (f.outline.append p c).parent ↔ ¬ f.Under p c := by
  constructor
  · intro acyclic above
    exact not_acyclic_of_under above acyclic
  · intro free
    obtain ⟨g, hg⟩ := h.exists_append_of_not_under hp hc free
    rw [← h.outline_append hg]
    exact (h.append hg).1.acyclic

theorem exists_append_iff (h : Shape f kids) :
    (∃ g, (f.append p c).value = .ok g) ↔
      p < f.size ∧ c < f.size ∧ Acyclic (f.outline.append p c).parent := by
  constructor
  · rintro ⟨g, hg⟩
    obtain ⟨hp, hc, -⟩ := append_eq_ok hg
    exact ⟨hp, hc, h.outline_append hg ▸ (h.append hg).1.acyclic⟩
  · rintro ⟨hp, hc, acyclic⟩
    exact h.exists_append_of_not_under hp hc ((h.acyclic_append_iff hp hc).mp acyclic)

end Shape

/-! ### The forest after a refusal -/

theorem run_append_of_error {edits : List Edit}
    (herror : ((run edits).append p c).value = .error e) :
    run (edits ++ [.append p c]) = run edits := by
  rw [run_concat, edit, herror]
  rfl

theorem run_remove_of_error {edits : List Edit} (herror : (run edits).remove p c = .error e) :
    run (edits ++ [.remove p c]) = run edits := by
  rw [run_concat, edit, herror]
  rfl

/-- In every forest an edit of the shape fails with the error of the first thing that stands against
it, and succeeds if there is none. A removal succeeds for the children of the parent, and an append
for any two components that it would not close a cycle with. After an edit that fails the forest is
the same in all, and no edits together ever make a cycle. -/
theorem refused_iff_fault (edits : List Edit) :
    (∀ p c e, ((run edits).append p c).value = .error e ↔ (run edits).AppendFault p c e) ∧
    (∀ p c, (∃ g, ((run edits).append p c).value = .ok g) ↔
      p < (run edits).size ∧ c < (run edits).size ∧
        Acyclic ((run edits).outline.append p c).parent) ∧
    (∀ p c e, (run edits).remove p c = .error e ↔ (run edits).RemoveFault p c e) ∧
    (∀ p c, (∃ g, (run edits).remove p c = .ok g) ↔ c ∈ (run edits).children p) ∧
    (∀ p c e, (run edits).AppendFault p c e → run (edits ++ [.append p c]) = run edits) ∧
    (∀ p c e, (run edits).RemoveFault p c e → run (edits ++ [.remove p c]) = run edits) ∧
    Acyclic (run edits).parent? := by
  obtain ⟨kids, h⟩ := shape_run edits
  refine ⟨fun p c e => h.append_eq_error_iff, fun p c => h.exists_append_iff,
    fun p c e => h.remove_eq_error_iff, fun p c => h.exists_remove_iff,
    fun p c e fault => ?_, fun p c e fault => ?_, h.acyclic⟩
  · exact run_append_of_error (h.append_eq_error_iff.mpr fault)
  · exact run_remove_of_error (h.remove_eq_error_iff.mpr fault)

/-- A panel is not put into its own label, and of two numbers that are not given out the one of the
parent is reported. -/
example :
    let f := run [.create "panel", .create "label", .append 0 1]
    (f.append 1 0).value.map Forest.size = .error (.cycle 1 0) ∧
      (f.append 7 8).value.map Forest.size = .error (.unknownComponent 7) := by decide

end Forest
end StyleCascade
