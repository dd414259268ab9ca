import Mathlib.Data.List.Sort
import Mathlib.Data.Prod.Lex
import StyleCascade.Proofs.Selector.Refinement
import StyleCascade.Proofs.Stylesheet.Layers
import StyleCascade.Proofs.Stylesheet.Registry

/-!
# The ranking of the rules that apply

A caller that asks which rules apply to an element is told of each by its text, its specificity
and its place, the lowest layer first. The order is that of four numbers, the last of which is the
place, so no two rules of a sheet rank alike. This is why it does not matter how the list is sorted
(`eq_mentions_of_perm`), and why rules that are registered later come between the earlier ones
without moving them (`filter_mentions`).
-/

namespace StyleCascade

structure Mention where
  text : String
  specificity : Specificity
  order : Nat

namespace Mention

variable {x y : Mention}

/-- The numbers that rank a rule, in the order of their weight. -/
def rank (x : Mention) : ℕ ×ₗ ℕ ×ₗ ℕ ×ₗ ℕ :=
  toLex (x.specificity.classes,
    toLex (x.specificity.types, toLex (x.specificity.compounds, x.order)))

theorem rank_le_iff : x.rank ≤ y.rank ↔ compare x.specificity y.specificity = .lt ∨
    x.specificity = y.specificity ∧ x.order ≤ y.order := by
  obtain ⟨text, ⟨classes, types, compounds⟩, order⟩ := x
  obtain ⟨text', ⟨classes', types', compounds'⟩, order'⟩ := y
  simp only [rank, Prod.Lex.toLex_le_toLex, Specificity.compare_eq_lt, Specificity.mk.injEq]
  grind

/-- Mentions of the same rank have the same place. -/
theorem order_eq_of_rank_eq (h : x.rank = y.rank) : x.order = y.order :=
  congrArg (fun k => (ofLex (ofLex (ofLex k).2).2).2) h

end Mention

namespace Rule

def mention (r : Rule) (order : Nat) : Mention where
  text := r.text
  specificity := r.specificity
  order := order

theorem eq_mention_iff {r : Rule} {x : Mention} :
    x = r.mention x.order ↔ x.text = r.text ∧ x.specificity = r.specificity := by
  cases x
  simp [mention]

end Rule

namespace MatchedRule

def mention (m : MatchedRule) : Mention := m.rule.mention m.order

/-- The order of the layers is that of the ranks. -/
theorem isBelow_iff_rank_le {m n : MatchedRule} :
    m.isBelow n = true ↔ m.mention.rank ≤ n.mention.rank := by
  rw [isBelow, Ordering.isLE_then_iff_or, Nat.isLE_compare, Specificity.compare_eq_eq,
    Mention.rank_le_iff]
  rfl

end MatchedRule

namespace Stylesheet

variable {sheet : Stylesheet} {l : Lineage} {x y : Mention}

/-- The rules that apply to an element, in the order in which they are found. -/
def found (sheet : Stylesheet) (l : Lineage) : List Mention :=
  (sheet.applicable l).map MatchedRule.mention

/-- The rules that apply to an element, the lowest layer first. -/
def mentions (sheet : Stylesheet) (l : Lineage) : List Mention :=
  (sheet.matchingRules l).value.map MatchedRule.mention

theorem perm_mentions (sheet : Stylesheet) (l : Lineage) :
    (sheet.mentions l).Perm (sheet.found l) :=
  (List.mergeSort_perm _ _).map _

theorem mem_found : x ∈ sheet.found l ↔ ∃ r, sheet.rules[x.order]? = some r ∧
    r.selector.matchesLineage l = true ∧ x = r.mention x.order := by
  simp only [found, List.mem_map, mem_applicable, Selector.matchesLineage,
    Option.isSome_iff_exists]
  constructor
  · rintro ⟨m, ⟨rule, fits⟩, rfl⟩
    exact ⟨m.rule, rule, ⟨m.ancestors, fits⟩, rfl⟩
  · rintro ⟨r, rule, ⟨ancestors, fits⟩, hx⟩
    exact ⟨⟨r, x.order, ancestors⟩, ⟨rule, fits⟩, hx.symm⟩

/-- Rules are found in the order of their places. -/
theorem pairwise_found (sheet : Stylesheet) (l : Lineage) :
    (sheet.found l).Pairwise fun x y => x.order < y.order := by
  have places : sheet.rules.toList.zipIdx.Pairwise fun a b => a.2 < b.2 := by
    rw [← List.pairwise_map, List.zipIdx_map_snd]
    exact List.pairwise_lt_range'
  rw [found, applicable, List.pairwise_map, List.pairwise_filterMap]
  refine places.imp fun hlt m hm n hn => ?_
  obtain ⟨_, -, rfl⟩ := Option.map_eq_some_iff.mp hm
  obtain ⟨_, -, rfl⟩ := Option.map_eq_some_iff.mp hn
  exact hlt

theorem nodup_order_found (sheet : Stylesheet) (l : Lineage) :
    ((sheet.found l).map Mention.order).Nodup :=
  List.pairwise_map.mpr ((pairwise_found sheet l).imp Nat.ne_of_lt)

/-- No two rules that apply rank alike. -/
theorem eq_of_rank_eq (hx : x ∈ sheet.found l) (hy : y ∈ sheet.found l)
    (h : x.rank = y.rank) : x = y :=
  List.inj_on_of_nodup_map (nodup_order_found sheet l) hx hy (Mention.order_eq_of_rank_eq h)

theorem pairwise_rank_le_mentions (sheet : Stylesheet) (l : Lineage) :
    (sheet.mentions l).Pairwise fun x y => x.rank ≤ y.rank := by
  rw [mentions, List.pairwise_map]
  exact (List.pairwise_reverse.mp (pairwise_layers sheet l)).imp MatchedRule.isBelow_iff_rank_le.mp

/-- Whatever has the rules that apply in the order of their ranks is the list that a caller is
given. -/
theorem eq_mentions_of_perm {sorted : List Mention} (perm : sorted.Perm (sheet.found l))
    (hsorted : sorted.Pairwise fun x y => x.rank ≤ y.rank) : sorted = sheet.mentions l := by
  have permMentions := perm.trans (perm_mentions sheet l).symm
  refine permMentions.eq_of_pairwise (fun x y hx hy hxy hyx => ?_) hsorted
    (pairwise_rank_le_mentions sheet l)
  exact eq_of_rank_eq (perm.mem_iff.mp hx) ((perm_mentions sheet l).mem_iff.mp hy)
    (le_antisymm hxy hyx)

theorem pairwise_mentions (sheet : Stylesheet) (l : Lineage) :
    (sheet.mentions l).Pairwise fun x y => x.rank < y.rank := by
  have distinct : (sheet.mentions l).Pairwise fun x y => x.order ≠ y.order := by
    rw [← List.pairwise_map]
    exact ((perm_mentions sheet l).map Mention.order).nodup_iff.mpr (nodup_order_found sheet l)
  refine ((pairwise_rank_le_mentions sheet l).and distinct).imp fun h => ?_
  exact lt_of_le_of_ne h.1 fun heq => h.2 (Mention.order_eq_of_rank_eq heq)

def rank (sheet : Stylesheet) (i : Fin sheet.rules.size) : ℕ ×ₗ ℕ ×ₗ ℕ ×ₗ ℕ :=
  (sheet.rules[i].mention i).rank

theorem rank_injective (sheet : Stylesheet) : Function.Injective sheet.rank :=
  fun _ _ h => Fin.ext (Mention.order_eq_of_rank_eq h)

/-- There is a mention of each rule whose selector matches, with what can be told from the
selector. -/
theorem mem_mentions (coherent : sheet.Coherent) : x ∈ sheet.mentions l ↔
    ∃ r, sheet.rules[x.order]? = some r ∧ r.selector.matchesLineage l = true ∧
      x.text = r.selector.text ∧ x.specificity = r.selector.specificity := by
  rw [(perm_mentions sheet l).mem_iff, mem_found]
  refine exists_congr fun r => and_congr_right fun hr => and_congr_right fun _ => ?_
  rw [Rule.eq_mention_iff, (coherent hr).text, (coherent hr).specificity]

theorem mem_mentions_iff_key (coherent : sheet.Coherent) : x ∈ sheet.mentions l ↔
    ∃ s, sheet.entries.keys[x.order]? = some s ∧ s.matchesLineage l = true ∧
      x.text = s.text ∧ x.specificity = s.specificity := by
  rw [mem_mentions coherent, Registry.getElem?_keys, getElem?_entries, Option.map_map]
  simp [Option.map_eq_some_iff]

/-- Rules that are registered later leave the earlier ones in their order. -/
theorem filter_mentions (visits more : List Visit) (l : Lineage) :
    ((run (visits ++ more)).mentions l).filter (fun x => x.order < (run visits).size) =
      (run visits).mentions l := by
  have same : (run visits).entries.keys <+: (run (visits ++ more)).entries.keys := by
    rw [entries_run, entries_run]
    exact Registry.prefix_keys_run_append visits more
  refine ((pairwise_mentions _ l).filter _).eq_of_mem_iff (pairwise_mentions _ l) fun x => ?_
  rw [List.mem_filter, decide_eq_true_eq, mem_mentions_iff_key (coherent_run _),
    mem_mentions_iff_key (coherent_run _)]
  constructor
  · rintro ⟨⟨s, hs, hx⟩, hlt⟩
    rw [← length_keys_entries] at hlt
    have hearlier := getElem?_of_prefix same (List.getElem?_eq_getElem hlt)
    rw [hs] at hearlier
    exact ⟨s, hearlier ▸ List.getElem?_eq_getElem hlt, hx⟩
  · rintro ⟨s, hs, hx⟩
    refine ⟨⟨s, getElem?_of_prefix same hs, hx⟩, ?_⟩
    rw [← length_keys_entries]
    exact (List.getElem?_eq_some_iff.mp hs).1

/-- At some time each number of rules has been registered, up to the last one. -/
theorem exists_prefix_of_le_size (visits : List Visit) {k : Nat} (hk : k ≤ (run visits).size) :
    ∃ before, before <+: visits ∧ (run before).size = k := by
  induction visits using List.reverseRecOn with
  | nil => exact ⟨[], List.prefix_refl _, (Nat.le_zero.mp hk).symm⟩
  | append_singleton visits v ih =>
      rcases le_or_gt k (run visits).size with hle | hlt
      · obtain ⟨before, hbefore, hsize⟩ := ih hle
        exact ⟨before, hbefore.trans (List.prefix_append _ _), hsize⟩
      · have hstep : (run (visits ++ [v])).size ≤ (run visits).size + 1 := by
          rw [← length_keys_entries, ← length_keys_entries, entries_run, entries_run,
            Registry.run_concat]
          exact Registry.length_keys_visit_le _ v
        exact ⟨_, List.prefix_refl _, by omega⟩

/-- The rules of a sheet that apply to an element are told in the order of their ranks, which never
tie. There is one mention for each rule with a selector that matches, and any other way to sort what
has been found gives the same list. The mentions of the rules that were registered by some time are
those that were given at that time. -/
theorem mentions_ranked (visits : List Visit) (l : Lineage) :
    (∀ x, x ∈ (run visits).mentions l ↔
      ∃ r, (run visits).rules[x.order]? = some r ∧ r.selector.matchesLineage l = true ∧
        x.text = r.selector.text ∧ x.specificity = r.selector.specificity) ∧
    ((run visits).mentions l).Pairwise (fun x y => x.rank < y.rank) ∧
    IsStrictTotalOrder (Fin (run visits).rules.size)
      (fun i j => (run visits).rank i < (run visits).rank j) ∧
    (∀ sorted : List Mention, sorted.Perm ((run visits).found l) →
      sorted.Pairwise (fun x y => x.rank ≤ y.rank) → sorted = (run visits).mentions l) ∧
    (∀ k ≤ (run visits).size, ∃ before, before <+: visits ∧ (run before).size = k) ∧
    ∀ before, before <+: visits →
      ((run visits).mentions l).filter (fun x => x.order < (run before).size) =
        (run before).mentions l := by
  refine ⟨fun _ => mem_mentions (coherent_run visits), pairwise_mentions _ l, ?_,
    fun _ => eq_mentions_of_perm, fun _ => exists_prefix_of_le_size visits, ?_⟩
  · exact (RelEmbedding.preimage ⟨_, rank_injective _⟩ (· < ·)).isStrictTotalOrder
  · rintro before ⟨more, rfl⟩
    exact filter_mentions before more l

end Stylesheet
end StyleCascade
