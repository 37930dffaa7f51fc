import Mathlib.Data.List.Infix

/-!
# Patterns in texts

Positions at which patterns begin in a text, the first of them, and what of
this is seen in a beginning of the text. Patterns are not empty.
-/

namespace Hllm.TextMatches

variable {α : Type*}

/-- The pattern begins at the position. -/
def OccursAt (pattern text : List α) (p : ℕ) : Prop := pattern<+:text.drop p

/-- A pattern ends within the text. -/
theorem OccursAt.end_le {pattern text : List α} {p : ℕ} (h : OccursAt pattern text p)
    (hpattern : pattern≠[]) : p+pattern.length ≤ text.length := by
  have hlength := h.length_le
  have hpos := List.length_pos_of_ne_nil hpattern
  rw [List.length_drop] at hlength
  omega

/-- A pattern in a beginning of the text is one in the text. -/
theorem OccursAt.append {pattern text rest : List α} {p : ℕ} (h : OccursAt pattern text p)
    (hpattern : pattern≠[]) : OccursAt pattern (text++rest) p := by
  have hend := h.end_le hpattern
  unfold OccursAt
  rw [List.drop_append_of_le_length (by omega)]
  exact h.trans (List.prefix_append _ _)

/-- A pattern that ends in a beginning of the text is in that beginning. -/
theorem occursAt_of_append {pattern text rest : List α} {p : ℕ}
    (h : OccursAt pattern (text++rest) p) (hend : p+pattern.length ≤ text.length) :
    OccursAt pattern text p := by
  unfold OccursAt at h ⊢
  rw [List.drop_append_of_le_length (by omega)] at h
  refine List.prefix_of_prefix_length_le h (List.prefix_append _ _) ?_
  rw [List.length_drop]
  omega

/-- Before the end of a beginning of the text, a pattern that ends after it
starts with what is left of it. -/
theorem drop_prefix_of_append {pattern text rest : List α} {p : ℕ}
    (h : OccursAt pattern (text++rest) p) (hp : p ≤ text.length)
    (hend : text.length ≤ p+pattern.length) : text.drop p<+:pattern := by
  unfold OccursAt at h
  rw [List.drop_append_of_le_length hp] at h
  refine List.prefix_of_prefix_length_le (List.prefix_append _ _) h ?_
  rw [List.length_drop]
  omega

/-- Patterns after a position. -/
theorem occursAt_append_left {pattern before text : List α} {p : ℕ} :
    OccursAt pattern (before++text) (before.length+p) ↔ OccursAt pattern text p := by
  unfold OccursAt
  rw [List.drop_append,List.drop_of_length_le (Nat.le_add_right _ _),Nat.add_sub_cancel_left]
  rfl

variable [DecidableEq α]

instance (pattern text : List α) (p : ℕ) : Decidable (OccursAt pattern text p) :=
  inferInstanceAs (Decidable (_<+:_))

/-- The first position of the pattern. -/
def find (pattern text : List α) : Option ℕ :=
  (List.range (text.length+1)).find? fun p => decide (OccursAt pattern text p)

/-- The first position of any of the patterns. -/
def earliest (patterns : List (List α)) (text : List α) : Option ℕ :=
  (List.range (text.length+1)).find? fun p => patterns.any fun s => decide (OccursAt s text p)

/-- The text before the first of the patterns. -/
def cut (patterns : List (List α)) (text : List α) : List α :=
  match earliest patterns text with
  | none => text
  | some p => text.take p

/-- Searching a range finds the least position. -/
theorem find?_range {n p : ℕ} {f : ℕ → Bool} :
    (List.range n).find? f=some p ↔ f p=true ∧ p < n ∧ ∀ q < p,f q=false := by
  rw [List.find?_range_eq_some]
  simp only [List.mem_range,Bool.not_eq_true']

/-- The first position of the pattern. -/
theorem find_eq_some {pattern text : List α} {p : ℕ} (hpattern : pattern≠[]) :
    find pattern text=some p ↔
      OccursAt pattern text p ∧ ∀ q,OccursAt pattern text q → p ≤ q := by
  rw [find,find?_range]
  simp only [decide_eq_true_eq,decide_eq_false_iff_not]
  constructor
  · rintro ⟨hp,-,hfirst⟩
    refine ⟨hp,fun q hq => ?_⟩
    by_contra hlt
    exact hfirst q (by omega) hq
  · rintro ⟨hp,hfirst⟩
    have hend := hp.end_le hpattern
    refine ⟨hp,by omega,fun q hlt hq => ?_⟩
    have hle := hfirst q hq
    omega

/-- The pattern is nowhere. -/
theorem find_eq_none {pattern text : List α} (hpattern : pattern≠[]) :
    find pattern text=none ↔ ∀ p,¬OccursAt pattern text p := by
  rw [find,List.find?_eq_none]
  simp only [List.mem_range,decide_eq_true_eq]
  constructor
  · intro h p hp
    have hend := hp.end_le hpattern
    exact h p (by omega) hp
  · intro h p _
    exact h p

section Patterns

variable {patterns : List (List α)} (hpatterns : ∀ s∈patterns,s≠[])

include hpatterns

/-- The first position of any of the patterns. -/
theorem earliest_eq_some {text : List α} {p : ℕ} :
    earliest patterns text=some p ↔ (∃ s∈patterns,OccursAt s text p) ∧
      ∀ s∈patterns,∀ q,OccursAt s text q → p ≤ q := by
  rw [earliest,find?_range]
  simp only [List.any_eq_true,List.any_eq_false,decide_eq_true_eq]
  constructor
  · rintro ⟨hp,-,hfirst⟩
    refine ⟨hp,fun s hs q hq => ?_⟩
    by_contra hlt
    exact hfirst q (by omega) s hs hq
  · rintro ⟨⟨s,hs,hp⟩,hfirst⟩
    have hend := hp.end_le (hpatterns s hs)
    refine ⟨⟨s,hs,hp⟩,by omega,fun q hlt s' hs' hq => ?_⟩
    have hle := hfirst s' hs' q hq
    omega

/-- None of the patterns is anywhere. -/
theorem earliest_eq_none {text : List α} :
    earliest patterns text=none ↔ ∀ s∈patterns,∀ p,¬OccursAt s text p := by
  rw [earliest,List.find?_eq_none]
  simp only [List.mem_range,List.any_eq_true,not_exists,not_and,decide_eq_true_eq]
  constructor
  · intro h s hs p hp
    have hend := hp.end_le (hpatterns s hs)
    exact h p (by omega) s hs hp
  · intro h p _ s hs
    exact h s hs p

/-- The least of the first positions of the patterns. -/
theorem min_find (text : List α) :
    (patterns.filterMap fun s => find s text).min?=earliest patterns text := by
  cases hearliest : earliest patterns text with
  | none =>
    rw [earliest_eq_none hpatterns] at hearliest
    rw [List.min?_eq_none_iff,List.filterMap_eq_nil_iff]
    exact fun s hs => (find_eq_none (hpatterns s hs)).mpr (hearliest s hs)
  | some p =>
    rw [earliest_eq_some hpatterns] at hearliest
    obtain ⟨⟨s,hs,hp⟩,hfirst⟩ := hearliest
    rw [List.min?_eq_some_iff]
    constructor
    · rw [List.mem_filterMap]
      exact ⟨s,hs,(find_eq_some (hpatterns s hs)).mpr ⟨hp,hfirst s hs⟩⟩
    · intro q hq
      obtain ⟨s',hs',hq'⟩ := List.mem_filterMap.mp hq
      exact hfirst s' hs' q ((find_eq_some (hpatterns s' hs')).mp hq').1

/-- The text before the first of the patterns holds none of them. -/
theorem earliest_cut (text : List α) : earliest patterns (cut patterns text)=none := by
  unfold cut
  cases hearliest : earliest patterns text with
  | none => exact hearliest
  | some p =>
    rw [earliest_eq_some hpatterns] at hearliest
    rw [earliest_eq_none hpatterns]
    intro s hs q hq
    have hend := hq.end_le (hpatterns s hs)
    have hpos := List.length_pos_of_ne_nil (hpatterns s hs)
    have hall : OccursAt s (text.take p++text.drop p) q := hq.append (hpatterns s hs)
    rw [List.take_append_drop] at hall
    have hle := hearliest.2 s hs q hall
    rw [List.length_take] at hend
    omega

end Patterns

end Hllm.TextMatches
