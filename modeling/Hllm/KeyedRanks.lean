import Mathlib.Data.List.Nodup
import Mathlib.Data.List.Range
import Mathlib.Data.List.Forall2
import Mathlib.Logic.Function.Basic

/-!
# Positions looked up by a key

A table from keys to positions of a list, filled from left to right so that a
later entry overwrites an earlier one. With distinct keys the table gives
back every position and a search by key finds the entry it was made from.
-/

namespace Hllm.KeyedRanks

variable {α β κ : Type*} [DecidableEq κ] (key : α → κ)

/-- One assignment to the table. -/
def enter (known : κ → Option ℕ) (entry : α×ℕ) : κ → Option ℕ :=
  Function.update known (key entry.1) (some entry.2)

/-- Positions by key, counted from the given start. -/
def rankTable (start : ℕ) (l : List α) : κ → Option ℕ :=
  (l.zipIdx start).foldl (enter key) fun _ => none

variable {key}

/-- Keys that do not occur keep what was known about them. -/
theorem foldl_enter_of_not_mem {l : List α} {k : κ} (hk : k∉l.map key) (start : ℕ)
    (known : κ → Option ℕ) : (l.zipIdx start).foldl (enter key) known k=known k := by
  induction l generalizing start known with
  | nil => rfl
  | cons a l ih =>
    rw [List.map_cons,List.mem_cons,not_or] at hk
    rw [List.zipIdx_cons,List.foldl_cons,ih hk.2,enter,Function.update_of_ne hk.1]

/-- With distinct keys every entry's position is found. -/
theorem map_foldl_enter {l : List α} (hkeys : (l.map key).Nodup) (start : ℕ)
    (known : κ → Option ℕ) :
    (l.map fun a => (l.zipIdx start).foldl (enter key) known (key a))=
      (List.range' start l.length).map some := by
  induction l generalizing start known with
  | nil => rfl
  | cons a l ih =>
    rw [List.map_cons,List.nodup_cons] at hkeys
    simp only [List.map_cons,List.zipIdx_cons,List.foldl_cons,List.length_cons,
      List.range'_succ]
    rw [ih hkeys.2,foldl_enter_of_not_mem hkeys.1,enter,Function.update_self]

/-- Keys that do not occur have no rank. -/
theorem rankTable_of_not_mem {l : List α} {k : κ} (hk : k∉l.map key) (start : ℕ) :
    rankTable key start l k=none :=
  foldl_enter_of_not_mem hk start _

/-- The ranks of a list with distinct keys are its positions in order. -/
theorem map_rankTable {l : List α} (hkeys : (l.map key).Nodup) (start : ℕ) :
    (l.map fun a => rankTable key start l (key a))=(List.range' start l.length).map some :=
  map_foldl_enter hkeys start _

/-- The rank of the entry at a position. -/
theorem rankTable_get {l : List α} (hkeys : (l.map key).Nodup) (start : ℕ) (i : Fin l.length) :
    rankTable key start l (key (l.get i))=some (start+i) := by
  have h := congrArg (·[i.1]?) (map_rankTable hkeys start)
  simpa using h

/-- A search by key finds the one entry with that key. -/
theorem find_key {l : List α} (hkeys : (l.map key).Nodup) {a : α} (ha : a∈l) :
    (l.find? fun b => key b=key a)=some a := by
  cases hfind : l.find? fun b => key b=key a with
  | none =>
    have hnone := List.find?_eq_none.mp hfind a ha
    simp at hnone
  | some b =>
    have hb : key b=key a := by simpa using List.find?_some hfind
    rw [List.inj_on_of_nodup_map hkeys (List.mem_of_find?_eq_some hfind) ha hb]

/-- A fallible map that succeeds relates the two lists entry by entry. -/
theorem forall₂_of_mapM {ε : Type*} {f : α → Except ε β} {l : List α} {r : List β}
    (h : l.mapM f=.ok r) : List.Forall₂ (fun a b => f a=.ok b) l r := by
  induction l generalizing r with
  | nil =>
    rw [List.mapM_nil] at h
    cases h
    exact .nil
  | cons a l ih =>
    rw [List.mapM_cons] at h
    cases ha : f a with
    | error e =>
      rw [ha] at h
      cases h
    | ok b =>
      cases hl : l.mapM f with
      | error e =>
        rw [ha,hl] at h
        cases h
      | ok bs =>
        rw [ha,hl] at h
        cases h
        exact .cons ha (ih hl)

/-- Entries related one by one have the same image if the relation gives one. -/
theorem map_eq_of_forall₂ {γ : Type*} {R : α → β → Prop} {f : α → γ} {g : β → γ}
    (himage : ∀ a b,R a b → g b=f a) {l : List α} {r : List β} (h : List.Forall₂ R l r) :
    r.map g=l.map f := by
  induction h with
  | nil => rfl
  | cons hab _ ih => rw [List.map_cons,List.map_cons,himage _ _ hab,ih]

/-- Every entry on the right is related to one on the left. -/
theorem exists_of_forall₂ {R : α → β → Prop} {l : List α} {r : List β} (h : List.Forall₂ R l r)
    {b : β} (hb : b∈r) : ∃ a,R a b := by
  induction h with
  | nil => cases hb
  | cons hab _ ih =>
    rcases List.mem_cons.mp hb with rfl|hb
    · exact ⟨_,hab⟩
    · exact ih hb

end Hllm.KeyedRanks
