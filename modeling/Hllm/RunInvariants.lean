import Mathlib.Data.List.Basic
import Mathlib.Data.List.Induction
import Mathlib.Logic.Relation

/-!
# Guarded runs of partial step functions

A machine is an initial condition and a partial step function. Every choice
made outside the modelled code (an interleaving, a clock reading, a backend
answer) is carried by the action, so a run is determined by its action list.
The rules below turn facts about one step into facts about whole runs,
optionally under a condition on every state and action met on the way.
-/

namespace Hllm.RunInvariants

/-- A transition system whose nondeterminism is carried by its actions. -/
structure Machine (σ α : Type*) where
  /-- States in which a run may start. -/
  initial : σ → Prop
  /-- One step; `none` when the action is not enabled. -/
  step : σ → α → Option σ

variable {σ α : Type*} {m : Machine σ α}

/-- Execute a whole action list, failing at the first disabled action. -/
def Machine.run (m : Machine σ α) : σ → List α → Option σ
  | s,[] => some s
  | s,a::as => (m.step s a).bind fun t => m.run t as

/-- The states a run goes through, its start first. -/
def Machine.trace (m : Machine σ α) : σ → List α → List σ
  | s,[] => [s]
  | s,a::as => s::((m.step s a).map fun t => m.trace t as).getD []

/-- A run of two action lists is a run of the second from the end of the first. -/
theorem Machine.run_append (s : σ) (as bs : List α) :
    m.run s (as++bs)=(m.run s as).bind fun t => m.run t bs := by
  induction as generalizing s with
  | nil => rfl
  | cons a as ih =>
    rw [List.cons_append,Machine.run,Machine.run,Option.bind_assoc]
    exact congrArg _ (funext ih)

/-- Runs whose every state and action satisfies a side condition. -/
inductive Machine.Path (m : Machine σ α) (ok : σ → α → Prop) : σ → List α → σ → Prop
  | nil (s : σ) : Machine.Path m ok s [] s
  | cons {s t u : σ} {a : α} {as : List α} (hok : ok s a) (hstep : m.step s a=some t)
      (rest : Machine.Path m ok t as u) : Machine.Path m ok s (a::as) u

/-- States reached from an initial one by steps that meet the condition. -/
def Machine.ReachableBy (m : Machine σ α) (ok : σ → α → Prop) (s : σ) : Prop :=
  ∃ s₀ as,m.initial s₀ ∧ m.Path ok s₀ as s

/-- States reached by any run at all. -/
def Machine.Reachable (m : Machine σ α) (s : σ) : Prop := m.ReachableBy (fun _ _ => True) s

/-- A condition kept by every admissible step is kept by every admissible run. -/
theorem Machine.Path.preserves {ok : σ → α → Prop} {I : σ → Prop}
    (hstep : ∀ s a t,ok s a → I s → m.step s a=some t → I t)
    {s t : σ} {as : List α} (path : m.Path ok s as t) (hs : I s) : I t := by
  induction path with
  | nil s => exact hs
  | cons hok hone _ ih => exact ih (hstep _ _ _ hok hs hone)

/-- A reflexive and transitive relation that holds across every step from a
state of the invariant holds across every run from one. -/
theorem Machine.Path.relates {ok : σ → α → Prop} {I : σ → Prop} {rel : σ → σ → Prop}
    (hrefl : ∀ s,rel s s) (htrans : ∀ s t u,rel s t → rel t u → rel s u)
    (hinv : ∀ s a t,ok s a → I s → m.step s a=some t → I t)
    (hstep : ∀ s a t,ok s a → I s → m.step s a=some t → rel s t)
    {s t : σ} {as : List α} (path : m.Path ok s as t) (hs : I s) : rel s t := by
  induction path with
  | nil s => exact hrefl s
  | cons hok hone _ ih =>
    exact htrans _ _ _ (hstep _ _ _ hok hs hone) (ih (hinv _ _ _ hok hs hone))

/-- Runs compose. -/
theorem Machine.Path.append {ok : σ → α → Prop} {s t u : σ} {as bs : List α}
    (first : m.Path ok s as t) (second : m.Path ok t bs u) : m.Path ok s (as++bs) u := by
  induction first with
  | nil s => exact second
  | cons hok hone _ ih => exact .cons hok hone (ih second)

/-- Forgetting part of the side condition keeps a run a run. -/
theorem Machine.Path.mono {ok ok' : σ → α → Prop} (himp : ∀ s a,ok s a → ok' s a)
    {s t : σ} {as : List α} (path : m.Path ok s as t) : m.Path ok' s as t := by
  induction path with
  | nil s => exact .nil s
  | cons hok hone _ ih => exact .cons (himp _ _ hok) hone ih

/-- A computed run is a run under any condition its actions meet everywhere. -/
theorem Machine.path_of_run_ok {ok : σ → α → Prop} {s t : σ} {as : List α}
    (hok : ∀ a∈as,∀ s,ok s a) (h : m.run s as=some t) : m.Path ok s as t := by
  induction as generalizing s with
  | nil =>
    cases h
    exact .nil t
  | cons a as ih =>
    obtain ⟨u,hu,hrest⟩ := Option.bind_eq_some_iff.mp h
    exact .cons (hok a (.head _) s) hu (ih (fun b hb => hok b (.tail _ hb)) hrest)

/-- Execute a whole action list while a check of every state and action passes. -/
def Machine.checkedRun (m : Machine σ α) (check : σ → α → Bool) : σ → List α → Option σ
  | s,[] => some s
  | s,a::as => if check s a then (m.step s a).bind fun t => m.checkedRun check t as else none

/-- A checked run is a run under the condition that is checked. -/
theorem Machine.path_of_checkedRun {ok : σ → α → Prop} {check : σ → α → Bool}
    (hcheck : ∀ s a,check s a=true → ok s a) {s t : σ} {as : List α}
    (h : m.checkedRun check s as=some t) : m.Path ok s as t := by
  induction as generalizing s with
  | nil =>
    cases h
    exact .nil t
  | cons a as ih =>
    rw [Machine.checkedRun] at h
    split at h
    · obtain ⟨u,hu,hrest⟩ := Option.bind_eq_some_iff.mp h
      exact .cons (hcheck s a ‹_›) hu (ih hrest)
    · cases h

/-- A computed run is a run without side condition. -/
theorem Machine.path_of_run {s t : σ} {as : List α} (h : m.run s as=some t) :
    m.Path (fun _ _ => True) s as t :=
  Machine.path_of_run_ok (fun _ _ _ => trivial) h

/-- When admissible steps keep one condition, the others break it, and broken
runs stay broken, a run ends unbroken exactly when it was admissible. -/
theorem Machine.path_iff_of_broken {ok : σ → α → Prop} {I J : σ → Prop}
    (hkeep : ∀ s a t,I s → m.step s a=some t → ok s a → I t)
    (hbreak : ∀ s a t,I s → m.step s a=some t → ¬ok s a → J t)
    (hbroken : ∀ s a t,J s → m.step s a=some t → J t)
    {s t : σ} {as : List α} (hs : I s) (h : m.run s as=some t) :
    m.Path ok s as t ∧ I t ∨ ¬m.Path ok s as t ∧ J t := by
  induction as generalizing s with
  | nil =>
    cases h
    exact .inl ⟨.nil t,hs⟩
  | cons a as ih =>
    obtain ⟨u,hu,hrest⟩ := Option.bind_eq_some_iff.mp h
    have hsame : ∀ v,m.step s a=some v → v=u := fun v hv => Option.some.inj (hv.symm.trans hu)
    by_cases hok : ok s a
    · rcases ih (hkeep s a u hs hu hok) hrest with ⟨path,hend⟩ | ⟨hnone,hend⟩
      · exact .inl ⟨.cons hok hu path,hend⟩
      · refine .inr ⟨fun path => ?_,hend⟩
        cases path with
        | cons _ hone rest =>
          rw [hsame _ hone] at rest
          exact hnone rest
    · refine .inr ⟨fun path => ?_,?_⟩
      · cases path with
        | cons hadmissible _ _ => exact hok hadmissible
      · exact (Machine.path_of_run (m := m) hrest).preserves
          (fun s a t _ hj hone => hbroken s a t hj hone) (hbreak s a u hs hu hok)

/-- The reachability rule: initial states satisfy the invariant and every
admissible step keeps it. -/
theorem Machine.ReachableBy.induct {ok : σ → α → Prop} {I : σ → Prop}
    (hinit : ∀ s,m.initial s → I s)
    (hstep : ∀ s a t,ok s a → I s → m.step s a=some t → I t)
    {s : σ} (h : m.ReachableBy ok s) : I s := by
  obtain ⟨s₀,as,h₀,path⟩ := h
  exact path.preserves hstep (hinit s₀ h₀)

/-- The reachability rule without side condition. -/
theorem Machine.Reachable.induct {I : σ → Prop} (hinit : ∀ s,m.initial s → I s)
    (hstep : ∀ s a t,I s → m.step s a=some t → I t)
    {s : σ} (h : m.Reachable s) : I s :=
  Machine.ReachableBy.induct hinit (fun s a t _ => hstep s a t) h

/-- An invariant of the small moves is an invariant of what they compose to. -/
theorem closure_preserves {R : σ → σ → Prop} {I : σ → Prop}
    (hmove : ∀ s t,I s → R s t → I t) {s t : σ} (h : Relation.ReflTransGen R s t)
    (hs : I s) : I t := by
  induction h with
  | refl => exact hs
  | tail _ hlast ih => exact hmove _ _ ih hlast

/-- The reachability rule for steps that are sequences of small moves: the
invariant only has to be kept by every move. -/
theorem Machine.Reachable.induct_moves {R : σ → σ → Prop} {I : σ → Prop}
    (hinit : ∀ s,m.initial s → I s)
    (hsplit : ∀ s a t,I s → m.step s a=some t → Relation.ReflTransGen R s t)
    (hmove : ∀ s t,I s → R s t → I t) {s : σ} (h : m.Reachable s) : I s :=
  Machine.Reachable.induct hinit
    (fun s a t hs hone => closure_preserves hmove (hsplit s a t hs hone) hs) h

/-- One more step from a reachable state reaches a reachable state. -/
theorem Machine.Reachable.step {s t : σ} {a : α} (h : m.Reachable s)
    (hone : m.step s a=some t) : m.Reachable t := by
  obtain ⟨s₀,as,h₀,path⟩ := h
  exact ⟨s₀,as++[a],h₀,path.append (.cons trivial hone (.nil t))⟩

/-- A computed run from an initial state reaches its end. -/
theorem Machine.reachable_of_run {s t : σ} {as : List α} (h₀ : m.initial s)
    (h : m.run s as=some t) : m.Reachable t :=
  ⟨s,as,h₀,m.path_of_run h⟩

/-- A counter that every step raises to at least a measure of the new state,
and no further, is the largest measure met on a run. -/
theorem Machine.run_peak {I : σ → Prop} {f g : σ → ℕ}
    (hinv : ∀ s a t,I s → m.step s a=some t → I t)
    (hstep : ∀ s a t,I s → m.step s a=some t → g t=max (g s) (f t))
    {s t : σ} {as : List α} (hs : I s) (hbelow : f s ≤ g s) (h : m.run s as=some t) :
    g t=max (g s) (((m.trace s as).map f).foldr max 0) := by
  induction as generalizing s with
  | nil =>
    cases h
    simp only [Machine.trace,List.map_cons,List.map_nil,List.foldr_cons,List.foldr_nil]
    omega
  | cons a as ih =>
    obtain ⟨u,hu,hrest⟩ := Option.bind_eq_some_iff.mp h
    have hone := hstep s a u hs hu
    have hnext := ih (hinv s a u hs hu) (by omega) hrest
    have htail : f u≤ ((m.trace u as).map f).foldr max 0 := by
      cases as with
      | nil => exact Nat.le_max_left _ _
      | cons b bs => exact Nat.le_max_left _ _
    simp only [Machine.trace,hu,Option.map_some,Option.getD_some,List.map_cons,List.foldr_cons]
    omega

/-- The state of a run after its first actions. -/
def Machine.At (m : Machine σ α) (s : σ) (as : List α) (i : ℕ) (u : σ) : Prop :=
  i ≤ as.length ∧ m.run s (as.take i)=some u

/-- A run starts at position zero. -/
theorem Machine.at_start (s : σ) (as : List α) : m.At s as 0 s := ⟨Nat.zero_le _,rfl⟩

/-- A run has a state at each of its positions. -/
theorem Machine.exists_at {s t : σ} {as : List α} (h : m.run s as=some t) {i : ℕ}
    (hi : i ≤ as.length) : ∃ u,m.At s as i u := by
  rw [←List.take_append_drop i as,Machine.run_append] at h
  obtain ⟨u,hu,-⟩ := Option.bind_eq_some_iff.mp h
  exact ⟨u,hi,hu⟩

/-- A position has one state. -/
theorem Machine.At.unique {s u v : σ} {as : List α} {i : ℕ} (hu : m.At s as i u)
    (hv : m.At s as i v) : u=v :=
  Option.some.inj (hu.2.symm.trans hv.2)

/-- A run ends at its last position. -/
theorem Machine.at_end {s t : σ} {as : List α} (h : m.run s as=some t) :
    m.At s as as.length t := by
  refine ⟨Nat.le_refl _,?_⟩
  rw [List.take_length]
  exact h

/-- A later position is reached by a run from an earlier one. -/
theorem Machine.At.between {s u v : σ} {as : List α} {i j : ℕ} (hu : m.At s as i u)
    (hv : m.At s as j v) (hij : i ≤ j) : m.run u ((as.take j).drop i)=some v := by
  have hrun := hv.2
  rw [←List.take_append_drop i (as.take j),List.take_take,Nat.min_eq_left hij,
    Machine.run_append,hu.2] at hrun
  exact hrun

/-- Neighbouring positions are a step apart. -/
theorem Machine.At.step {s u v : σ} {as : List α} {i : ℕ} (hu : m.At s as i u)
    (hv : m.At s as (i+1) v) : ∃ a,as[i]?=some a ∧ m.step u a=some v := by
  have hbetween := hu.between hv (Nat.le_succ i)
  have hlength : ((as.take (i+1)).drop i).length=1 := by
    rw [List.length_drop,List.length_take,Nat.min_eq_left hv.1]
    omega
  obtain ⟨a,ha⟩ := List.length_eq_one_iff.mp hlength
  have haction : as[i]?=((as.take (i+1)).drop i)[0]? := by
    simp only [List.getElem?_drop,Nat.add_zero,List.getElem?_take_of_succ]
  rw [ha] at hbetween haction
  obtain ⟨t,ht,hrest⟩ := Option.bind_eq_some_iff.mp hbetween
  cases hrest
  exact ⟨a,haction,ht⟩

/-- Positions before a state of a run have states. -/
theorem Machine.At.before {s v : σ} {as : List α} {i j : ℕ} (hv : m.At s as j v) (hij : i ≤ j) :
    ∃ u,m.At s as i u := by
  have hfits : i ≤ (as.take j).length := by
    rw [List.length_take,Nat.min_eq_left hv.1]
    exact hij
  obtain ⟨u,-,hu⟩ := Machine.exists_at hv.2 hfits
  rw [List.take_take,Nat.min_eq_left hij] at hu
  exact ⟨u,Nat.le_trans hij hv.1,hu⟩

/-- A condition that holds at a later state and not at an earlier one begins
with a step between them. -/
theorem Machine.At.crossing {s u v : σ} {as : List α} {i j : ℕ} {P : σ → Prop}
    (hu : m.At s as i u) (hv : m.At s as j v) (hij : i ≤ j) (hnot : ¬P u) (hP : P v) :
    ∃ k x y,i ≤ k ∧ k+1 ≤ j ∧ m.At s as k x ∧ m.At s as (k+1) y ∧ ¬P x ∧ P y := by
  induction j generalizing v with
  | zero =>
    have hi : i=0 := Nat.le_zero.mp hij
    subst hi
    rw [hu.unique hv] at hnot
    exact absurd hP hnot
  | succ j ih =>
    by_cases hlast : i=j+1
    · subst hlast
      rw [hu.unique hv] at hnot
      exact absurd hP hnot
    · have hle : i ≤ j := by omega
      obtain ⟨t,ht⟩ := hv.before (Nat.le_succ j)
      by_cases hmiddle : P t
      · obtain ⟨k,x,y,hik,hkj,hx,hy,hstep⟩ := ih ht hle hmiddle
        exact ⟨k,x,y,hik,by omega,hx,hy,hstep⟩
      · exact ⟨j,t,v,hle,Nat.le_refl _,ht,hv,hmiddle,hP⟩

/-- Some continuation by admissible steps meets the goal. -/
def Machine.CanReach (m : Machine σ α) (ok : σ → α → Prop) (s : σ) (goal : σ → Prop) : Prop :=
  ∃ as t,m.Path ok s as t ∧ goal t

/-- A goal already met can be met. -/
theorem Machine.CanReach.here {ok : σ → α → Prop} {s : σ} {goal : σ → Prop} (h : goal s) :
    m.CanReach ok s goal :=
  ⟨[],s,.nil s,h⟩

/-- Take one step and go on. -/
theorem Machine.CanReach.step {ok : σ → α → Prop} {s t : σ} {a : α} {goal : σ → Prop}
    (hok : ok s a) (hone : m.step s a=some t) (h : m.CanReach ok t goal) :
    m.CanReach ok s goal := by
  obtain ⟨as,u,path,hu⟩ := h
  exact ⟨a::as,u,.cons hok hone path,hu⟩

/-- Meet a first goal, then a second one from wherever the first was met. The
continuation may use that it starts in a reachable state. -/
theorem Machine.CanReach.bind {ok : σ → α → Prop} {s : σ} {first second : σ → Prop}
    (hs : m.Reachable s) (h : m.CanReach ok s first)
    (hnext : ∀ t as,m.Path (fun _ _ => True) s as t → m.Reachable t → first t →
      m.CanReach ok t second) :
    m.CanReach ok s second := by
  obtain ⟨as,t,path,ht⟩ := h
  obtain ⟨s₀,before,h₀,start⟩ := hs
  have free := path.mono fun _ _ _ => trivial
  obtain ⟨bs,u,rest,hu⟩ := hnext t as free ⟨s₀,before++as,h₀,start.append free⟩ ht
  exact ⟨as++bs,u,path.append rest,hu⟩

end Hllm.RunInvariants
