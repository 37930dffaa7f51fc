import Hllm.ServingAdmission
import Mathlib

/-!
# The ledger of the server

What the tasks of all requests do together. A task changes what is shared by
giving back its slot and raising counters, both recorded in its request, and by
one turn in the queue. So slots and counters add up over the requests, and the
queue and the grants follow the order of arrival.
-/

namespace Hllm.ServingLedger

open RunInvariants (Machine)
open ServingAdmission

/-- What a task may do to the shared state once it is past the queue: the slots
it gives back and the counters it raises are recorded in its request. -/
structure Settles (f g : Frame) : Prop where
  maximum : g.shared.maximum=f.shared.maximum
  queued : g.shared.queued=f.shared.queued
  waiters : g.shared.waiters=f.shared.waiters
  grants : g.shared.grants=f.shared.grants
  cleanupFailed : g.shared.cleanupFailed=f.shared.cleanupFailed
  requests : g.shared.metrics.requests=f.shared.metrics.requests
  granted : g.own.granted=f.own.granted
  active_le : g.shared.active ≤ f.shared.active
  active : g.shared.active+g.own.returned=f.shared.active+f.own.returned
  counts : ∀ o,g.shared.metrics.count o+f.own.outcomes.count o=
    f.shared.metrics.count o+g.own.outcomes.count o

/-- Doing nothing settles. -/
theorem Settles.refl (f : Frame) : Settles f f :=
  ⟨rfl,rfl,rfl,rfl,rfl,rfl,rfl,le_refl _,rfl,fun _ => rfl⟩

/-- Settling composes. -/
theorem Settles.trans {f g h : Frame} (first : Settles f g) (second : Settles g h) :
    Settles f h where
  maximum := second.maximum.trans first.maximum
  queued := second.queued.trans first.queued
  waiters := second.waiters.trans first.waiters
  grants := second.grants.trans first.grants
  cleanupFailed := second.cleanupFailed.trans first.cleanupFailed
  requests := second.requests.trans first.requests
  granted := second.granted.trans first.granted
  active_le := second.active_le.trans first.active_le
  active := by
    have hfirst := first.active
    have hsecond := second.active
    omega
  counts o := by
    have hfirst := first.counts o
    have hsecond := second.counts o
    omega

/-- A change of the request alone settles when it leaves its records. -/
theorem settles_own {f : Frame} (own : Request) (hgranted : own.granted=f.own.granted)
    (hreturned : own.returned=f.own.returned) (houtcomes : own.outcomes=f.own.outcomes) :
    Settles f { f with own := own } := by
  refine ⟨rfl,rfl,rfl,rfl,rfl,rfl,hgranted,le_refl _,?_,fun o => ?_⟩
  · rw [hreturned]
  · rw [houtcomes]

/-- Raising the counter of an outcome adds to that counter alone. -/
theorem count_add (m : Metrics) (o outcome : Outcome) :
    (m.add outcome).count o=m.count o+if outcome=o then 1 else 0 := by
  cases outcome <;> cases o <;> rfl

/-- Raising a counter records it. -/
theorem settle_settles (outcome : Outcome) (f : Frame) : Settles f (settle outcome f) := by
  refine ⟨rfl,rfl,rfl,rfl,rfl,?_,rfl,le_refl _,rfl,fun o => ?_⟩
  · cases outcome <;> rfl
  · have hcount : (f.own.outcomes++[outcome]).count o=
        f.own.outcomes.count o+if outcome=o then 1 else 0 := by
      rw [List.count_append,List.count_singleton]
      simp only [beq_iff_eq]
    simp only [settle,count_add,hcount]
    omega

/-- Raising an error settles. -/
theorem raising_settles (error : ApiError) (f : Frame) : Settles f (raising error f) :=
  settles_own _ rfl rfl rfl

/-- Giving a slot back records it. -/
theorem giveBack_settles (f : Frame) : Settles f (giveBack f) := by
  refine ⟨rfl,rfl,rfl,rfl,rfl,rfl,rfl,?_,?_,fun _ => rfl⟩
  · simp only [giveBack]
    omega
  · simp only [giveBack]
    omega

/-- `release_slot` settles. -/
theorem releaseSlot_settles (f : Frame) : Settles f (releaseSlot f) := by
  unfold releaseSlot
  split
  · exact (settles_own { f.own with slotOwned := false } rfl rfl rfl).trans
      (giveBack_settles _)
  · exact Settles.refl f

/-- Suspending settles. -/
theorem suspend_settles (phase : Phase) (f : Frame) : Settles f (suspend phase f) :=
  settles_own _ rfl rfl rfl

/-- Leaving settles. -/
theorem leave_settles (f : Frame) : Settles f (leave f) := by
  unfold leave
  split
  · exact (releaseSlot_settles f).trans (suspend_settles _ _)
  · exact suspend_settles _ f

/-- Closing the native generator settles. -/
theorem closed_settles (exit : Exit) (f : Frame) : Settles f (closed exit f) := by
  have hreleased : Settles f (releaseSlot { f with own := { f.own with native := .closed } }) :=
    (settles_own { f.own with native := .closed } rfl rfl rfl).trans
      (releaseSlot_settles _)
  unfold closed afterEvents
  split
  · cases exit with
    | finished => exact hreleased.trans (suspend_settles _ _)
    | raised => exact hreleased.trans (suspend_settles _ _)
    | unwound => exact hreleased.trans (leave_settles _)
  · exact hreleased.trans (leave_settles _)

/-- The `finally` of the events settles. -/
theorem closeEvents_settles (exit : Exit) (f : Frame) : Settles f (closeEvents exit f) := by
  unfold closeEvents
  split
  · exact suspend_settles _ f
  · exact closed_settles exit f

/-- A failure settles. -/
theorem fail_settles (error : ApiError) (f : Frame) : Settles f (fail error f) :=
  ((settle_settles .failed f).trans (raising_settles _ _)).trans (closeEvents_settles _ _)

/-- An abandonment settles. -/
theorem abandonEvents_settles (f : Frame) : Settles f (abandonEvents (abandoned f)) := by
  have hnoted : Settles f (abandoned f) := settles_own _ rfl rfl rfl
  unfold abandonEvents
  split
  · exact hnoted.trans (closeEvents_settles _ _)
  · exact (hnoted.trans (settle_settles _ _)).trans (closeEvents_settles _ _)

/-- A yield settles when its continuation does. -/
theorem yieldEvent_settles {point : Point} {resume : Frame → Frame} {f : Frame}
    (h : Settles f (resume f)) : Settles f (yieldEvent point resume f) := by
  unfold yieldEvent
  split
  · exact suspend_settles _ f
  · exact h

/-- The events after success settle. -/
theorem yieldUsage_settles (f : Frame) : Settles f (yieldUsage f) := by
  unfold yieldUsage
  split
  · exact yieldEvent_settles (closeEvents_settles _ f)
  · exact closeEvents_settles _ f

/-- Success settles. -/
theorem succeed_settles (f : Frame) : Settles f (succeed f) :=
  ((settles_own { f.own with succeeded := true } rfl rfl rfl).trans
    (settle_settles .completed _)).trans (yieldEvent_settles (yieldUsage_settles _))

/-- The final decoding settles. -/
theorem flush_settles (flushed : Option Bool) (f : Frame) : Settles f (flush flushed f) := by
  match flushed with
  | none => exact fail_settles _ f
  | some false => exact succeed_settles f
  | some true => exact yieldEvent_settles (succeed_settles f)

/-- Asking for a token settles. -/
theorem nextToken_settles (f : Frame) : Settles f (nextToken f) := by
  unfold nextToken
  split
  · exact fail_settles _ f
  · exact (settles_own { f.own with native := .running } rfl rfl rfl).trans
      (suspend_settles _ _)

/-- Starting the events settles. -/
theorem startEvents_settles (f : Frame) : Settles f (startEvents f) := by
  unfold startEvents
  split
  · exact suspend_settles _ f
  · exact nextToken_settles f

/-- The loop after a chunk settles. -/
theorem afterToken_settles (stopped : Bool) (flushed : Option Bool) (f : Frame) :
    Settles f (afterToken stopped flushed f) := by
  unfold afterToken
  split
  · exact flush_settles flushed f
  · exact nextToken_settles f

/-- A token settles. -/
theorem takeToken_settles (effect : TokenEffect) (flushed : Option Bool) (f : Frame) :
    Settles f (takeToken effect flushed f) := by
  have hcounted : Settles f ⟨{ f.shared with metrics := { f.shared.metrics with
      generatedTokens := f.shared.metrics.generatedTokens+1 } },
      { f.own with native := .suspended }⟩ :=
    ⟨rfl,rfl,rfl,rfl,rfl,rfl,rfl,le_refl _,rfl,fun o => by cases o <;> rfl⟩
  refine hcounted.trans ?_
  match effect with
  | .raises => exact fail_settles _ _
  | .stop true => exact yieldEvent_settles (nextToken_settles _)
  | .stop false => exact nextToken_settles _
  | .pushed true stopped => exact yieldEvent_settles (afterToken_settles _ _ _)
  | .pushed false stopped => exact afterToken_settles _ _ _

/-- An interrupted wait settles. -/
theorem interrupted_settles (failure : Failure) (f : Frame) :
    Settles f (interrupted failure f) := by
  have hclosed : Settles f { f with own := { f.own with native := .closed } } :=
    settles_own _ rfl rfl rfl
  refine hclosed.trans ?_
  cases failure with
  | timeout => exact fail_settles _ _
  | rpc code => exact fail_settles _ _
  | cancelled => exact abandonEvents_settles _
  | other => exact fail_settles _ _

/-- The code after `acquire` settles. -/
theorem admitted_settles (late : Bool) (f : Frame) : Settles f (admitted late f) := by
  unfold admitted
  split
  · exact ((giveBack_settles f).trans (raising_settles _ _)).trans (suspend_settles _ _)
  · have howned : Settles f { f with own := { f.own with slotOwned := true } } :=
      settles_own _ rfl rfl rfl
    have hread : Settles f { f with own := { f.own with
        slotOwned := true
        expired := f.own.expired || late } } := settles_own _ rfl rfl rfl
    dsimp only
    split
    · exact howned.trans (suspend_settles _ _)
    · exact hread.trans (startEvents_settles _)

/-- A rejection settles. -/
theorem reject_settles (error : ApiError) (f : Frame) : Settles f (reject error f) :=
  ((settle_settles .rejected f).trans (raising_settles _ _)).trans (suspend_settles _ _)

/-- A step past the queue settles. -/
theorem advance_settles {ticket : ℕ} {f g : Frame} {event : Event} (hpast : ¬Queued f.own)
    (hstep : advance ticket f event=some g) : Settles f g := by
  have hqueue : ∀ phase : Phase,f.own.phase=phase → phase≠.polling ∧ phase≠.sleeping := by
    rintro phase rfl
    exact not_or.mp hpast
  unfold advance at hstep
  split at hstep
  · cases hstep
    exact settles_own _ rfl rfl rfl
  next hphase => exact absurd rfl (hqueue _ hphase).1
  next hphase => exact absurd rfl (hqueue _ hphase).1
  next hphase => exact absurd rfl (hqueue _ hphase).2
  next hphase => exact absurd rfl (hqueue _ hphase).1
  next hphase => exact absurd rfl (hqueue _ hphase).2
  · cases hstep
    exact startEvents_settles f
  · cases hstep
    have hnoted : Settles f (abandoned f) := settles_own _ rfl rfl rfl
    exact hnoted.trans (leave_settles _)
  · cases hstep
    exact takeToken_settles _ _ f
  · cases hstep
    have hclosed : Settles f { f with own := { f.own with native := .closed } } :=
      settles_own _ rfl rfl rfl
    exact hclosed.trans (flush_settles _ _)
  · cases hstep
    exact interrupted_settles _ f
  · cases hstep
    exact interrupted_settles _ f
  · cases hstep
    have hnoted : Settles f (abandoned f) := settles_own _ rfl rfl rfl
    exact hnoted.trans (suspend_settles _ _)
  · cases hstep
    exact Settles.refl f
  · cases hstep
    exact nextToken_settles f
  · cases hstep
    exact afterToken_settles _ _ f
  · cases hstep
    exact succeed_settles f
  · cases hstep
    exact yieldUsage_settles f
  · cases hstep
    exact closeEvents_settles _ f
  · cases hstep
    exact abandonEvents_settles f
  · cases hstep
    exact closed_settles _ f
  · cases hstep
    exact closed_settles _ f
  · cases hstep
    exact suspend_settles _ f
  · cases hstep
    exact leave_settles f
  · cases hstep
    exact leave_settles f
  · cases hstep

/-- What one step of a task does with the queue: its ticket stays in it or out
of it, leaves it, or leaves it with a slot. -/
inductive Turn (ticket : ℕ) (f g : Frame) : Prop
  | stays (settles : Settles f g) (same : Queued g.own ↔ Queued f.own)
  | leaves (was : Queued f.own) (left : ¬Queued g.own)
      (settles : Settles (leaveQueue ticket f) g)
  | granted (was : Queued f.own) (left : ¬Queued g.own) (free : ¬Waits ticket f.shared)
      (settles : Settles (leaveQueue ticket (grant ticket f)) g)

/-- The loop of `acquire` takes one turn. -/
theorem waitTurn_turn {ticket : ℕ} (late : Bool) {f : Frame} (hqueued : Queued f.own)
    (hfresh : Fresh f.own) : Turn ticket f (waitTurn ticket late f) := by
  have hrejected : Turn ticket f (reject queueExpired (leaveQueue ticket f)) :=
    .leaves hqueued (by simp [reject,suspend,Queued]) (reject_settles _ _)
  unfold waitTurn
  by_cases hwaits : Waits ticket f.shared
  · rw [if_pos hwaits]
    split
    · exact hrejected
    · refine .stays (suspend_settles _ f) ⟨fun _ => hqueued,fun _ => .inl rfl⟩
  · rw [if_neg hwaits]
    split
    · exact hrejected
    · refine .granted hqueued ?_ hwaits (admitted_settles _ _)
      by_cases hfailed : f.shared.cleanupFailed=true
      · exact (admitted_lost late hfresh hfailed).not_queued
      · exact (admitted_served late hfresh
          (Bool.eq_false_of_not_eq_true hfailed)).not_queued

/-- Every step of a task takes one turn. -/
theorem advance_turn {ticket : ℕ} {f g : Frame} {event : Event} (h : Sound f.own ∨ Lost f.own)
    (hstep : advance ticket f event=some g) : Turn ticket f g := by
  by_cases hqueued : Queued f.own
  · have hfresh : Fresh f.own := by
      rcases h with hsound | hlost
      · exact hsound.fresh hqueued
      · exact absurd hqueued hlost.not_queued
    unfold advance at hstep
    split at hstep
    · cases hstep
      exact .stays (settles_own _ rfl rfl rfl) Iff.rfl
    · cases hstep
      exact .leaves hqueued (by simp [reject,suspend,Queued]) (reject_settles _ _)
    · cases hstep
      exact .stays (suspend_settles _ f) ⟨fun _ => hqueued,fun _ => .inr rfl⟩
    · cases hstep
      exact waitTurn_turn _ hqueued hfresh
    · cases hstep
      have hnoted : Settles (leaveQueue ticket f) (abandoned (leaveQueue ticket f)) :=
        settles_own _ rfl rfl rfl
      exact .leaves hqueued (by simp [suspend,Queued]) (hnoted.trans (suspend_settles _ _))
    · cases hstep
      have hnoted : Settles (leaveQueue ticket f) (abandoned (leaveQueue ticket f)) :=
        settles_own _ rfl rfl rfl
      exact .leaves hqueued (by simp [suspend,Queued]) (hnoted.trans (suspend_settles _ _))
    all_goals simp_all [Queued]
  · refine .stays (advance_settles hqueued hstep) ⟨fun hnow => ?_,fun hwas => absurd hwas hqueued⟩
    rcases h with hsound | hlost
    · rcases advance_past (hsound.served hqueued) hstep with ⟨hserved,-⟩ | ⟨hgone,-⟩
      · exact absurd hnow hserved.not_queued
      · exact absurd hnow hgone.not_queued
    · exact absurd hnow (hlost.advance hstep).not_queued

/-- Replacing an element moves a sum by the difference. -/
theorem sum_set {α M : Type*} [AddCommMonoid M] (f : α → M) {l : List α} {i : ℕ} {a : α}
    (h : l[i]?=some a) (b : α) : ((l.set i b).map f).sum+f a=(l.map f).sum+f b := by
  induction l generalizing i with
  | nil => cases h
  | cons x l ih =>
    cases i with
    | zero =>
      rw [List.getElem?_cons_zero,Option.some.injEq] at h
      subst h
      simp only [List.set_cons_zero,List.map_cons,List.sum_cons]
      rw [add_right_comm,add_comm (f b),add_right_comm]
    | succ i =>
      rw [List.getElem?_cons_succ] at h
      simp only [List.set_cons_succ,List.map_cons,List.sum_cons]
      rw [add_assoc,ih h,add_assoc]

/-- The queue and the grants of the requests so far, in arrival order. -/
structure Lines (waiters grants : List ℕ) (requests : List Request) : Prop where
  sorted : waiters.Pairwise (· < ·)
  waiting : ∀ i,i∈waiters ↔ ∃ r,requests[i]?=some r ∧ Queued r
  ordered : grants.Pairwise (· < ·)
  before : ∀ i∈grants,∀ j∈waiters,i < j
  granted : ∀ i,i∈grants ↔ ∃ r,requests[i]?=some r ∧ r.granted=1

/-- A ticket that leaves an ordered queue is gone from it. -/
theorem mem_erase_sorted {l : List ℕ} (h : l.Pairwise (· < ·)) {i j : ℕ} :
    j∈l.erase i ↔ j≠i ∧ j∈l :=
  List.Nodup.mem_erase_iff (h.imp (fun hlt => Nat.ne_of_lt hlt))

/-- Who meets a condition after one request changed. -/
theorem exists_set_iff {requests : List Request} {ticket : ℕ} {r : Request}
    (hrequest : requests[ticket]?=some r) (new : Request) (p : Request → Prop) (i : ℕ) :
    (∃ x,(requests.set ticket new)[i]?=some x ∧ p x) ↔
      if i=ticket then p new else ∃ x,requests[i]?=some x ∧ p x := by
  by_cases hi : i=ticket
  · subst hi
    have hlt : i < requests.length := (List.getElem?_eq_some_iff.mp hrequest).1
    rw [if_pos rfl,List.getElem?_set_self hlt]
    simp only [Option.some.injEq,exists_eq_left']
  · rw [if_neg hi,List.getElem?_set_ne (Ne.symm hi)]

/-- A request that neither enters nor leaves keeps the lines. -/
theorem Lines.stays {waiters grants : List ℕ} {requests : List Request} {ticket : ℕ}
    {r new : Request} (h : Lines waiters grants requests) (hrequest : requests[ticket]?=some r)
    (hsame : Queued new ↔ Queued r) (hgranted : new.granted=r.granted) :
    Lines waiters grants (requests.set ticket new) := by
  have hkeeps : ∀ (p : Request → Prop) (i : ℕ),(p new ↔ p r) →
      ((∃ x,(requests.set ticket new)[i]?=some x ∧ p x) ↔ ∃ x,requests[i]?=some x ∧ p x) := by
    intro p i hp
    rw [exists_set_iff hrequest]
    split
    next hi =>
      subst hi
      simp only [hrequest,Option.some.injEq,exists_eq_left',hp]
    · rfl
  refine ⟨h.sorted,fun i => ?_,h.ordered,h.before,fun i => ?_⟩
  · rw [hkeeps Queued i hsame,h.waiting]
  · rw [hkeeps (·.granted=1) i (by rw [hgranted]),h.granted]

/-- A request that leaves the queue takes its ticket along. -/
theorem Lines.leaves {waiters grants : List ℕ} {requests : List Request} {ticket : ℕ}
    {r new : Request} (h : Lines waiters grants requests) (hrequest : requests[ticket]?=some r)
    (hleft : ¬Queued new) (hgranted : new.granted=r.granted) :
    Lines (waiters.erase ticket) grants (requests.set ticket new) := by
  refine ⟨h.sorted.erase _,fun i => ?_,h.ordered,?_,fun i => ?_⟩
  · rw [exists_set_iff hrequest,mem_erase_sorted h.sorted,h.waiting]
    split
    next hi => simp only [hi,ne_eq,not_true,false_and,hleft]
    next hi => simp only [ne_eq,hi,not_false_eq_true,true_and]
  · intro i hi j hj
    exact h.before i hi j (List.mem_of_mem_erase hj)
  · rw [exists_set_iff hrequest,h.granted]
    split
    next hi =>
      subst hi
      simp only [hrequest,Option.some.injEq,exists_eq_left',hgranted]
    · rfl

/-- The first ticket is granted last so far. -/
theorem Lines.grants {waiters grants : List ℕ} {requests : List Request} {ticket : ℕ}
    {r new : Request} (h : Lines waiters grants requests) (hrequest : requests[ticket]?=some r)
    (hfirst : waiters.head?=some ticket) (hleft : ¬Queued new) (hgranted : new.granted=1) :
    Lines (waiters.erase ticket) (grants++[ticket]) (requests.set ticket new) := by
  obtain ⟨rest,rfl⟩ := List.head?_eq_some_iff.mp hfirst
  obtain ⟨hbelow,hrest⟩ := List.pairwise_cons.mp h.sorted
  have hwaits : ticket∈ticket::rest := .head _
  refine ⟨h.sorted.erase _,fun i => ?_,?_,?_,fun i => ?_⟩
  · rw [exists_set_iff hrequest,mem_erase_sorted h.sorted,h.waiting]
    split
    next hi => simp only [hi,ne_eq,not_true,false_and,hleft]
    next hi => simp only [ne_eq,hi,not_false_eq_true,true_and]
  · refine List.pairwise_append.mpr ⟨h.ordered,List.pairwise_singleton _ _,?_⟩
    intro i hi j hj
    rw [List.mem_singleton.mp hj]
    exact h.before i hi ticket hwaits
  · intro i hi j hj
    rw [List.erase_cons_head] at hj
    rcases List.mem_append.mp hi with hold | hnew
    · exact h.before i hold j (.tail _ hj)
    · rw [List.mem_singleton.mp hnew]
      exact hbelow j hj
  · rw [exists_set_iff hrequest,List.mem_append,List.mem_singleton]
    split
    next hi => simp only [hi,or_true,hgranted]
    next hi =>
      rw [h.granted]
      simp only [hi,or_false]

/-- A new request queues behind the others. -/
theorem Lines.arrives {waiters grants : List ℕ} {requests : List Request} {new : Request}
    (h : Lines waiters grants requests) (hqueued : Queued new) (hnone : new.granted=0) :
    Lines (waiters++[requests.length]) grants (requests++[new]) := by
  have hwaiting : ∀ i∈waiters,i < requests.length := by
    intro i hi
    obtain ⟨r,hr,-⟩ := (h.waiting i).mp hi
    exact (List.getElem?_eq_some_iff.mp hr).1
  have hgranted : ∀ i∈grants,i < requests.length := by
    intro i hi
    obtain ⟨r,hr,-⟩ := (h.granted i).mp hi
    exact (List.getElem?_eq_some_iff.mp hr).1
  have hmember : ∀ (p : Request → Prop) (i : ℕ),(∃ r,(requests++[new])[i]?=some r ∧ p r) ↔
      (∃ r,requests[i]?=some r ∧ p r) ∨ i=requests.length ∧ p new := by
    intro p i
    rcases Nat.lt_trichotomy i requests.length with hi | hi | hi
    · rw [List.getElem?_append_left hi]
      simp only [hi.ne,false_and,or_false]
    · subst hi
      simp only [List.getElem?_concat_length,Option.some.injEq,exists_eq_left',true_and,
        List.getElem?_eq_none (Nat.le_refl _),reduceCtorEq,false_and,exists_false,false_or]
    · have hpast : requests.length+1 ≤ i := hi
      rw [List.getElem?_eq_none hi.le,List.getElem?_eq_none (by simpa using hpast)]
      simp only [reduceCtorEq,false_and,exists_false,hi.ne',or_self]
  refine ⟨?_,fun i => ?_,h.ordered,?_,fun i => ?_⟩
  · refine List.pairwise_append.mpr ⟨h.sorted,List.pairwise_singleton _ _,?_⟩
    intro i hi j hj
    rw [List.mem_singleton.mp hj]
    exact hwaiting i hi
  · rw [hmember,List.mem_append,List.mem_singleton,h.waiting]
    simp only [hqueued,and_true]
  · intro i hi j hj
    rcases List.mem_append.mp hj with hold | hnew
    · exact h.before i hi j hold
    · rw [List.mem_singleton.mp hnew]
      exact hgranted i hi
  · rw [hmember,h.granted]
    simp only [hnone,Nat.zero_ne_one,and_false,or_false]

/-- The bookkeeping of the server: lines in arrival order, and counters that add
up over the requests. -/
structure Ledger (w : World) : Prop where
  sound : ∀ r∈w.requests,Sound r ∨ Lost r
  active_le : w.shared.active ≤ w.shared.maximum
  lines : Lines w.shared.waiters w.shared.grants w.requests
  active : w.shared.active+(w.requests.map fun r => (r.returned : ℤ)).sum=
    (w.requests.map fun r => (r.granted : ℤ)).sum
  counts : ∀ o,w.shared.metrics.count o=(w.requests.map fun r => r.outcomes.count o).sum
  requests : w.shared.metrics.requests=w.requests.length

/-- A request that settles from books that agree keeps the ledger. -/
theorem Ledger.settles {w : World} {f g : Frame} {r : Request} {ticket : ℕ} (h : Ledger w)
    (hrequest : w.requests[ticket]?=some r) (hsettles : Settles f g)
    (hsound : Sound g.own ∨ Lost g.own) (hmaximum : f.shared.maximum=w.shared.maximum)
    (hbound : f.shared.active ≤ w.shared.maximum)
    (hactive : f.shared.active+r.granted=w.shared.active+f.own.granted)
    (hreturned : f.own.returned=r.returned) (hmetrics : f.shared.metrics=w.shared.metrics)
    (houtcomes : f.own.outcomes=r.outcomes)
    (hlines : Lines f.shared.waiters f.shared.grants (w.requests.set ticket g.own)) :
    Ledger ⟨g.shared,w.requests.set ticket g.own⟩ := by
  have hgrants := sum_set (fun r => (r.granted : ℤ)) hrequest g.own
  have hreturns := sum_set (fun r => (r.returned : ℤ)) hrequest g.own
  have hbooks := h.active
  have hsettled := hsettles.active
  simp only [hsettles.granted] at hgrants
  constructor
  · intro x hx
    rcases List.mem_or_eq_of_mem_set hx with hold | rfl
    · exact h.sound x hold
    · exact hsound
  · have hless := hsettles.active_le
    simp only [hsettles.maximum,hmaximum]
    omega
  · simpa only [hsettles.waiters,hsettles.grants] using hlines
  · simp only
    omega
  · intro o
    have hcount := sum_set (fun r => r.outcomes.count o) hrequest g.own
    have hraised := hsettles.counts o
    have hold := h.counts o
    rw [hmetrics,houtcomes] at hraised
    simp only at hcount ⊢
    omega
  · simp only [hsettles.requests,hmetrics,List.length_set]
    exact h.requests

/-- A turn keeps the ledger. -/
theorem Ledger.turn {w : World} {r : Request} {g : Frame} {ticket : ℕ} (h : Ledger w)
    (hrequest : w.requests[ticket]?=some r) (hturn : Turn ticket ⟨w.shared,r⟩ g)
    (hsound : Sound g.own ∨ Lost g.own) : Ledger ⟨g.shared,w.requests.set ticket g.own⟩ := by
  cases hturn with
  | stays hsettles hsame =>
    exact h.settles hrequest hsettles hsound rfl h.active_le rfl rfl rfl rfl
      (h.lines.stays hrequest hsame hsettles.granted)
  | leaves hwas hleft hsettles =>
    exact h.settles hrequest hsettles hsound rfl h.active_le rfl rfl rfl rfl
      (h.lines.leaves hrequest hleft hsettles.granted)
  | granted hwas hleft hfree hsettles =>
    have hfirst : w.shared.waiters.head?=some ticket := not_not.mp (not_or.mp hfree).1
    have hroom : w.shared.active < w.shared.maximum := not_le.mp (not_or.mp hfree).2
    have hfresh : Fresh r := by
      rcases h.sound r (List.mem_of_getElem? hrequest) with hgood | hlost
      · exact hgood.fresh hwas
      · exact absurd hwas hlost.not_queued
    have hone : g.own.granted=1 := by
      rw [hsettles.granted]
      simp only [leaveQueue,grant,hfresh.granted]
    refine h.settles hrequest hsettles hsound rfl ?_ ?_ rfl rfl rfl
      (h.lines.grants hrequest hfirst hleft hone)
    · simp only [leaveQueue,grant]
      omega
    · simp only [leaveQueue,grant]
      omega

/-- A turn takes no room. -/
theorem Turn.room {ticket : ℕ} {f g : Frame} (h : Turn ticket f g)
    (hticket : Queued f.own → ticket∈f.shared.waiters) :
    g.shared.active+g.shared.waiters.length ≤ f.shared.active+f.shared.waiters.length ∧
      g.shared.maximum=f.shared.maximum ∧ g.shared.queued=f.shared.queued := by
  cases h with
  | stays hsettles hsame =>
    have hless := hsettles.active_le
    rw [hsettles.waiters]
    exact ⟨by omega,hsettles.maximum,hsettles.queued⟩
  | leaves hwas hleft hsettles =>
    have hless := hsettles.active_le
    have hlength := List.length_erase_of_mem (hticket hwas)
    refine ⟨?_,hsettles.maximum,hsettles.queued⟩
    rw [hsettles.waiters]
    simp only [leaveQueue] at hless ⊢
    omega
  | granted hwas hleft hfree hsettles =>
    have hless := hsettles.active_le
    have hmem := hticket hwas
    have hlength := List.length_erase_of_mem hmem
    have hpositive := List.length_pos_of_mem hmem
    refine ⟨?_,hsettles.maximum,hsettles.queued⟩
    rw [hsettles.waiters]
    simp only [leaveQueue,grant] at hless ⊢
    omega

/-- The shared state once a request is counted and its ticket queued. -/
def enqueued (s : Shared) (ticket : ℕ) : Shared :=
  { s with
    metrics := { s.metrics with requests := s.metrics.requests+1 }
    waiters := s.waiters++[ticket] }

/-- A request as it arrives is queued and fresh. -/
theorem new_fresh (options : Options) (expired : Bool) :
    Queued (.new options expired) ∧ Fresh (.new options expired) :=
  ⟨.inl rfl,rfl,rfl,rfl,rfl,rfl,rfl,rfl,rfl⟩

/-- A counted request with its ticket queued keeps the ledger. -/
theorem Ledger.arrives {w : World} (h : Ledger w) (options : Options) (expired : Bool) :
    Ledger ⟨enqueued w.shared w.requests.length,w.requests++[.new options expired]⟩ := by
  obtain ⟨hqueued,hfresh⟩ := new_fresh options expired
  constructor
  · intro r hr
    rcases List.mem_append.mp hr with hold | hnew
    · exact h.sound r hold
    · rw [List.mem_singleton.mp hnew]
      exact .inl (.inl ⟨hqueued,hfresh⟩)
  · exact h.active_le
  · exact h.lines.arrives hqueued rfl
  · have hbooks := h.active
    simp only [List.map_append,List.map_cons,List.map_nil,List.sum_append,List.sum_cons,
      List.sum_nil,hfresh.granted,hfresh.returned,enqueued]
    omega
  · intro o
    simp only [List.map_append,List.map_cons,List.map_nil,List.sum_append,List.sum_cons,
      List.sum_nil,hfresh.outcomes,List.count_nil,Nat.add_zero]
    rw [←h.counts o]
    cases o <;> rfl
  · simp only [enqueued,h.requests,List.length_append,List.length_singleton]

/-- An arrival takes one turn with its ticket queued. -/
theorem arrive_turn {s : Shared} {ticket : ℕ} (options : Options) (expired late : Bool)
    (hnew : ticket∉s.waiters) :
    Turn ticket ⟨enqueued s ticket,.new options expired⟩
      (arrive ticket late ⟨s,.new options expired⟩) := by
  obtain ⟨hqueued,hfresh⟩ := new_fresh options expired
  dsimp only [arrive]
  split
  · refine .leaves hqueued (by simp [reject,suspend,Queued]) ?_
    have herase : (s.waiters++[ticket]).erase ticket=s.waiters := by
      rw [List.erase_append_right _ hnew,List.erase_cons_head,List.append_nil]
    simp only [leaveQueue,enqueued,herase]
    exact reject_settles _ _
  · exact waitTurn_turn late hqueued hfresh

/-- A new request is admitted to the queue only while there is room. -/
theorem arrive_room {s : Shared} {ticket : ℕ} (options : Options) (expired late : Bool)
    (hroom : s.active+s.waiters.length ≤ (s.maximum : ℤ)+s.queued) :
    let g := arrive ticket late ⟨s,.new options expired⟩
    g.shared.active+g.shared.waiters.length ≤ (g.shared.maximum : ℤ)+g.shared.queued ∧
      g.shared.maximum=s.maximum := by
  obtain ⟨hqueued,hfresh⟩ := new_fresh options expired
  dsimp only [arrive]
  split
  · have hsettles := reject_settles ⟨"serving queue is full",429,"rate_limit_error"⟩
      ⟨{ s with metrics := { s.metrics with requests := s.metrics.requests+1 } },
        .new options expired⟩
    have hless := hsettles.active_le
    rw [hsettles.waiters,hsettles.maximum,hsettles.queued]
    simp only at hless ⊢
    exact ⟨by omega,trivial⟩
  next hfree =>
    have hmem : ticket∈(enqueued s ticket).waiters := List.mem_append_right _ (.head _)
    have hturn := (waitTurn_turn (f := ⟨enqueued s ticket,.new options expired⟩) late hqueued
      hfresh).room fun _ => hmem
    obtain ⟨htaken,hmaximum,hlimit⟩ := hturn
    refine ⟨?_,hmaximum⟩
    simp only [enqueued,List.length_append,List.length_singleton] at htaken hmaximum hlimit ⊢
    rw [hmaximum,hlimit]
    push_cast at htaken
    omega

/-- Replacing the request that just arrived. -/
theorem set_arrived (requests : List Request) (new other : Request) :
    (requests++[new]).set requests.length other=requests++[other] := by
  rw [List.set_append_right _ _ (Nat.le_refl _),Nat.sub_self,List.set_cons_zero]

/-- Every step keeps the ledger. -/
theorem step_ledger {w w' : World} {a : Action} (h : Ledger w) (hstep : step w a=some w') :
    Ledger w' := by
  cases a with
  | submit options expired late =>
    simp only [step] at hstep
    split at hstep
    · cases hstep
      exact h
    next hclean =>
      cases hstep
      have hnew : w.requests.length∉w.shared.waiters := fun hmem => by
        obtain ⟨r,hr,-⟩ := (h.lines.waiting _).mp hmem
        exact absurd (List.getElem?_eq_some_iff.mp hr).1 (lt_irrefl _)
      have hturned := (h.arrives options expired).turn
        (List.getElem?_concat_length (l := w.requests)) (arrive_turn options expired late hnew)
        (.inl (arrive_sound _ _ _ _ _ (Bool.eq_false_of_not_eq_true hclean)))
      rw [set_arrived] at hturned
      exact hturned
  | runs ticket event =>
    obtain ⟨r,hrequest,hrest⟩ := Option.bind_eq_some_iff.mp hstep
    obtain ⟨g,hadvance,rfl⟩ := Option.map_eq_some_iff.mp hrest
    have hstate := h.sound r (List.mem_of_getElem? hrequest)
    refine h.turn hrequest (advance_turn hstate hadvance) ?_
    rcases hstate with hgood | hlost
    · rcases advance_sound hgood hadvance with ⟨hnext,-⟩ | ⟨hnext,-⟩
      · exact .inl hnext
      · exact .inr hnext
    · exact .inr (hlost.advance hadvance)
  | cleanupFails =>
    cases hstep
    exact ⟨h.sound,h.active_le,h.lines,h.active,h.counts,h.requests⟩

/-- Every step keeps within the capacity. -/
theorem step_room {w w' : World} {a : Action} (h : Ledger w) (hstep : step w a=some w')
    (hroom : w.shared.active+w.shared.waiters.length ≤ (w.shared.maximum : ℤ)+w.shared.queued) :
    w'.shared.active+w'.shared.waiters.length ≤
      (w'.shared.maximum : ℤ)+w'.shared.queued := by
  cases a with
  | submit options expired late =>
    simp only [step] at hstep
    split at hstep
    · cases hstep
      exact hroom
    · cases hstep
      exact (arrive_room options expired late hroom).1
  | runs ticket event =>
    obtain ⟨r,hrequest,hrest⟩ := Option.bind_eq_some_iff.mp hstep
    obtain ⟨g,hadvance,rfl⟩ := Option.map_eq_some_iff.mp hrest
    have hstate := h.sound r (List.mem_of_getElem? hrequest)
    obtain ⟨htaken,hmaximum,hlimit⟩ := (advance_turn hstate hadvance).room fun hqueued =>
      (h.lines.waiting ticket).mpr ⟨r,hrequest,hqueued⟩
    simp only at htaken hmaximum hlimit ⊢
    rw [hmaximum,hlimit]
    omega
  | cleanupFails =>
    cases hstep
    exact hroom

/-- The ledger of a server as it starts. -/
theorem initial_ledger (maximum queued : ℕ) :
    Ledger { shared := { maximum := maximum, queued := queued } } where
  sound r hr := absurd hr List.not_mem_nil
  active_le := Int.natCast_nonneg maximum
  lines := {
    sorted := .nil
    waiting := fun i => by simp
    ordered := .nil
    before := fun i hi => absurd hi List.not_mem_nil
    granted := fun i => by simp }
  active := rfl
  counts o := by cases o <;> rfl
  requests := rfl

/-- The ledger of every reachable server, within its capacity. -/
theorem reachable_ledger {w : World} (h : server.Reachable w) :
    Ledger w ∧ w.shared.active+w.shared.waiters.length ≤
      (w.shared.maximum : ℤ)+w.shared.queued := by
  refine Machine.Reachable.induct
    (I := fun w => Ledger w ∧ w.shared.active+w.shared.waiters.length ≤
      (w.shared.maximum : ℤ)+w.shared.queued) ?_ ?_ h
  · rintro s ⟨maximum,queued,-,-,-,rfl⟩
    refine ⟨initial_ledger maximum queued,?_⟩
    simp only [List.length_nil]
    omega
  · intro s a t hs hone
    exact ⟨step_ledger hs.1 hone,step_room hs.1 hone hs.2⟩

/-- What a request did with slots. -/
theorem slots_once {r : Request} (h : Sound r ∨ Lost r) :
    r.returned ≤ r.granted ∧ r.granted ≤ 1 ∧ r.early=false ∧
      (r.phase=.ended → r.returned=r.granted) := by
  have hfresh : Fresh r → r.returned ≤ r.granted ∧ r.granted ≤ 1 ∧ r.early=false ∧
      (r.phase=.ended → r.returned=r.granted) := fun hf => by
    rw [hf.granted,hf.returned]
    exact ⟨Nat.le_refl _,Nat.zero_le _,hf.early,fun _ => rfl⟩
  have hreleased : Released r → r.returned ≤ r.granted ∧ r.granted ≤ 1 ∧ r.early=false ∧
      (r.phase=.ended → r.returned=r.granted) := fun hr =>
    ⟨hr.returned.le,hr.granted,hr.early,fun _ => hr.returned⟩
  have hholding : Holding r → r.phase≠.ended → r.returned ≤ r.granted ∧ r.granted ≤ 1 ∧
      r.early=false ∧ (r.phase=.ended → r.returned=r.granted) := fun hh hphase => by
    rw [hh.granted,hh.returned]
    exact ⟨Nat.zero_le _,Nat.le_refl _,hh.early,fun hended => absurd hended hphase⟩
  rcases h with (⟨-,hf⟩ | hserved) | hlost
  · exact hfresh hf
  · cases hphase : r.phase with
    | polling => exact absurd (Or.inl hphase) hserved.not_queued
    | sleeping => exact absurd (Or.inr hphase) hserved.not_queued
    | yielded point =>
      rw [Served,hphase] at hserved
      have hheld : Holding r := by cases point <;> exact hserved.1
      simpa only [hphase] using hholding hheld fun h => by rw [hphase] at h; cases h
    | tail lines =>
      rw [Served,hphase] at hserved
      simpa only [hphase] using hreleased hserved.1
    | ended =>
      rw [Served,hphase] at hserved
      simpa only [hphase] using hreleased hserved.1
    | _ =>
      rw [Served,hphase] at hserved
      simpa only [hphase] using hholding hserved.1 fun h => by rw [hphase] at h; cases h
  · exact hreleased hlost.released

/-- The accounting of admission in one state. -/
structure Accounted (w : World) : Prop where
  active_bounds : 0 ≤ w.shared.active ∧ w.shared.active ≤ w.shared.maximum
  capacity : w.shared.active+w.shared.waiters.length ≤ (w.shared.maximum : ℤ)+w.shared.queued
  /-- The waiters are the tickets of the requests in the queue, in arrival order. -/
  waiting : w.shared.waiters.Pairwise (· < ·) ∧
    ∀ i,i∈w.shared.waiters ↔ ∃ r,w.requests[i]?=some r ∧ Queued r
  /-- Slots were granted in arrival order, and to none that came after a request
  still waiting. -/
  order : w.shared.grants.Pairwise (· < ·) ∧
    (∀ i∈w.shared.grants,∀ j∈w.shared.waiters,i < j) ∧
    ∀ i,i∈w.shared.grants ↔ ∃ r,w.requests[i]?=some r ∧ r.granted=1
  /-- The active slots are those granted and not given back. -/
  slots : w.shared.active=
    (w.requests.map fun r => (r.granted : ℤ)).sum-(w.requests.map fun r => (r.returned : ℤ)).sum
  /-- A slot is given back once, by the time its request has ended. -/
  once : ∀ r∈w.requests,r.granted ≤ 1 ∧ r.returned ≤ r.granted ∧
    (r.phase=.ended → r.returned=r.granted)
  /-- No slot was given back over an open native generator. -/
  late : ∀ r∈w.requests,r.early=false

/-- Admission is accounted for in every state of every run. -/
theorem admission_accounted {w : World} (h : server.Reachable w) : Accounted w := by
  obtain ⟨hledger,hcapacity⟩ := reachable_ledger h
  have hslots := hledger.active
  have hsums : (w.requests.map fun r => (r.returned : ℤ)).sum ≤
      (w.requests.map fun r => (r.granted : ℤ)).sum := by
    refine List.sum_le_sum fun r hr => ?_
    exact Int.ofNat_le.mpr (slots_once (hledger.sound r hr)).1
  refine ⟨⟨by omega,hledger.active_le⟩,hcapacity,⟨hledger.lines.sorted,hledger.lines.waiting⟩,
    ⟨hledger.lines.ordered,hledger.lines.before,hledger.lines.granted⟩,by omega,
    fun r hr => ?_,fun r hr => ?_⟩
  · obtain ⟨hreturned,hgranted,-,hended⟩ := slots_once (hledger.sound r hr)
    exact ⟨hgranted,hreturned,hended⟩
  · exact (slots_once (hledger.sound r hr)).2.2.1

/-- A server with one slot and two places in its queue. -/
def single : World := { shared := { maximum := 1, queued := 2 } }

/-- A stream is aborted at its last event, one queued request expires, and the
next is granted the slot. -/
def abortedRun : List Action :=
  [.submit ⟨true,false,false⟩ false false,.submit ⟨false,false,false⟩ false false,
    .submit ⟨false,false,false⟩ false false,.runs 0 (.pull none),
    .runs 0 (.token (.pushed true true) none),.runs 0 (.pull (some false)),.runs 0 .abandon,
    .runs 1 .expire,.runs 0 (.retired false),.runs 1 (.polled false),.runs 1 (.slept false),
    .runs 2 (.polled false),.runs 2 (.slept false),.runs 2 .abandon,.runs 2 .expire,
    .runs 2 (.raised .cancelled)]

/-- The aborted run is accounted for. -/
theorem aborted_accounted : ∃ w,server.run single abortedRun=some w ∧
    w.shared.grants=[0,2] ∧ Accounted w := by
  have hcheck : (server.run single abortedRun).any (fun w =>
      decide (w.shared.grants=[0,2]))=true := by decide +kernel
  obtain ⟨w,hw,hgrants⟩ := (Option.any_eq_true _ _).mp hcheck
  refine ⟨w,hw,of_decide_eq_true hgrants,admission_accounted ?_⟩
  exact Machine.reachable_of_run ⟨1,2,by decide,by decide,by decide,rfl⟩ hw

/-- The outcomes of a server whose requests have all ended add up, one for each
counted request, and a request abandoned late failed. -/
structure Conserved (w : World) : Prop where
  total : w.shared.metrics.requests=w.shared.metrics.completed+w.shared.metrics.failed+
    w.shared.metrics.cancelled+w.shared.metrics.rejected
  counts : ∀ o,w.shared.metrics.count o=(w.requests.map fun r => r.outcomes.count o).sum
  once : ∀ r∈w.requests,r.outcomes.length=1
  late : ∀ r∈w.requests,r.abandonedLate=true → r.outcomes=[.failed]

/-- The step ends a request without an outcome. -/
def LosesRequest (w : World) : Action → Prop
  | .runs ticket event => ∃ r,w.requests[ticket]?=some r ∧ Loses ticket ⟨w.shared,r⟩ event
  | .submit _ _ _ => False
  | .cleanupFails => False

/-- A step that loses no request keeps all of them sound. -/
theorem step_sound {w w' : World} {a : Action} (h : ∀ r∈w.requests,Sound r)
    (hstep : step w a=some w') (hkeeps : ¬LosesRequest w a) : ∀ r∈w'.requests,Sound r := by
  cases a with
  | submit options expired late =>
    simp only [step] at hstep
    split at hstep
    · cases hstep
      exact h
    next hclean =>
      cases hstep
      intro r hr
      rcases List.mem_append.mp hr with hold | hnew
      · exact h r hold
      · rw [List.mem_singleton.mp hnew]
        exact arrive_sound _ _ _ _ _ (Bool.eq_false_of_not_eq_true hclean)
  | runs ticket event =>
    obtain ⟨r,hrequest,hrest⟩ := Option.bind_eq_some_iff.mp hstep
    obtain ⟨g,hadvance,rfl⟩ := Option.map_eq_some_iff.mp hrest
    intro x hx
    rcases List.mem_or_eq_of_mem_set hx with hold | rfl
    · exact h x hold
    · rcases advance_sound (h r (List.mem_of_getElem? hrequest)) hadvance with
        ⟨hnext,-⟩ | ⟨-,hloses⟩
      · exact hnext
      · exact absurd ⟨r,hrequest,hloses⟩ hkeeps
  | cleanupFails =>
    cases hstep
    exact h

/-- A step that loses a request leaves a lost one. -/
theorem step_loses {w w' : World} {a : Action} (h : ∀ r∈w.requests,Sound r)
    (hstep : step w a=some w') (hloses : LosesRequest w a) : ∃ r∈w'.requests,Lost r := by
  cases a with
  | submit options expired late => exact absurd hloses not_false
  | runs ticket event =>
    obtain ⟨r,hrequest,hrest⟩ := Option.bind_eq_some_iff.mp hstep
    obtain ⟨g,hadvance,rfl⟩ := Option.map_eq_some_iff.mp hrest
    obtain ⟨x,hx,hgone⟩ := hloses
    rw [hrequest,Option.some.injEq] at hx
    subst hx
    have hlt := (List.getElem?_eq_some_iff.mp hrequest).1
    rcases advance_sound (h r (List.mem_of_getElem? hrequest)) hadvance with
      ⟨-,hkeeps⟩ | ⟨hlost,-⟩
    · exact absurd hgone hkeeps
    · exact ⟨g.own,List.mem_set hlt g.own,hlost⟩
  | cleanupFails => exact absurd hloses not_false

/-- A lost request stays. -/
theorem step_lost {w w' : World} {a : Action} (h : ∃ r∈w.requests,Lost r)
    (hstep : step w a=some w') : ∃ r∈w'.requests,Lost r := by
  obtain ⟨r,hr,hlost⟩ := h
  cases a with
  | submit options expired late =>
    simp only [step] at hstep
    split at hstep
    · cases hstep
      exact ⟨r,hr,hlost⟩
    · cases hstep
      exact ⟨r,List.mem_append_left _ hr,hlost⟩
  | runs ticket event =>
    obtain ⟨x,hrequest,hrest⟩ := Option.bind_eq_some_iff.mp hstep
    obtain ⟨g,hadvance,rfl⟩ := Option.map_eq_some_iff.mp hrest
    have hlt := (List.getElem?_eq_some_iff.mp hrequest).1
    obtain ⟨i,hi⟩ := List.getElem?_of_mem hr
    by_cases hsame : ticket=i
    · subst hsame
      rw [hrequest,Option.some.injEq] at hi
      subst hi
      exact ⟨g.own,List.mem_set hlt g.own,hlost.advance hadvance⟩
    · refine ⟨r,?_,hlost⟩
      exact List.mem_of_getElem? ((List.getElem?_set_ne hsame).trans hi)
  | cleanupFails =>
    cases hstep
    exact ⟨r,hr,hlost⟩

/-- The outcomes of requests that have one each. -/
theorem outcomes_total {requests : List Request} (h : ∀ r∈requests,r.outcomes.length=1) :
    (requests.map fun r => r.outcomes.count .completed).sum+
        (requests.map fun r => r.outcomes.count .failed).sum+
        (requests.map fun r => r.outcomes.count .cancelled).sum+
        (requests.map fun r => r.outcomes.count .rejected).sum=requests.length := by
  induction requests with
  | nil => rfl
  | cons r requests ih =>
    have hrest := ih fun x hx => h x (.tail _ hx)
    obtain ⟨o,ho⟩ := List.length_eq_one_iff.mp (h r (.head _))
    have hone : r.outcomes.count .completed+r.outcomes.count .failed+
        r.outcomes.count .cancelled+r.outcomes.count .rejected=1 := by
      rw [ho]
      cases o <;> rfl
    simp only [List.map_cons,List.sum_cons,List.length_cons]
    omega

/-- In a run after which all requests have ended, the outcomes are conserved
exactly when no step lost a request. -/
theorem outcomes_conserved_iff {s w : World} {actions : List Action} (h₀ : server.initial s)
    (hrun : server.run s actions=some w) (hended : ∀ r∈w.requests,r.phase=.ended) :
    Conserved w ↔ server.Path (fun w a => ¬LosesRequest w a) s actions w := by
  have hstart : ∀ r∈s.requests,Sound r := by
    obtain ⟨maximum,queued,-,-,-,rfl⟩ := h₀
    exact fun r hr => absurd hr List.not_mem_nil
  have hledger := (reachable_ledger (Machine.reachable_of_run h₀ hrun)).1
  rcases Machine.path_iff_of_broken (I := fun w => ∀ r∈w.requests,Sound r)
      (J := fun w => ∃ r∈w.requests,Lost r) (fun _ _ _ hs hone hok => step_sound hs hone hok)
      (fun _ _ _ hs hone hbad => step_loses hs hone (not_not.mp hbad))
      (fun _ _ _ hs hone => step_lost hs hone) hstart hrun with
    ⟨hpath,hsound⟩ | ⟨hnone,r,hr,hlost⟩
  · refine ⟨fun _ => hpath,fun _ => ?_⟩
    have hdecided : ∀ r∈w.requests,Decided r := by
      intro r hr
      have hphase := hended r hr
      have hserved := (hsound r hr).served (by simp [Queued,hphase])
      rw [Served,hphase] at hserved
      exact hserved.2
    have htotal := outcomes_total fun r hr => (hdecided r hr).once
    have hcompleted := hledger.counts .completed
    have hfailed := hledger.counts .failed
    have hcancelled := hledger.counts .cancelled
    have hrejected := hledger.counts .rejected
    have hrequests := hledger.requests
    simp only [Metrics.count] at hcompleted hfailed hcancelled hrejected
    exact ⟨by omega,hledger.counts,fun r hr => (hdecided r hr).once,
      fun r hr => (hdecided r hr).late⟩
  · refine ⟨fun hconserved => ?_,fun hpath => absurd hpath hnone⟩
    have honce := hconserved.once r hr
    rw [hlost.outcomes] at honce
    exact absurd honce (by decide)

/-- The outcomes of the aborted run are conserved, as it lost no request. -/
theorem aborted_conserved : ∃ w,server.run single abortedRun=some w ∧
    w.shared.metrics.requests=3 ∧
    (Conserved w ↔ server.Path (fun w a => ¬LosesRequest w a) single abortedRun w) := by
  have hcheck : (server.run single abortedRun).any (fun w =>
      decide (w.shared.metrics.requests=3) &&
        w.requests.all fun r => decide (r.phase=.ended))=true := by decide +kernel
  obtain ⟨w,hw,hfacts⟩ := (Option.any_eq_true _ _).mp hcheck
  simp only [Bool.and_eq_true,List.all_eq_true,decide_eq_true_eq] at hfacts
  exact ⟨w,hw,hfacts.1,
    outcomes_conserved_iff ⟨1,2,by decide,by decide,by decide,rfl⟩ hw hfacts.2⟩

/-- A task cancelled in the queue. -/
def queuedRun : List Action :=
  [.submit ⟨false,false,false⟩ false false,.submit ⟨false,false,false⟩ false false,
    .runs 1 .abandon,.runs 0 (.over (some false))]

/-- A waiting request is granted the slot of one whose cleanup went unconfirmed. -/
def unconfirmedRun : List Action :=
  [.submit ⟨false,false,false⟩ false false,.submit ⟨false,false,false⟩ false false,
    .runs 0 .abandon,.cleanupFails,.runs 0 (.raised .cancelled),.runs 1 (.polled false),
    .runs 1 (.slept false)]

/-- A stream whose response is abandoned before its generator starts. -/
def unstartedRun : List Action :=
  [.submit ⟨true,false,false⟩ false false,.runs 0 .abandon]

/-- A run ends all its requests with one outcome too few. -/
def Misses (actions : List Action) : Prop :=
  ∃ w,server.run single actions=some w ∧ (∀ r∈w.requests,r.phase=.ended) ∧
    w.shared.metrics.requests=w.shared.metrics.completed+w.shared.metrics.failed+
      w.shared.metrics.cancelled+w.shared.metrics.rejected+1

/-- Whether a run misses an outcome can be computed. -/
theorem misses_of_any {actions : List Action} (h : (server.run single actions).any (fun w =>
    w.requests.all (fun r => decide (r.phase=.ended)) &&
      decide (w.shared.metrics.requests=w.shared.metrics.completed+w.shared.metrics.failed+
        w.shared.metrics.cancelled+w.shared.metrics.rejected+1))=true) : Misses actions := by
  obtain ⟨w,hw,hchecks⟩ := (Option.any_eq_true _ _).mp h
  simp only [Bool.and_eq_true,List.all_eq_true,decide_eq_true_eq] at hchecks
  exact ⟨w,hw,hchecks.1,hchecks.2⟩

/-- Each of the three runs ends all its requests with one outcome too few. -/
theorem outcomes_missing : Misses queuedRun ∧ Misses unconfirmedRun ∧ Misses unstartedRun := by
  refine ⟨misses_of_any ?_,misses_of_any ?_,misses_of_any ?_⟩
  · decide +kernel
  · decide +kernel
  · decide +kernel

end Hllm.ServingLedger
