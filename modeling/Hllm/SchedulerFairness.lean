import Hllm.SchedulerDelivery
import Mathlib.Tactic.Common

/-!
# Dispatch order and the decode streak

The fairness of the scheduler rests on one saturating counter. While a
prefill waits, every decode dispatch is limited to what the counter leaves,
so the counter then grows by exactly the items dispatched and stays at most
eight. The same invariant gives every claim loop a positive limit, keeps
each queue's dispatch order, and makes decodes alternate with prefills.
-/

namespace Hllm.SchedulerFairness

open SchedulerModel SchedulerTickets SchedulerDelivery RunInvariants

variable {ι ο ε : Type} {w w' : World ι ο ε}

/-- Items pushed on one queue, oldest first. -/
def enqueuedOf (p : Bool) : List (Event ο ε) → List ℕ
  | [] => []
  | .enqueued c q::history => if q=p then c::enqueuedOf p history else enqueuedOf p history
  | _::history => enqueuedOf p history

/-- Items of one queue that entered the backend, oldest first. -/
def dispatchedOf (p : Bool) : List (Event ο ε) → List ℕ
  | [] => []
  | .dispatched members q::history =>
    if q=p then members++dispatchedOf p history else dispatchedOf p history
  | _::history => dispatchedOf p history

/-- Kind of the latest dispatch. -/
def lastDispatch : List (Event ο ε) → Option Bool
  | [] => none
  | .dispatched _ p::history => some ((lastDispatch history).getD p)
  | _::history => lastDispatch history

@[simp] theorem enqueuedOf_append (p : Bool) (h k : List (Event ο ε)) :
    enqueuedOf p (h++k)=enqueuedOf p h++enqueuedOf p k := by
  induction h with
  | nil => rfl
  | cons event h ih =>
    cases event <;> simp only [List.cons_append,enqueuedOf,ih]
    split <;> simp

@[simp] theorem dispatchedOf_append (p : Bool) (h k : List (Event ο ε)) :
    dispatchedOf p (h++k)=dispatchedOf p h++dispatchedOf p k := by
  induction h with
  | nil => rfl
  | cons event h ih =>
    cases event <;> simp only [List.cons_append,dispatchedOf,ih]
    split <;> simp

@[simp] theorem lastDispatch_append (h k : List (Event ο ε)) :
    lastDispatch (h++k)=(lastDispatch k).or (lastDispatch h) := by
  induction h with
  | nil => cases hk : lastDispatch k <;> simp [lastDispatch,hk]
  | cons event h ih =>
    cases event <;> simp only [List.cons_append,lastDispatch,ih]
    cases lastDispatch k <;> simp

/-- What keeps the queues fair, at one point of a run. -/
structure Fair (w : World ι ο ε) : Prop where
  /-- The configured batch size is valid. -/
  batch : 1 ≤ w.maximumDecodeBatch ∧ w.maximumDecodeBatch ≤ kMaximumDecodeBatch
  /-- The streak counter is saturated at its maximum. -/
  streak : w.decodeStreak ≤ kMaximumDecodeStreak
  /-- Claim loops have a positive limit within the storage array. -/
  limit : ∀ l limit stored,w.phase l=.claiming limit stored →
    1 ≤ limit ∧ limit ≤ kMaximumDecodeBatch ∧ stored.length ≤ limit
  /-- A decode dispatch never overtakes a waiting prefill by more than is left. -/
  capped : ∀ l limit stored,w.phase l=.claiming limit stored →
    (w.ticket l).call.prefill=false → w.prefills≠[] →
    limit ≤ kMaximumDecodeStreak-w.decodeStreak
  /-- Dispatched items and then queued ones follow the enqueue order. -/
  order : ∀ p,(dispatchedOf p w.history++w.queue p).Sublist (enqueuedOf p w.history)
  /-- A claim loop's items stand between the two. -/
  claimedOrder : ∀ l limit stored,w.phase l=.claiming limit stored →
    (dispatchedOf (w.ticket l).call.prefill w.history++(stored++
      w.queue (w.ticket l).call.prefill)).Sublist (enqueuedOf (w.ticket l).call.prefill w.history)
  /-- Only callers that have started are enqueued. -/
  started : ∀ c p,c∈enqueuedOf p w.history → w.phase c≠.absent
  /-- Nobody is enqueued twice. -/
  enqueuedOnce : ∀ p,(enqueuedOf p w.history).Nodup
  /-- A prefill dispatch resets the streak. -/
  afterPrefill : lastDispatch w.history=some true → w.decodeStreak=0
  /-- A second prefill in a row is chosen only without queued decodes. -/
  chosen : ∀ l limit stored,w.phase l=.claiming limit stored →
    (w.ticket l).call.prefill=true → lastDispatch w.history=some true → w.decodes=[]

/-- A fresh scheduler is fair. -/
theorem fair_start (blank : Call ι) : Fair (World.start (ο:=ο) (ε:=ε) blank) := by
  constructor <;> simp [World.start,kMaximumDecodeBatch,enqueuedOf,dispatchedOf,lastDispatch]
  exact ⟨rfl,rfl⟩

/-- Only claim loops matter among the phases: a transition that keeps queues,
counters, history and claim loops and starts no call keeps fairness. -/
theorem Fair.frame (h : Fair w) (hscheduler : w'.toScheduler=w.toScheduler)
    (hhistory : w'.history=w.history)
    (hclaiming : ∀ l limit stored,w'.phase l=.claiming limit stored →
      w.phase l=.claiming limit stored ∧ (w'.ticket l).call=(w.ticket l).call)
    (hstarted : ∀ c,w.phase c≠.absent → w'.phase c≠.absent) : Fair w' where
  batch := by rw [hscheduler]; exact h.batch
  streak := by rw [hscheduler]; exact h.streak
  limit := fun l limit stored hl => h.limit l limit stored (hclaiming l limit stored hl).1
  capped := fun l limit stored hl hk hp => by
    obtain ⟨hold,hcall⟩ := hclaiming l limit stored hl
    rw [hcall] at hk
    rw [hscheduler] at hp ⊢
    exact h.capped l limit stored hold hk hp
  order := by rw [hhistory,hscheduler]; exact h.order
  claimedOrder := fun l limit stored hl => by
    obtain ⟨hold,hcall⟩ := hclaiming l limit stored hl
    rw [hcall,hhistory,hscheduler]
    exact h.claimedOrder l limit stored hold
  started := fun c p hc => by
    rw [hhistory] at hc
    exact hstarted c (h.started c p hc)
  enqueuedOnce := by rw [hhistory]; exact h.enqueuedOnce
  afterPrefill := by rw [hhistory,hscheduler]; exact h.afterPrefill
  chosen := fun l limit stored hl hk hlast => by
    obtain ⟨hold,hcall⟩ := hclaiming l limit stored hl
    rw [hcall] at hk
    rw [hhistory] at hlast
    rw [hscheduler]
    exact h.chosen l limit stored hold hk hlast

/-- Moving one caller to a point outside the claim loop. -/
theorem Fair.move (h : Fair w) {c : ℕ} {phase : Phase ο ε}
    (hscheduler : w'.toScheduler=w.toScheduler) (hhistory : w'.history=w.history)
    (hticket : w'.ticket=w.ticket) (hphases : w'.phase=Function.update w.phase c phase)
    (hout : ∀ limit stored,phase≠.claiming limit stored) (habsent : phase≠.absent) : Fair w' := by
  refine h.frame hscheduler hhistory ?_ ?_
  · intro l limit stored hl
    rw [hphases] at hl
    by_cases he : l=c
    · rw [he,Function.update_self] at hl
      exact absurd hl (hout limit stored)
    · rw [Function.update_of_ne he] at hl
      exact ⟨hl,by rw [hticket]⟩
  · intro t ht
    rw [hphases]
    by_cases he : t=c
    · rw [he,Function.update_self]
      exact habsent
    · rwa [Function.update_of_ne he]

/-- The limit of a new leader is positive, since `next` passes over decodes
once the streak is used up and a prefill waits. -/
theorem Fair.limit_lead (h : Fair w) (hown : Ownership w) {c : ℕ} (hnext : w.next=some c) :
    1 ≤ w.limit (w.ticket c).call ∧ w.limit (w.ticket c).call ≤ kMaximumDecodeBatch ∧
      ((w.ticket c).call.prefill=false → w.prefills≠[] →
        w.limit (w.ticket c).call ≤ kMaximumDecodeStreak-w.decodeStreak) := by
  have hbatch := h.batch
  have hroom : (w.ticket c).call.prefill=false → w.prefills≠[] →
      w.decodeStreak < kMaximumDecodeStreak := by
    intro hkind hwait
    by_contra hfull
    have hhead : w.prefills.head?=some c := by
      rwa [Scheduler.next,if_pos ⟨hwait,.inr (Nat.le_of_not_lt hfull)⟩] at hnext
    have hk := ((hown.queued c true).mp (List.mem_of_mem_head? hhead)).2.2
    rw [hkind] at hk
    cases hk
  simp only [Scheduler.limit]
  cases hkind : (w.ticket c).call.prefill with
  | true => simp [kMaximumDecodeBatch]
  | false =>
    cases hp : w.prefills with
    | nil =>
      cases (w.ticket c).call.batchSupported <;> simp [kMaximumDecodeBatch]
      exact hbatch
    | cons a as =>
      have hlt := hroom hkind (by rw [hp]; simp)
      cases (w.ticket c).call.batchSupported <;>
        simp [kMaximumDecodeBatch,kMaximumDecodeStreak] at * <;> omega

/-- A new leader has a positive limit and, after a prefill, no decodes to pass. -/
theorem Fair.lead (h : Fair w) (hown : Ownership w) {c : ℕ} (hphase : w.phase c=.checking)
    (hidle : w.executing=0) (hnext : w.next=some c) : Fair (w.lead c) := by
  obtain ⟨hpos,hmax,hcap⟩ := h.limit_lead hown hnext
  have hself : ∀ l limit stored,(w.lead c).phase l=.claiming limit stored →
      l=c ∧ limit=w.limit (w.ticket c).call ∧ stored=[] := by
    intro l limit stored hl
    rw [World.lead_phase] at hl
    by_cases he : l=c
    · rw [he,Function.update_self] at hl
      cases hl
      exact ⟨he,rfl,rfl⟩
    · rw [Function.update_of_ne he] at hl
      have hn := hown.no_leader hphase hidle l
      rw [hl] at hn
      cases hn
  constructor
  case batch => exact h.batch
  case streak => exact h.streak
  case order => exact h.order
  case enqueuedOnce => exact h.enqueuedOnce
  case afterPrefill => exact h.afterPrefill
  case limit =>
    intro l limit stored hl
    obtain ⟨-,rfl,rfl⟩ := hself l limit stored hl
    exact ⟨hpos,hmax,Nat.zero_le _⟩
  case capped =>
    intro l limit stored hl hk hp
    obtain ⟨rfl,rfl,rfl⟩ := hself l limit stored hl
    exact hcap hk hp
  case claimedOrder =>
    intro l limit stored hl
    obtain ⟨-,rfl,rfl⟩ := hself l limit stored hl
    exact h.order _
  case started =>
    intro t p ht
    rw [World.lead_phase]
    by_cases he : t=c
    · rw [he,Function.update_self]
      simp
    · rw [Function.update_of_ne he]
      exact h.started t p ht
  case chosen =>
    intro l limit stored hl hk hlast
    obtain ⟨rfl,rfl,rfl⟩ := hself l limit stored hl
    have hzero := h.afterPrefill hlast
    have hhead := hown.next_head hnext
    rw [show (w.ticket l).call.prefill=true from hk] at hhead
    unfold Scheduler.next at hnext
    split at hnext
    · rename_i hcond
      rcases hcond.2 with hempty|hfull
      · exact hempty
      · rw [hzero] at hfull
        simp [kMaximumDecodeStreak] at hfull
    · have hkind := ((hown.queued l false).mp (List.mem_of_mem_head? hnext)).2.2
      rw [show (w.ticket l).call.prefill=true from hk] at hkind
      cases hkind

/-- A new ticket goes to the end of its queue and of the enqueue order. -/
theorem Fair.entered (h : Fair w) (hown : Ownership w) {c : ℕ} {call : Call ι}
    (hphase : w.phase c=.absent) (hfree : w.holder=none) : Fair (w.entered c call) := by
  have hclaiming : ∀ l limit stored,(w.entered c call).phase l≠.claiming limit stored := by
    intro l limit stored hl
    rw [World.entered_phase] at hl
    by_cases he : l=c
    · rw [he,Function.update_self] at hl
      cases hl
    · rw [Function.update_of_ne he] at hl
      have hu := hown.unlocked hfree l
      rw [hl] at hu
      cases hu
  have hnew : ∀ p,c∉enqueuedOf p w.history := fun p hm => h.started c p hm hphase
  constructor
  case batch => simpa using h.batch
  case streak => simpa using h.streak
  case limit => exact fun l limit stored hl => absurd hl (hclaiming l limit stored)
  case capped => exact fun l limit stored hl => absurd hl (hclaiming l limit stored)
  case claimedOrder => exact fun l limit stored hl => absurd hl (hclaiming l limit stored)
  case chosen => exact fun l limit stored hl => absurd hl (hclaiming l limit stored)
  case order =>
    intro p
    rw [World.entered_history,World.entered_toScheduler,queue_withQueue,dispatchedOf_append,
      enqueuedOf_append]
    simp only [dispatchedOf,enqueuedOf,List.append_nil]
    by_cases hk : p=call.prefill
    · rw [if_pos hk,if_pos hk.symm,←List.append_assoc,←hk]
      exact (h.order p).append (.refl _)
    · rw [if_neg hk,if_neg (Ne.symm hk),List.append_nil]
      exact h.order p
  case started =>
    intro t p ht
    rw [World.entered_phase]
    by_cases he : t=c
    · rw [he,Function.update_self]
      simp
    · rw [Function.update_of_ne he]
      rw [World.entered_history,enqueuedOf_append,List.mem_append] at ht
      rcases ht with ht|ht
      · exact h.started t p ht
      · simp only [enqueuedOf] at ht
        split at ht
        · exact absurd (List.mem_singleton.mp ht) he
        · cases ht
  case enqueuedOnce =>
    intro p
    rw [World.entered_history,enqueuedOf_append]
    simp only [enqueuedOf]
    split
    · refine List.nodup_append.mpr ⟨h.enqueuedOnce p,List.nodup_singleton c,?_⟩
      intro a ha b hb he
      rw [List.mem_singleton.mp hb] at he
      exact hnew p (he ▸ ha)
    · rw [List.append_nil]
      exact h.enqueuedOnce p
  case afterPrefill =>
    intro hlast
    have hold := h.afterPrefill (by simpa [lastDispatch] using hlast)
    simpa using hold

/-- An abandoned ticket leaves its queue; the others keep their order. -/
theorem Fair.abandon (h : Fair w) (hown : Ownership w) {c recheck : ℕ}
    (hphase : w.phase c=.checking) : Fair (w.abandon c recheck) := by
  have hclaiming : ∀ l limit stored,(w.abandon c recheck).phase l≠.claiming limit stored := by
    intro l limit stored hl
    rw [World.abandon_phase] at hl
    by_cases he : l=c
    · rw [he,Function.update_self] at hl
      cases hl
    · rw [Function.update_of_ne he] at hl
      have hu := hown.holder_of_locked (c:=c) (by rw [hphase]; rfl) he
      rw [hl] at hu
      cases hu
  constructor
  case batch => simpa using h.batch
  case streak => simpa using h.streak
  case limit => exact fun l limit stored hl => absurd hl (hclaiming l limit stored)
  case capped => exact fun l limit stored hl => absurd hl (hclaiming l limit stored)
  case claimedOrder => exact fun l limit stored hl => absurd hl (hclaiming l limit stored)
  case chosen => exact fun l limit stored hl => absurd hl (hclaiming l limit stored)
  case enqueuedOnce => exact h.enqueuedOnce
  case order =>
    intro p
    rw [World.abandon_history,World.abandon_toScheduler,queue_withQueue]
    split
    · rename_i hk
      rw [←hk]
      exact ((List.Sublist.refl _).append List.erase_sublist).trans (h.order p)
    · exact h.order p
  case started =>
    intro t p ht
    rw [World.abandon_phase]
    by_cases he : t=c
    · rw [he,Function.update_self]
      simp
    · rw [Function.update_of_ne he]
      exact h.started t p ht
  case afterPrefill =>
    intro hlast
    have hold := h.afterPrefill hlast
    simpa using hold

/-- Popping the front ticket during a claim loop, whether it is dropped or
taken, shortens the queue and moves at most that ticket into the storage. -/
theorem Fair.pop (h : Fair w) (hown : Ownership w) {c limit member : ℕ}
    {stored rest : List ℕ} (stored' : List ℕ) (hphase : w.phase c=.claiming limit stored)
    (hqueue : w.queue (w.ticket c).call.prefill=member::rest)
    (hscheduler : w'.toScheduler=w.withQueue (w.ticket c).call.prefill rest)
    (hhistory : w'.history=w.history)
    (hphases : w'.phase=Function.update w.phase c (.claiming limit stored'))
    (hcall : (w'.ticket c).call=(w.ticket c).call)
    (hstored : (stored'++rest).Sublist (stored++member::rest))
    (hlength : stored'.length ≤ limit) : Fair w' := by
  have hself : ∀ l limit' stored'',w'.phase l=.claiming limit' stored'' →
      l=c ∧ limit'=limit ∧ stored''=stored' := by
    intro l limit' stored'' hl
    rw [hphases] at hl
    by_cases he : l=c
    · rw [he,Function.update_self] at hl
      cases hl
      exact ⟨he,rfl,rfl⟩
    · rw [Function.update_of_ne he] at hl
      have hn := hown.alone (c:=c) (by rw [hphase]; rfl) he
      rw [hl] at hn
      cases hn
  obtain ⟨hpos,hmax,-⟩ := h.limit c limit stored hphase
  constructor
  case batch => simpa [hscheduler] using h.batch
  case streak => simpa [hscheduler] using h.streak
  case enqueuedOnce =>
    rw [hhistory]
    exact h.enqueuedOnce
  case limit =>
    intro l limit' stored'' hl
    obtain ⟨-,rfl,rfl⟩ := hself l limit' stored'' hl
    exact ⟨hpos,hmax,hlength⟩
  case capped =>
    intro l limit' stored'' hl hk hp
    obtain ⟨rfl,rfl,rfl⟩ := hself l limit' stored'' hl
    rw [hcall] at hk
    have hsame : (w.withQueue (w.ticket l).call.prefill rest).prefills=w.prefills := by
      rw [hk]
      rfl
    rw [hscheduler,hsame] at hp
    rw [hscheduler,decodeStreak_withQueue]
    exact h.capped l limit' stored hphase hk hp
  case order =>
    intro p
    rw [hhistory,hscheduler,queue_withQueue]
    split
    · rename_i hk
      have hold := h.order p
      rw [hk,hqueue] at hold
      rw [hk]
      exact ((List.Sublist.refl _).append (List.sublist_cons_self member rest)).trans hold
    · exact h.order p
  case claimedOrder =>
    intro l limit' stored'' hl
    obtain ⟨rfl,rfl,rfl⟩ := hself l limit' stored'' hl
    have hold := h.claimedOrder l limit' stored hphase
    rw [hqueue] at hold
    rw [hcall,hhistory,hscheduler,queue_withQueue,if_pos rfl]
    exact ((List.Sublist.refl _).append hstored).trans hold
  case started =>
    intro t p ht
    rw [hhistory] at ht
    rw [hphases]
    by_cases he : t=c
    · rw [he,Function.update_self]
      simp
    · rw [Function.update_of_ne he]
      exact h.started t p ht
  case afterPrefill =>
    rw [hhistory,hscheduler,decodeStreak_withQueue]
    exact h.afterPrefill
  case chosen =>
    intro l limit' stored'' hl hk hlast
    obtain ⟨rfl,rfl,rfl⟩ := hself l limit' stored'' hl
    rw [hcall] at hk
    rw [hhistory] at hlast
    have hsame : (w.withQueue (w.ticket l).call.prefill rest).decodes=w.decodes := by
      rw [hk]
      rfl
    rw [hscheduler,hsame]
    exact h.chosen l limit' stored hphase hk hlast

/-- A dropped ticket leaves the order. -/
theorem Fair.drop (h : Fair w) (hown : Ownership w) {c limit member recheck : ℕ}
    {stored rest : List ℕ} (hphase : w.phase c=.claiming limit stored)
    (hqueue : w.queue (w.ticket c).call.prefill=member::rest) :
    Fair (w.drop c member rest recheck) := by
  refine h.pop hown stored hphase hqueue rfl rfl ?_ ?_ ?_
    (h.limit c limit stored hphase).2.2
  · rw [←hphase,Function.update_eq_self]
    rfl
  · rw [World.drop_ticket,Function.update_apply]
    split
    · rename_i he
      rw [he]
    · rfl
  · exact (List.Sublist.refl _).append (List.sublist_cons_self member rest)

/-- A taken ticket goes to the end of the storage. -/
theorem Fair.take (h : Fair w) (hown : Ownership w) {c limit member : ℕ}
    {stored rest : List ℕ} (hphase : w.phase c=.claiming limit stored)
    (hqueue : w.queue (w.ticket c).call.prefill=member::rest) (hroom : stored.length < limit) :
    Fair (w.take c limit stored member rest) := by
  refine h.pop hown (stored++[member]) hphase hqueue rfl rfl rfl ?_ ?_ ?_
  · rw [World.take_ticket,Function.update_apply]
    split
    · rename_i he
      rw [he]
    · rfl
  · rw [List.append_assoc]
    exact .refl _
  · rw [List.length_append]
    exact hroom

/-- A dispatch advances the streak by its size, or resets it. -/
theorem Fair.launch (h : Fair w) (hown : Ownership w) {c limit : ℕ} {stored : List ℕ}
    (hphase : w.phase c=.claiming limit stored) : Fair (w.launch c stored) := by
  have hclaiming : ∀ l limit' stored',(w.launch c stored).phase l≠.claiming limit' stored' := by
    intro l limit' stored' hl
    rw [World.launch_phase] at hl
    by_cases he : l=c
    · rw [he,Function.update_self] at hl
      cases hl
    · rw [Function.update_of_ne he] at hl
      have hn := hown.alone (c:=c) (by rw [hphase]; rfl) he
      rw [hl] at hn
      cases hn
  have hqueues : ∀ p,(w.launch c stored).queue p=w.queue p := fun _ => rfl
  constructor
  case batch => exact h.batch
  case streak =>
    simp only [World.launch_toScheduler]
    split
    · exact Nat.zero_le _
    · exact Nat.min_le_right _ _
  case limit => exact fun l limit stored hl => absurd hl (hclaiming l limit stored)
  case capped => exact fun l limit stored hl => absurd hl (hclaiming l limit stored)
  case claimedOrder => exact fun l limit stored hl => absurd hl (hclaiming l limit stored)
  case chosen => exact fun l limit stored hl => absurd hl (hclaiming l limit stored)
  case order =>
    intro p
    rw [hqueues,World.launch_history,dispatchedOf_append,enqueuedOf_append]
    simp only [dispatchedOf,enqueuedOf,List.append_nil]
    split
    · rename_i hk
      rw [←hk,List.append_assoc]
      exact h.claimedOrder c limit stored hphase
    · rw [List.append_nil]
      exact h.order p
  case started =>
    intro t p ht
    rw [World.launch_phase]
    by_cases he : t=c
    · rw [he,Function.update_self]
      simp
    · rw [Function.update_of_ne he]
      exact h.started t p (by simpa [enqueuedOf] using ht)
  case enqueuedOnce => simpa [enqueuedOf] using h.enqueuedOnce
  case afterPrefill =>
    intro hlast
    have hk : (w.ticket c).call.prefill=true := by simpa [lastDispatch] using hlast
    simp [hk]

/-- Delivery and its record touch no queue and no streak. -/
theorem Fair.delivered (h : Fair w) (hown : Ownership w) {c : ℕ} {d : List ℕ}
    {result : Except (DispatchError ε) (List ο)} (hphase : w.phase c=.computed d result) :
    Fair (w.delivered c d result) := by
  have hclaiming : ∀ l limit stored,(w.delivered c d result).phase l≠.claiming limit stored := by
    intro l limit stored hl
    rw [World.delivered_phase] at hl
    by_cases he : l=c
    · rw [he,Function.update_self] at hl
      cases hl
    · rw [Function.update_of_ne he] at hl
      have hn := hown.alone (c:=c) (by rw [hphase]; rfl) he
      rw [hl] at hn
      cases hn
  have hqueues : ∀ p,(w.delivered c d result).queue p=w.queue p := fun _ => rfl
  constructor
  case batch => exact h.batch
  case streak => exact h.streak
  case limit => exact fun l limit stored hl => absurd hl (hclaiming l limit stored)
  case capped => exact fun l limit stored hl => absurd hl (hclaiming l limit stored)
  case claimedOrder => exact fun l limit stored hl => absurd hl (hclaiming l limit stored)
  case chosen => exact fun l limit stored hl => absurd hl (hclaiming l limit stored)
  case order =>
    intro p
    rw [hqueues,World.delivered_history,dispatchedOf_append,enqueuedOf_append]
    simpa [dispatchedOf,enqueuedOf] using h.order p
  case started =>
    intro t p ht
    rw [World.delivered_phase]
    by_cases he : t=c
    · rw [he,Function.update_self]
      simp
    · rw [Function.update_of_ne he]
      exact h.started t p (by simpa [enqueuedOf] using ht)
  case enqueuedOnce => simpa [enqueuedOf] using h.enqueuedOnce
  case afterPrefill => simpa [lastDispatch] using h.afterPrefill

/-- Every transition keeps fairness. -/
theorem Fair.transition (h : Fair w) (hown : Ownership w) (hstep : Transition w w') : Fair w' := by
  cases hstep with
  | configured hpos hmax _ =>
    exact ⟨⟨hpos,hmax⟩,h.streak,h.limit,h.capped,h.order,h.claimedOrder,h.started,
      h.enqueuedOnce,h.afterPrefill,h.chosen⟩
  | entered hphase hfree => exact h.entered hown hphase hfree
  | finish => exact h.move rfl rfl rfl rfl (by simp) (by simp)
  | abandon hphase => exact h.abandon hown hphase
  | rest => exact h.move rfl rfl rfl rfl (by simp) (by simp)
  | lead hphase _ _ hidle hnext => exact h.lead hown hphase hidle hnext
  | woken => exact h.move rfl rfl rfl rfl (by simp) (by simp)
  | drop hphase hqueue => exact h.drop hown hphase hqueue
  | take hphase hqueue hroom => exact h.take hown hphase hqueue hroom
  | retry => exact h.move rfl rfl rfl rfl (by simp) (by simp)
  | launch hphase => exact h.launch hown hphase
  | answered => exact h.move rfl rfl rfl rfl (by simp) (by simp)
  | delivered hphase => exact h.delivered hown hphase
  | cancel => exact h.frame rfl rfl (fun _ _ _ hl => ⟨hl,rfl⟩) (fun _ hc => hc)

/-- Fairness holds at every point of every interleaving. -/
theorem fair_reachable (h : (machine ι ο ε).Reachable w) : Fair w := by
  refine (Machine.Reachable.induct (I:=fun s => Ownership s ∧ Fair s) ?_ ?_ h).2
  · rintro s ⟨blank,rfl⟩
    exact ⟨ownership_start blank,fair_start blank⟩
  · rintro s a t ⟨hown,hfair⟩ hone
    rcases step_transition hone with rfl|hstep
    · exact ⟨hown,hfair⟩
    · exact ⟨hown.transition hstep,hfair.transition hown hstep⟩

/-- No prefill was dispatched. -/
def NoPrefill (later : List (Event ο ε)) : Prop := ∀ members,.dispatched members true∉later

/-- Across a run the history grows, and unless a prefill was dispatched the
streak has grown by exactly the decode items dispatched. -/
def Streak (w w' : World ι ο ε) : Prop :=
  ∃ later,w'.history=w.history++later ∧
    (NoPrefill later → w'.decodeStreak=w.decodeStreak+(dispatchedOf false later).length)

theorem streak_refl (w : World ι ο ε) : Streak w w :=
  ⟨[],(List.append_nil _).symm,fun _ => rfl⟩

theorem streak_trans (a b c : World ι ο ε) (hab : Streak a b) (hbc : Streak b c) : Streak a c := by
  obtain ⟨first,hfirst,hs⟩ := hab
  obtain ⟨second,hsecond,ht⟩ := hbc
  refine ⟨first++second,by rw [hsecond,hfirst,List.append_assoc],fun hno => ?_⟩
  rw [ht fun m hm => hno m (List.mem_append_right _ hm),
    hs fun m hm => hno m (List.mem_append_left _ hm),dispatchedOf_append,List.length_append]
  omega

/-- Transitions other than a dispatch keep the streak and record no items. -/
theorem streak_quiet {later : List (Event ο ε)} (hhistory : w'.history=w.history++later)
    (hstreak : w'.decodeStreak=w.decodeStreak) (hnone : dispatchedOf false later=[]) :
    Streak w w' :=
  ⟨later,hhistory,fun _ => by rw [hstreak,hnone]; rfl⟩

/-- While a prefill waits a decode dispatch fits into what the streak leaves,
so the saturating counter does not saturate. -/
theorem streak_transition (h : Fair w) (hwait : w.prefills≠[]) (hstep : Transition w w') :
    Streak w w' := by
  cases hstep with
  | @launch c limit stored hphase hend hsome =>
    refine ⟨_,World.launch_history ..,fun hno => ?_⟩
    cases hk : (w.ticket c).call.prefill with
    | true => exact absurd (by rw [hk]; exact .head _) (hno stored)
    | false =>
      have hcap := h.capped c limit stored hphase hk hwait
      have hlen := (h.limit c limit stored hphase).2.2
      have hstreak := h.streak
      simp only [World.launch_toScheduler,hk,dispatchedOf,if_true,List.append_nil,
        Bool.false_eq_true,if_false]
      omega
  | @entered c call => exact streak_quiet (World.entered_history ..) (by simp) rfl
  | @abandon c => exact streak_quiet (List.append_nil _).symm (by simp) rfl
  | @drop c => exact streak_quiet (List.append_nil _).symm (by simp) rfl
  | @take c => exact streak_quiet (List.append_nil _).symm (by simp) rfl
  | @delivered c d result => exact streak_quiet (World.delivered_history ..) rfl rfl
  | _ => exact streak_quiet (List.append_nil _).symm rfl rfl

/-- As long as a prefill waits and none is dispatched, the streak counts every
decode item. -/
theorem streak_path (h : (machine ι ο ε).Reachable w) {as : List (Action ι ο ε)}
    (path : (machine ι ο ε).Path (fun s _ => s.prefills≠[]) w as w') : Streak w w' := by
  refine path.relates (I:=fun s => Ownership s ∧ Fair s) streak_refl streak_trans ?_ ?_
    ⟨ownership_reachable h,fair_reachable h⟩
  · rintro s a t - ⟨hown,hfair⟩ hone
    rcases step_transition hone with rfl|hstep
    · exact ⟨hown,hfair⟩
    · exact ⟨hown.transition hstep,hfair.transition hown hstep⟩
  · rintro s a t hwait ⟨-,hfair⟩ hone
    rcases step_transition hone with rfl|hstep
    · exact streak_refl _
    · exact streak_transition hfair hwait hstep

/-- At most eight decode items pass a waiting prefill. -/
theorem decodes_bounded (h : (machine ι ο ε).Reachable w) {as : List (Action ι ο ε)}
    (path : (machine ι ο ε).Path (fun s _ => s.prefills≠[]) w as w') :
    ∃ later,w'.history=w.history++later ∧
      (NoPrefill later → (dispatchedOf false later).length ≤ kMaximumDecodeStreak) := by
  obtain ⟨later,hlater,hcount⟩ := streak_path h path
  refine ⟨later,hlater,fun hno => ?_⟩
  have hreach : (machine ι ο ε).Reachable w' := by
    obtain ⟨s₀,before,h₀,start⟩ := h
    exact ⟨s₀,before++as,h₀,start.append (path.mono fun _ _ _ => trivial)⟩
  have hmax := (fair_reachable hreach).streak
  have hsum := hcount hno
  omega

/-- A step that makes a caller at the loop head the leader. -/
theorem lead_of_step {a : Action ι ο ε} {c limit : ℕ} {stored : List ℕ}
    (hone : w.step a=some w') (hphase : w.phase c=.checking)
    (hlead : w'.phase c=.claiming limit stored) : w'=w.lead c ∧ w.next=some c := by
  rcases step_transition hone with rfl|hstep
  · rw [hphase] at hlead
    cases hlead
  · cases hstep with
    | @lead d _ _ _ _ hnext =>
      rw [World.lead_phase,Function.update_apply] at hlead
      split at hlead
      · rename_i he
        rw [he]
        exact ⟨rfl,hnext⟩
      · rw [hphase] at hlead
        cases hlead
    | _ =>
      simp only [World.entered_phase,World.finish_phase,World.abandon_phase,World.rest_phase,
        World.woken_phase,World.drop_phase,World.take_phase,World.retry_phase,
        World.launch_phase,World.answered_phase,World.delivered_phase,
        Function.update_apply] at hlead
      grind

/-- Fairness of the dispatch order at one point of a run and from it on. -/
structure DispatchOrder (w : World ι ο ε) : Prop where
  /-- Each queue's items enter the backend in the order they were enqueued. -/
  fifo : ∀ p,(dispatchedOf p w.history).Sublist (enqueuedOf p w.history) ∧
    (enqueuedOf p w.history).Nodup
  /-- At most eight decode items pass a waiting prefill before the next
  prefill dispatch. -/
  bounded : ∀ as w',(machine ι ο ε).Path (fun s _ => s.prefills≠[]) w as w' →
    ∃ later,w'.history=w.history++later ∧ (NoPrefill later → (dispatchedOf false later).length≤8)
  /-- A prefill is chosen right after a prefill dispatch only with no decode queued. -/
  alternate : ∀ a w' c limit stored,w.step a=some w' → w.phase c=.checking →
    w'.phase c=.claiming limit stored → (w.ticket c).call.prefill=true → w.decodes≠[] →
    lastDispatch w.history≠some true
  /-- Nor has one been queued by the time the chosen prefill is dispatched. -/
  stillAlternate : ∀ c limit stored,w.phase c=.claiming limit stored →
    (w.ticket c).call.prefill=true → w.decodes≠[] → lastDispatch w.history≠some true
  /-- The streak never exceeds eight. -/
  streak : w.decodeStreak≤8
  /-- Claim loops run with a positive limit, also where the streak is subtracted. -/
  limit : ∀ c limit stored,w.phase c=.claiming limit stored →
    1 ≤ limit ∧ limit≤8 ∧
      ((w.ticket c).call.prefill=false → w.prefills≠[] → 1≤8-w.decodeStreak)
  /-- A claim loop that ends with nothing claimed has emptied its queue, and
  its leader's own ticket is done. -/
  noSpin : ∀ c limit w',w.phase c=.claiming limit [] → w.step (.dispatch c)=some w' →
    w.queue (w.ticket c).call.prefill=[] ∧ (w.ticket c).done=true

/-- The dispatch order is fair in every reachable state and along every run. -/
theorem dispatch_order_fair (w : World ι ο ε) (h : (machine ι ο ε).Reachable w) :
    DispatchOrder w := by
  have hfair := fair_reachable h
  have hown := ownership_reachable h
  constructor
  case fifo =>
    exact fun p => ⟨(List.sublist_append_left _ _).trans (hfair.order p),hfair.enqueuedOnce p⟩
  case bounded => exact fun as w' path => decodes_bounded h path
  case streak => exact hfair.streak
  case stillAlternate =>
    exact fun c limit stored hc hk hdecodes hlast =>
      hdecodes (hfair.chosen c limit stored hc hk hlast)
  case alternate =>
    intro a w' c limit stored hone hphase hlead hk hdecodes hlast
    obtain ⟨rfl,-⟩ := lead_of_step hone hphase hlead
    exact hdecodes ((fair_reachable (h.step hone)).chosen c limit stored hlead hk hlast)
  case limit =>
    intro c limit stored hc
    obtain ⟨hpos,hmax,-⟩ := hfair.limit c limit stored hc
    refine ⟨hpos,hmax,fun hk hp => ?_⟩
    exact Nat.le_trans hpos (hfair.capped c limit stored hc hk hp)
  case noSpin =>
    intro c limit w' hc hone
    have hempty : w.queue (w.ticket c).call.prefill=[] := by
      by_contra hne
      have hpos := (hfair.limit c limit [] hc).1
      simp only [World.step,World.dispatch,hc] at hone
      rw [if_pos ⟨hne,hpos⟩] at hone
      cases hone
    refine ⟨hempty,?_⟩
    rcases ownTicket_reachable h c (by rw [hc]; rfl) with hm|⟨hdone,-⟩|⟨-,-,hhead⟩
    · rw [hc] at hm
      cases hm
    · exact hdone
    · rw [hempty] at hhead
      cases hhead

/-- With a leader dropped in the queue, the second decode is dispatched first. -/
theorem dispatch_order_of_dropped_leader :
    ∃ w,(machine Unit Unit Unit).run (World.start (sampleCall 0)) droppedLeaderRun=some w ∧
      dispatchedOf false w.history=[1] ∧ enqueuedOf false w.history=[0,1] ∧
      DispatchOrder w := by
  obtain ⟨w,hrun,hdispatched,henqueued⟩ : ∃ w,
      (machine Unit Unit Unit).run (World.start (sampleCall 0)) droppedLeaderRun=some w ∧
      dispatchedOf false w.history=[1] ∧ enqueuedOf false w.history=[0,1] := ⟨_,rfl,rfl,rfl⟩
  exact ⟨w,hrun,hdispatched,henqueued,
    dispatch_order_fair w (Machine.reachable_of_run ⟨_,rfl⟩ hrun)⟩

end Hllm.SchedulerFairness
