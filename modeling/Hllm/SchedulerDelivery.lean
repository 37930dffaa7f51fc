import Hllm.SchedulerTickets

/-!
# Exactly-once delivery

The record invariant ties every stored or returned outcome to the one
dispatch its item entered, so an output can reach only the call that queued
the item and a dropped item has never been computed. The run relations say
that an outcome is final, that a leader stays until its members have their
results, and that every call can always be brought to its end.
-/

namespace Hllm.SchedulerDelivery

open SchedulerModel SchedulerTickets RunInvariants

variable {ι ο ε : Type} {w w' : World ι ο ε}

/-- Items that entered the backend, in dispatch order. -/
def entered : List (Event ο ε) → List ℕ
  | [] => []
  | .dispatched members _::history => members++entered history
  | _::history => entered history

/-- Items whose dispatch was delivered, in delivery order. -/
def delivered : List (Event ο ε) → List ℕ
  | [] => []
  | .completed members _::history => members++delivered history
  | _::history => delivered history

/-- The share of dispatch item number `i` in the dispatch's result. -/
def itemOutcome (i : ℕ) : Except (DispatchError ε) (List ο) → Option (Outcome ο ε)
  | .error error => some (.thrown (.dispatch error))
  | .ok outputs => outputs[i]?.map .returned

/-- The outcome is the caller's share of the dispatch it was in, or its own
queue error and then its item never entered the backend. -/
def Settled (history : List (Event ο ε)) (c : ℕ) (outcome : Outcome ο ε) : Prop :=
  (∃ members result i,.completed members result∈history ∧ members[i]?=some c ∧
    itemOutcome i result=some outcome) ∨
  ((∃ error,outcome=.thrown (.queue error)) ∧ c∉entered history)

@[simp] theorem entered_append (h k : List (Event ο ε)) :
    entered (h++k)=entered h++entered k := by
  induction h with
  | nil => rfl
  | cons event h ih => cases event <;> simp [entered,ih]

@[simp] theorem delivered_append (h k : List (Event ο ε)) :
    delivered (h++k)=delivered h++delivered k := by
  induction h with
  | nil => rfl
  | cons event h ih => cases event <;> simp [delivered,ih]

/-- Members of a recorded dispatch entered the backend. -/
theorem mem_entered {h : List (Event ο ε)} {d : List ℕ} {p : Bool} {t : ℕ}
    (hd : .dispatched d p∈h) (ht : t∈d) : t∈entered h := by
  obtain ⟨before,after,rfl⟩ := List.append_of_mem hd
  rw [entered_append,List.mem_append]
  exact .inr (List.mem_append_left _ ht)

/-- A dispatch is kept as successful only with one output for each member. -/
theorem dispatchResult_ok {d : List ℕ} {answer : Except ε (List ο)} {outputs : List ο}
    (h : dispatchResult d answer=.ok outputs) : outputs.length=d.length := by
  cases answer with
  | error error => cases h
  | ok answers =>
    simp only [dispatchResult] at h
    split at h
    · cases h
      assumption
    · cases h

/-- Later events keep an outcome settled unless its item is dispatched. -/
theorem Settled.append {h : List (Event ο ε)} {c : ℕ} {o : Outcome ο ε} (hs : Settled h c o)
    (k : List (Event ο ε)) (hk : c∉entered k) : Settled (h++k) c o := by
  rcases hs with ⟨members,result,i,hmem,hi,ho⟩|⟨he,hout⟩
  · exact .inl ⟨members,result,i,List.mem_append_left k hmem,hi,ho⟩
  · refine .inr ⟨he,?_⟩
    rw [entered_append,List.mem_append,not_or]
    exact ⟨hout,hk⟩

/-- The history accounts for every ticket, result and outcome. -/
structure Record (w : World ι ο ε) : Prop where
  /-- No item enters the backend twice. -/
  once : (entered w.history).Nodup
  /-- No item is delivered twice. -/
  deliveredOnce : (delivered w.history).Nodup
  /-- A delivered item has its result. -/
  deliveredDone : ∀ c,c∈delivered w.history → (w.ticket c).done=true ∧ c∈entered w.history
  /-- Only claimed tickets of started calls enter the backend. -/
  unclaimed : ∀ c,w.phase c=.absent ∨ (w.ticket c).claimed=false → c∉entered w.history
  /-- Claimed tickets wait for their dispatch to enter the backend. -/
  pending : ∀ l c,c∈storage (w.phase l) → c∉entered w.history
  /-- Dropped tickets never enter the backend. -/
  dropped : ∀ c error,(w.ticket c).done=true → (w.ticket c).error=some (.queue error) →
    c∉entered w.history
  /-- The dispatch in the backend is on record. -/
  launched : ∀ l d,inBackend (w.phase l)=some d → ∃ p,.dispatched d p∈w.history
  /-- Delivered dispatches were in the backend. -/
  completedDispatched : ∀ d result,.completed d result∈w.history → ∃ p,.dispatched d p∈w.history
  /-- A successful dispatch has one output for each member. -/
  sized : ∀ l d outputs,w.phase l=.computed d (.ok outputs) → outputs.length=d.length
  /-- Stored results are settled. -/
  stored : ∀ c,(w.ticket c).done=true → Settled w.history c (w.ticket c).outcome
  /-- Ended calls are settled. -/
  ended : ∀ c o,w.phase c=.ended o → Settled w.history c o

/-- A fresh scheduler has no history. -/
theorem record_start (blank : Call ι) : Record (World.start (ο:=ο) (ε:=ε) blank) := by
  constructor <;> simp [World.start,entered,delivered,storage,inBackend]

/-- Transitions that keep tickets, history, dispatches and ended calls. -/
theorem Record.frame (h : Record w) (hticket : w'.ticket=w.ticket)
    (hhistory : w'.history=w.history)
    (habsent : ∀ t,w'.phase t=.absent → w.phase t=.absent)
    (hstorage : ∀ t,storage (w'.phase t)=storage (w.phase t))
    (hback : ∀ t,inBackend (w'.phase t)=inBackend (w.phase t))
    (hsized : ∀ t d outputs,w'.phase t=.computed d (.ok outputs) → outputs.length=d.length)
    (hended : ∀ t o,w'.phase t=.ended o → Settled w.history t o) : Record w' where
  once := by rw [hhistory]; exact h.once
  deliveredOnce := by rw [hhistory]; exact h.deliveredOnce
  deliveredDone := by rw [hhistory,hticket]; exact h.deliveredDone
  unclaimed := by
    rw [hhistory,hticket]
    exact fun c hc => h.unclaimed c (hc.imp_left (habsent c))
  pending := fun l c hc => by
    rw [hstorage] at hc
    rw [hhistory]
    exact h.pending l c hc
  dropped := by rw [hhistory,hticket]; exact h.dropped
  launched := fun l d hd => by
    rw [hback] at hd
    rw [hhistory]
    exact h.launched l d hd
  completedDispatched := by rw [hhistory]; exact h.completedDispatched
  sized := hsized
  stored := by rw [hhistory,hticket]; exact h.stored
  ended := by rw [hhistory]; exact hended

/-- Moving one caller to a program point that is neither absent nor a
successful answer nor an unsettled end. -/
theorem Record.move (h : Record w) {c : ℕ} {phase : Phase ο ε} (hticket : w'.ticket=w.ticket)
    (hhistory : w'.history=w.history) (hphases : w'.phase=Function.update w.phase c phase)
    (habsent : phase≠.absent) (hstorage : storage phase=storage (w.phase c))
    (hback : inBackend phase=inBackend (w.phase c))
    (hsized : ∀ d outputs,phase=.computed d (.ok outputs) → outputs.length=d.length)
    (hended : ∀ o,phase=.ended o → Settled w.history c o) : Record w' := by
  refine h.frame hticket hhistory ?_ ?_ ?_ ?_ ?_
  · intro t ht
    by_cases he : t=c
    · rw [hphases,he,Function.update_self] at ht
      exact absurd ht habsent
    · rwa [hphases,Function.update_of_ne he] at ht
  · intro t
    rw [hphases]
    exact update_agrees storage hstorage t
  · intro t
    rw [hphases]
    exact update_agrees inBackend hback t
  · intro t d outputs ht
    by_cases he : t=c
    · rw [hphases,he,Function.update_self] at ht
      exact hsized d outputs ht
    · rw [hphases,Function.update_of_ne he] at ht
      exact h.sized t d outputs ht
  · intro t o ht
    by_cases he : t=c
    · rw [hphases,he,Function.update_self] at ht
      rw [he]
      exact hended o ht
    · rw [hphases,Function.update_of_ne he] at ht
      exact h.ended t o ht

/-- A call that ends with its stored result is settled. -/
theorem Record.finish (h : Record w) {c : ℕ} (hphase : w.phase c=.checking)
    (hdone : (w.ticket c).done=true) : Record (w.finish c) := by
  refine h.move rfl rfl rfl (by simp) (by rw [hphase]; rfl) (by rw [hphase]; rfl) (by simp) ?_
  intro o ho
  cases ho
  exact h.stored c hdone

/-- An abandoned ticket was never claimed, so its item never entered the backend. -/
theorem Record.abandon (h : Record w) {c recheck : ℕ} (hphase : w.phase c=.checking)
    (hclaimed : (w.ticket c).claimed=false) : Record (w.abandon c recheck) := by
  refine h.move rfl rfl rfl (by simp) (by rw [hphase]; rfl) (by rw [hphase]; rfl) (by simp) ?_
  intro o ho
  cases ho
  exact .inr ⟨⟨_,rfl⟩,h.unclaimed c (.inr hclaimed)⟩

/-- A new call has entered neither the backend nor the record. -/
theorem Record.entered (h : Record w) {c : ℕ} {call : Call ι} (hphase : w.phase c=.absent) :
    Record (w.entered c call) := by
  have hnew := h.unclaimed c (.inl hphase)
  have hdelivered : c∉SchedulerDelivery.delivered w.history :=
    fun hm => hnew (h.deliveredDone c hm).2
  have hkeep : ∀ t o,Settled w.history t o →
      Settled (w.history++[.enqueued c call.prefill]) t o :=
    fun t o ht => ht.append _ (by simp [SchedulerDelivery.entered])
  constructor
  case stored =>
    intro t ht
    rw [World.entered_ticket,World.entered_history] at *
    by_cases he : t=c
    · rw [he,Function.update_self] at ht
      cases ht
    · rw [Function.update_of_ne he] at ht ⊢
      exact hkeep _ _ (h.stored t ht)
  case ended =>
    intro t o ht
    rw [World.entered_phase] at ht
    by_cases he : t=c
    · rw [he,Function.update_self] at ht
      cases ht
    · rw [Function.update_of_ne he] at ht
      exact hkeep _ _ (h.ended t o ht)
  all_goals
    have := h.once
    have := h.deliveredOnce
    have := h.deliveredDone
    have := h.unclaimed
    have := h.pending
    have := h.dropped
    have := h.launched
    have := h.completedDispatched
    have := h.sized
    simp only [World.entered_phase,World.entered_ticket,World.entered_history,
      Function.update_apply,entered_append,delivered_append,SchedulerDelivery.entered,
      SchedulerDelivery.delivered,List.append_nil,List.mem_append]
    grind [storage,inBackend]

/-- A dropped ticket stores its own error and stays out of the backend. -/
theorem Record.drop (h : Record w) {c member recheck : ℕ} {rest : List ℕ}
    (hclaimed : (w.ticket member).claimed=false) : Record (w.drop c member rest recheck) := by
  have hout := h.unclaimed member (.inr hclaimed)
  constructor
  case once => exact h.once
  case deliveredOnce => exact h.deliveredOnce
  case pending => exact h.pending
  case launched => exact h.launched
  case completedDispatched => exact h.completedDispatched
  case sized => exact h.sized
  case ended => exact h.ended
  case stored =>
    intro t ht
    rw [World.drop_ticket] at *
    by_cases he : t=member
    · rw [he,Function.update_self]
      exact .inr ⟨⟨_,rfl⟩,hout⟩
    · rw [Function.update_of_ne he] at ht ⊢
      exact h.stored t ht
  all_goals
    have := h.deliveredDone
    have := h.unclaimed
    have := h.dropped
    simp only [World.drop_phase,World.drop_ticket,World.drop_history,Function.update_apply]
    grind

/-- A claimed ticket has not entered the backend yet. -/
theorem Record.take (h : Record w) {c limit member : ℕ} {stored rest : List ℕ}
    (hphase : w.phase c=.claiming limit stored) (hclaimed : (w.ticket member).claimed=false)
    (hdone : (w.ticket member).done=false) : Record (w.take c limit stored member rest) := by
  have hout := h.unclaimed member (.inr hclaimed)
  constructor
  case once => exact h.once
  case deliveredOnce => exact h.deliveredOnce
  case completedDispatched => exact h.completedDispatched
  case launched =>
    intro l d hd
    rw [World.take_phase,update_agrees inBackend (by rw [hphase]; rfl)] at hd
    exact h.launched l d hd
  case stored =>
    intro t ht
    rw [World.take_ticket] at *
    by_cases he : t=member
    · rw [he,Function.update_self,hdone] at ht
      cases ht
    · rw [Function.update_of_ne he] at ht ⊢
      exact h.stored t ht
  all_goals
    have := h.deliveredDone
    have := h.unclaimed
    have := h.pending
    have := h.dropped
    have := h.sized
    have := h.ended
    simp only [World.take_phase,World.take_ticket,World.take_history,Function.update_apply]
    grind [storage]

/-- Entering the backend records a dispatch of items that were not in it before. -/
theorem Record.launch (h : Record w) (hown : Ownership w) {c limit : ℕ} {stored : List ℕ}
    (hphase : w.phase c=.claiming limit stored) : Record (w.launch c stored) := by
  have hmember := hown.member c
  have hnodup := hown.groupNodup c
  have hpending := h.pending c
  have halone : ∀ l,l≠c → leads (w.phase l)=false :=
    fun l hl => hown.alone (by rw [hphase]; rfl) hl
  rw [hphase] at hmember hnodup hpending
  simp only [group,storage] at hmember hnodup hpending
  have hkeep : ∀ t o,Settled w.history t o → t∉stored →
      Settled (w.history++[.dispatched stored (w.ticket c).call.prefill]) t o :=
    fun t o ht hs => ht.append _ (by simpa [SchedulerDelivery.entered] using hs)
  constructor
  case once =>
    rw [World.launch_history,entered_append]
    simp only [SchedulerDelivery.entered,List.append_nil]
    exact List.nodup_append.mpr ⟨h.once,hnodup,fun a ha b hb he => hpending b hb (he ▸ ha)⟩
  case stored =>
    intro t ht
    refine hkeep _ _ (h.stored t ht) fun hs => ?_
    have hopen := (hmember t hs).2.2.1
    rw [World.launch_ticket,hopen] at ht
    cases ht
  case ended =>
    intro t o ht
    rw [World.launch_phase] at ht
    by_cases he : t=c
    · rw [he,Function.update_self] at ht
      cases ht
    · rw [Function.update_of_ne he] at ht
      refine hkeep _ _ (h.ended t o ht) fun hs => ?_
      have hlive := (hmember t hs).1
      rw [ht] at hlive
      cases hlive
  case pending =>
    intro l t ht
    rw [World.launch_phase] at ht
    by_cases he : l=c
    · rw [he,Function.update_self] at ht
      cases ht
    · rw [Function.update_of_ne he,(not_leads (halone l he)).2.1] at ht
      cases ht
  case launched =>
    intro l d hd
    rw [World.launch_phase] at hd
    by_cases he : l=c
    · rw [he,Function.update_self] at hd
      cases hd
      exact ⟨_,List.mem_append_right _ (.head _)⟩
    · rw [Function.update_of_ne he,(not_leads (halone l he)).2.2] at hd
      cases hd
  all_goals
    have := h.deliveredOnce
    have := h.deliveredDone
    have := h.unclaimed
    have := h.dropped
    have := h.completedDispatched
    have := h.sized
    simp only [World.launch_phase,World.launch_ticket,World.launch_history,Function.update_apply,
      entered_append,delivered_append,SchedulerDelivery.entered,SchedulerDelivery.delivered,
      List.append_nil,List.mem_append]
    grind [live]

/-- Member number `i` of a delivered dispatch holds its share of the result. -/
theorem outcome_deliver {d : List ℕ} {result : Except (DispatchError ε) (List ο)}
    (hsized : ∀ outputs,result=.ok outputs → outputs.length=d.length) {t : ℕ} (ht : t∈d)
    (ticket : Ticket ι ο ε) :
    itemOutcome (d.idxOf t) result=some (ticket.deliver (d.idxOf t) result).outcome := by
  cases result with
  | error error => rfl
  | ok outputs =>
    have hlt : d.idxOf t < outputs.length := by
      rw [hsized outputs rfl]
      exact List.idxOf_lt_length_of_mem ht
    simp [itemOutcome,Ticket.deliver,Ticket.outcome,List.getElem?_eq_getElem hlt]

/-- Delivery records the dispatch and settles all its members at once. -/
theorem Record.delivered (h : Record w) (hown : Ownership w) {c : ℕ} {d : List ℕ}
    {result : Except (DispatchError ε) (List ο)} (hphase : w.phase c=.computed d result) :
    Record (w.delivered c d result) := by
  have hmember := hown.member c
  have hnodup := hown.groupNodup c
  obtain ⟨p,hlaunched⟩ := h.launched c d (by rw [hphase]; rfl)
  have hin : ∀ t∈d,t∈SchedulerDelivery.entered w.history :=
    fun t ht => mem_entered hlaunched ht
  rw [hphase] at hmember hnodup
  simp only [group] at hmember hnodup
  have hopen : ∀ t∈d,t∉SchedulerDelivery.delivered w.history := by
    intro t ht hm
    have hd := (h.deliveredDone t hm).1
    rw [(hmember t ht).2.2.1] at hd
    cases hd
  have hdone : ∀ t i,((w.ticket t).deliver i result).done=true := by
    intro t i
    cases result <;> rfl
  have hclaimed : ∀ t i,((w.ticket t).deliver i result).claimed=(w.ticket t).claimed := by
    intro t i
    cases result <;> rfl
  have hqueue : ∀ t i e,((w.ticket t).deliver i result).error≠some (.queue e) := by
    intro t i e
    cases result <;> simp [Ticket.deliver]
  have hkeep : ∀ t o,Settled w.history t o → Settled (w.history++[.completed d result]) t o :=
    fun t o ht => ht.append _ (by simp [SchedulerDelivery.entered])
  constructor
  case stored =>
    intro t ht
    rw [World.delivered_history]
    simp only [World.delivered_ticket] at ht ⊢
    split
    · rename_i hm
      refine .inl ⟨d,result,d.idxOf t,by simp,?_,outcome_deliver ?_ hm _⟩
      · rw [List.getElem?_eq_getElem (List.idxOf_lt_length_of_mem hm),List.getElem_idxOf]
      · rintro outputs rfl
        exact h.sized c d outputs hphase
    · rename_i hm
      rw [if_neg hm] at ht
      exact hkeep _ _ (h.stored t ht)
  case ended =>
    intro t o ht
    rw [World.delivered_phase] at ht
    by_cases he : t=c
    · rw [he,Function.update_self] at ht
      cases ht
    · rw [Function.update_of_ne he] at ht
      exact hkeep _ _ (h.ended t o ht)
  case deliveredOnce =>
    rw [World.delivered_history,delivered_append]
    simp only [SchedulerDelivery.delivered,List.append_nil]
    exact List.nodup_append.mpr ⟨h.deliveredOnce,hnodup,fun a ha b hb he => hopen b hb (he ▸ ha)⟩
  case completedDispatched =>
    intro e r hm
    rw [World.delivered_history,List.mem_append,List.mem_singleton] at hm
    rcases hm with hm|hm
    · obtain ⟨q,hq⟩ := h.completedDispatched e r hm
      exact ⟨q,List.mem_append_left _ hq⟩
    · cases hm
      exact ⟨p,List.mem_append_left _ hlaunched⟩
  all_goals
    have := h.once
    have := h.deliveredDone
    have := h.unclaimed
    have := h.pending
    have := h.dropped
    have := h.launched
    have := h.sized
    simp only [World.delivered_phase,World.delivered_ticket,World.delivered_history,
      Function.update_apply,entered_append,delivered_append,SchedulerDelivery.entered,
      SchedulerDelivery.delivered,List.append_nil,List.mem_append]
    grind [storage,inBackend]

/-- Every transition keeps the record. -/
theorem Record.transition (h : Record w) (hown : Ownership w) (hstep : Transition w w') :
    Record w' := by
  cases hstep with
  | configured => exact h.frame rfl rfl (fun _ => id) (fun _ => rfl) (fun _ => rfl) h.sized h.ended
  | entered hphase _ => exact h.entered hphase
  | finish hphase hdone => exact h.finish hphase hdone
  | abandon hphase _ hclaimed _ => exact h.abandon hphase hclaimed
  | rest hphase =>
    exact h.move rfl rfl rfl (by simp) (by rw [hphase]; rfl) (by rw [hphase]; rfl) (by simp)
      (by simp)
  | lead hphase =>
    exact h.move rfl rfl rfl (by simp) (by rw [hphase]; rfl) (by rw [hphase]; rfl) (by simp)
      (by simp)
  | woken hphase =>
    exact h.move rfl rfl rfl (by simp) (by rw [hphase]; rfl) (by rw [hphase]; rfl) (by simp)
      (by simp)
  | drop _ hqueue => exact h.drop (hown.front hqueue).2.1
  | take hphase hqueue => exact h.take hphase (hown.front hqueue).2.1 (hown.front hqueue).2.2.1
  | retry hphase =>
    exact h.move rfl rfl rfl (by simp) (by rw [hphase]; rfl) (by rw [hphase]; rfl) (by simp)
      (by simp)
  | launch hphase => exact h.launch hown hphase
  | answered hphase =>
    refine h.move rfl rfl rfl (by simp) (by rw [hphase]; rfl) (by rw [hphase]; rfl) ?_ (by simp)
    intro d outputs he
    injection he with hd hr
    rw [←hd]
    exact dispatchResult_ok hr
  | delivered hphase => exact h.delivered hown hphase
  | cancel => exact h.frame rfl rfl (fun _ => id) (fun _ => rfl) (fun _ => rfl) h.sized h.ended

/-- Ownership and record hold at every point of every interleaving. -/
theorem record_reachable (h : (machine ι ο ε).Reachable w) : Record w := by
  refine (Machine.Reachable.induct (I:=fun s => Ownership s ∧ Record s) ?_ ?_ h).2
  · rintro s ⟨blank,rfl⟩
    exact ⟨ownership_start blank,record_start blank⟩
  · rintro s a t ⟨hown,hrec⟩ hone
    rcases step_transition hone with rfl|hstep
    · exact ⟨hown,hrec⟩
    · exact ⟨hown.transition hstep,hrec.transition hown hstep⟩

/-- Where a leader's own ticket is: in its group, dropped with its queue
error, or still at the head of its queue before the first claim. -/
def OwnTicket (w : World ι ο ε) (l : ℕ) : Prop :=
  l∈group (w.phase l) ∨
  ((w.ticket l).done=true ∧ ∃ error,(w.ticket l).error=some (.queue error)) ∨
  ((w.ticket l).claimed=false ∧ (∃ limit,w.phase l=.claiming limit []) ∧
    (w.queue (w.ticket l).call.prefill).head?=some l)

/-- Every transition keeps track of the leader's own ticket. -/
theorem ownTicket_transition (hown : Ownership w)
    (h : ∀ l,leads (w.phase l)=true → OwnTicket w l) (hstep : Transition w w') (l : ℕ)
    (hl : leads (w'.phase l)=true) : OwnTicket w' l := by
  cases hstep with
  | configured => exact h l hl
  | cancel => exact h l hl
  | @entered c call hphase hfree =>
    have hne : l≠c := by
      rintro rfl
      simp [leads] at hl
    have hnone := hown.unlocked hfree l
    have hold := h l
    simp only [OwnTicket,World.entered_phase,World.entered_ticket,Function.update_of_ne hne] at *
    grind [locked]
  | @finish c hphase hdone =>
    have hne : l≠c := by
      rintro rfl
      simp [leads] at hl
    have hold := h l
    simp only [OwnTicket,World.finish_phase,World.finish_ticket,Function.update_of_ne hne] at *
    exact hold hl
  | @abandon c now recheck hphase hdone hclaimed hstop =>
    have hne : l≠c := by
      rintro rfl
      simp [leads] at hl
    have hnone := hown.holder_of_locked (c:=c) (by rw [hphase]; rfl) hne
    have hold := h l
    simp only [OwnTicket,World.abandon_phase,World.abandon_ticket,Function.update_of_ne hne] at *
    grind [locked]
  | @rest c hphase hdone hwait =>
    have hne : l≠c := by
      rintro rfl
      simp [leads] at hl
    have hold := h l
    simp only [OwnTicket,World.rest_phase,World.rest_ticket,Function.update_of_ne hne] at *
    exact hold hl
  | @lead c hphase hdone hclaimed hidle hnext =>
    by_cases he : l=c
    · rw [he]
      exact .inr (.inr ⟨hclaimed,⟨_,Function.update_self ..⟩,hown.next_head hnext⟩)
    · rw [World.lead_phase,Function.update_of_ne he,hown.no_leader hphase hidle l] at hl
      cases hl
  | @woken c hphase hfree =>
    have hne : l≠c := by
      rintro rfl
      simp [leads] at hl
    have hold := h l
    simp only [OwnTicket,World.woken_phase,World.woken_ticket,Function.update_of_ne hne] at *
    exact hold hl
  | @drop c limit stored member rest now recheck hphase hqueue hroom hstop =>
    have he : l=c := hown.oneLeader l c hl (by rw [hphase]; rfl)
    have hold := h l hl
    have hdropped := hown.front hqueue
    subst he
    simp only [OwnTicket,World.drop_phase,World.drop_ticket,Function.update_apply] at *
    grind [group]
  | @take c limit stored member rest now hphase hqueue hroom hlive =>
    have he : l=c := by
      by_contra hne
      rw [World.take_phase,Function.update_of_ne hne,
        hown.alone (c:=c) (by rw [hphase]; rfl) hne] at hl
      cases hl
    subst he
    have hold := h l (by rw [hphase]; rfl)
    have hclaimed := hown.front hqueue
    simp only [OwnTicket,World.take_phase,World.take_ticket,Function.update_apply] at *
    grind [group]
  | @retry c limit hphase hend =>
    have hne : l≠c := by
      rintro rfl
      simp [leads] at hl
    have hold := h l
    simp only [OwnTicket,World.retry_phase,World.retry_ticket,Function.update_of_ne hne] at *
    exact hold hl
  | @launch c limit stored hphase hend hsome =>
    have he : l=c := by
      by_contra hne
      rw [World.launch_phase,Function.update_of_ne hne,
        hown.alone (c:=c) (by rw [hphase]; rfl) hne] at hl
      cases hl
    subst he
    have hold := h l (by rw [hphase]; rfl)
    simp only [OwnTicket,World.launch_phase,World.launch_ticket,Function.update_self] at *
    grind [group]
  | @answered c d answer hphase =>
    have he : l=c := by
      by_contra hne
      rw [World.answered_phase,Function.update_of_ne hne,
        hown.alone (c:=c) (by rw [hphase]; rfl) hne] at hl
      cases hl
    subst he
    have hold := h l (by rw [hphase]; rfl)
    simp only [OwnTicket,World.answered_phase,World.answered_ticket,Function.update_self] at *
    grind [group]
  | @delivered c d result hphase hfree =>
    have hne : l≠c := by
      rintro rfl
      simp [leads] at hl
    rw [World.delivered_phase,Function.update_of_ne hne,
      hown.alone (c:=c) (by rw [hphase]; rfl) hne] at hl
    cases hl

/-- A leader's own ticket is accounted for in every reachable state. -/
theorem ownTicket_reachable (h : (machine ι ο ε).Reachable w) (l : ℕ)
    (hl : leads (w.phase l)=true) : OwnTicket w l := by
  refine (Machine.Reachable.induct
    (I:=fun s => Ownership s ∧ ∀ l,leads (s.phase l)=true → OwnTicket s l) ?_ ?_ h).2 l hl
  · rintro s ⟨blank,rfl⟩
    exact ⟨ownership_start blank,fun l hl => by cases hl⟩
  · rintro s a t ⟨hown,hlead⟩ hone
    rcases step_transition hone with rfl|hstep
    · exact ⟨hown,hlead⟩
    · exact ⟨hown.transition hstep,ownTicket_transition hown hlead hstep⟩

/-- A step keeps the callers' ended calls. -/
theorem ended_transition {c : ℕ} {o : Outcome ο ε} (h : w.phase c=.ended o)
    (hstep : Transition w w') : w'.phase c=.ended o := by
  cases hstep <;> simp only [World.entered_phase,World.finish_phase,World.abandon_phase,
    World.rest_phase,World.lead_phase,World.woken_phase,World.drop_phase,World.take_phase,
    World.retry_phase,World.launch_phase,World.answered_phase,World.delivered_phase,
    Function.update_apply] <;> grind

/-- A claimed ticket stays with its leader until its dispatch is delivered. -/
def Owed (l t : ℕ) (w : World ι ο ε) : Prop := t∈group (w.phase l) ∨ t∈delivered w.history

/-- No transition lets a leader forget one of its members. -/
theorem owed_transition {l t : ℕ} (h : Owed l t w) (hstep : Transition w w') : Owed l t w' := by
  unfold Owed at *
  cases hstep <;> simp only [World.entered_phase,World.finish_phase,World.abandon_phase,
    World.rest_phase,World.lead_phase,World.woken_phase,World.drop_phase,World.take_phase,
    World.retry_phase,World.launch_phase,World.answered_phase,World.delivered_phase,
    World.entered_history,World.finish_history,World.abandon_history,
    World.rest_history,World.lead_history,World.woken_history,World.drop_history,
    World.take_history,World.retry_history,World.launch_history,World.answered_history,
    World.delivered_history,delivered_append,List.mem_append,Function.update_apply] <;>
    grind [group,SchedulerDelivery.delivered]

/-- A ticket dropped with its own error, whether or not its call has ended. -/
def Dropped (c : ℕ) (error : QueueError) (w : World ι ο ε) : Prop :=
  w.phase c≠.absent ∧ (w.ticket c).done=true ∧ (w.ticket c).error=some (.queue error) ∧
    ∀ o,w.phase c=.ended o → o=.thrown (.queue error)

/-- Nothing overwrites the error of a dropped ticket. -/
theorem dropped_transition (hown : Ownership w) {c : ℕ} {error : QueueError}
    (h : Dropped c error w) (hstep : Transition w w') : Dropped c error w' := by
  obtain ⟨hhere,hdone,herror,hended⟩ := h
  have hout : (w.ticket c).outcome=.thrown (.queue error) := by
    rw [Ticket.outcome,herror]
  have hclaimed := hown.doneClaimed c hdone
  have hfree : ∀ l,c∉group (w.phase l) := by
    intro l hm
    have hopen := (hown.member l c hm).2.2.1
    rw [hdone] at hopen
    cases hopen
  unfold Dropped
  cases hstep with
  | drop _ hqueue =>
    have hfront := hown.front hqueue
    simp only [World.drop_phase,World.drop_ticket,Function.update_apply]
    grind
  | take _ hqueue =>
    have hfront := hown.front hqueue
    simp only [World.take_phase,World.take_ticket,Function.update_apply]
    grind
  | @delivered l d result hphase =>
    have hm := hfree l
    rw [hphase] at hm
    simp only [World.delivered_phase,World.delivered_ticket,Function.update_apply]
    grind [group]
  | _ =>
    simp only [World.entered_phase,World.finish_phase,World.abandon_phase,World.rest_phase,
      World.lead_phase,World.woken_phase,World.retry_phase,World.launch_phase,
      World.answered_phase,World.entered_ticket,World.finish_ticket,World.abandon_ticket,
      World.rest_ticket,World.lead_ticket,World.woken_ticket,World.retry_ticket,
      World.launch_ticket,World.answered_ticket,Function.update_apply]
    grind

/-- What a run keeps beyond single states: ended calls stay as they ended,
leaders do not end before their members are delivered, and a dropped ticket's
call can only end with its own error. -/
structure Afterwards (w w' : World ι ο ε) : Prop where
  /-- An outcome is final. -/
  final : ∀ c o,w.phase c=.ended o → w'.phase c=.ended o
  /-- A leader ends only after every ticket it claimed was delivered. -/
  served : ∀ l t,t∈group (w.phase l) → live (w'.phase l)=false → t∈delivered w'.history
  /-- A dropped ticket's own error is what its call ends with. -/
  ownError : ∀ c error,live (w.phase c)=true → (w.ticket c).done=true →
    (w.ticket c).error=some (.queue error) → ∀ o,w'.phase c=.ended o → o=.thrown (.queue error)

/-- A predicate kept by transitions is kept along every run from a reachable state. -/
theorem path_keeps {P : World ι ο ε → Prop}
    (hstep : ∀ s t,Ownership s → P s → Transition s t → P t)
    (hr : (machine ι ο ε).Reachable w) {as : List (Action ι ο ε)}
    (path : (machine ι ο ε).Path (fun _ _ => True) w as w') (hw : P w) : P w' := by
  refine (path.preserves (I:=fun s => Ownership s ∧ P s) ?_ ⟨ownership_reachable hr,hw⟩).2
  rintro s a t - ⟨hown,hs⟩ hone
  rcases step_transition hone with rfl|hst
  · exact ⟨hown,hs⟩
  · exact ⟨hown.transition hst,hstep s t hown hs hst⟩

/-- Every run keeps what it has promised. -/
theorem afterwards (hr : (machine ι ο ε).Reachable w) {as : List (Action ι ο ε)}
    (path : (machine ι ο ε).Path (fun _ _ => True) w as w') : Afterwards w w' where
  final := fun c o hc => path_keeps (P:=fun s => s.phase c=.ended o)
    (fun _ _ _ hs hst => ended_transition hs hst) hr path hc
  served := by
    intro l t ht hl
    have howed : Owed l t w' := path_keeps (fun _ _ _ hs hst => owed_transition hs hst) hr path
      (.inl ht)
    rcases howed with hm|hm
    · have hlead := leads_of_group hm
      cases hp : w'.phase l <;> simp_all [leads,live]
    · exact hm
  ownError := by
    intro c error hlive hdone herror o ho
    have hd : Dropped c error w := by
      refine ⟨?_,hdone,herror,?_⟩
      · intro he
        rw [he] at hlive
        cases hlive
      · intro o he
        rw [he] at hlive
        cases hlive
    exact (path_keeps (fun _ _ hown hs hst => dropped_transition hown hs hst) hr path hd).2.2.2 o ho

/-- A caller at the loop head whose deadline has passed gives up the mutex,
and ends unless its ticket is claimed and unfinished. -/
theorem check_expired {c : ℕ} (hphase : w.phase c=.checking) :
    ∃ t,(machine ι ο ε).step w (.check c (w.ticket c).call.deadline 0)=some t ∧
      t.holder=none ∧ t.ticket=w.ticket ∧ (∀ x,x≠c → t.phase x=w.phase x) ∧
      ((w.ticket c).done=true ∨ (w.ticket c).claimed=false → ∃ o,t.phase c=.ended o) := by
  by_cases hdone : (w.ticket c).done=true
  · refine ⟨w.finish c,?_,rfl,rfl,fun x hx => Function.update_of_ne hx ..,fun _ => ?_⟩
    · simp [machine,World.step,World.check,hphase,hdone]
    · exact ⟨_,Function.update_self ..⟩
  · by_cases hclaimed : (w.ticket c).claimed=true
    · refine ⟨w.rest c,?_,rfl,rfl,fun x hx => Function.update_of_ne hx ..,fun h => ?_⟩
      · simp [machine,World.step,World.check,hphase,hdone,hclaimed]
      · simp [hdone,hclaimed] at h
    · refine ⟨w.abandon c 0,?_,rfl,rfl,fun x hx => Function.update_of_ne hx ..,fun _ => ?_⟩
      · simp [machine,World.step,World.check,hphase,hdone,hclaimed]
      · exact ⟨_,Function.update_self ..⟩

/-- Answers that `execute` of a single item can give too. -/
def PlainAnswer (answer : Except ε (List ο)) : Prop :=
  ∀ outputs,answer=.ok outputs → outputs.length=1

/-- Steps of the callers already there, with one given backend answer: no new
call, cancellation or reconfiguration helps. -/
def Unaided (answer : Except ε (List ο)) (_ : World ι ο ε) : Action ι ο ε → Prop
  | .compute _ given => given=answer
  | .enter _ _ => False
  | .cancel _ => False
  | .configure _ => False
  | _ => True

/-- A claim loop can be left: its tickets may all be found expired. -/
theorem can_leave_claiming {answer : Except ε (List ο)} {c limit : ℕ} {stored : List ℕ}
    (hphase : w.phase c=.claiming limit stored) :
    (machine ι ο ε).CanReach (Unaided answer) w fun t => t.holder=none ∨ t.phase c=.checking := by
  generalize hn : (w.queue (w.ticket c).call.prefill).length=n
  induction n generalizing w with
  | zero =>
    have hempty := List.length_eq_zero_iff.mp hn
    by_cases hnil : stored=[]
    · refine .step (a:=.dispatch c) (t:=w.retry c) (by trivial) ?_
        (.here (.inr (Function.update_self ..)))
      simp [machine,World.step,World.dispatch,hphase,hempty,hnil]
    · refine .step (a:=.dispatch c) (t:=w.launch c stored) (by trivial) ?_ (.here (.inl rfl))
      simp [machine,World.step,World.dispatch,hphase,hempty,hnil]
  | succ n ih =>
    obtain ⟨member,rest,hqueue⟩ := List.exists_cons_of_length_eq_add_one hn
    by_cases hroom : stored.length < limit
    · refine .step (a:=.claim c (w.ticket member).call.deadline 0) (t:=w.drop c member rest 0)
        (by trivial) ?_ (ih hphase ?_)
      · simp [machine,World.step,World.claim,hphase,hqueue,hroom]
      · have hkind : ((w.drop c member rest 0).ticket c).call=(w.ticket c).call := by
          rw [World.drop_ticket,Function.update_apply]
          split
          · rename_i he
            rw [he]
          · rfl
        rw [hkind,World.drop_toScheduler,queue_withQueue,if_pos rfl]
        rw [hqueue] at hn
        exact Nat.succ.inj hn
    · by_cases hnil : stored=[]
      · refine .step (a:=.dispatch c) (t:=w.retry c) (by trivial) ?_
          (.here (.inr (Function.update_self ..)))
        subst hnil
        have hzero : limit=0 := by simpa using hroom
        simp [machine,World.step,World.dispatch,hphase,hzero]
      · refine .step (a:=.dispatch c) (t:=w.launch c stored) (by trivial) ?_ (.here (.inl rfl))
        simp [machine,World.step,World.dispatch,hphase,hroom,hnil]

/-- The mutex is always released eventually if its owner goes on. -/
theorem can_release {answer : Except ε (List ο)} (h : (machine ι ο ε).Reachable w) :
    (machine ι ο ε).CanReach (Unaided answer) w fun t => t.holder=none := by
  have hchecking : ∀ {t : World ι ο ε} {c : ℕ},t.phase c=.checking →
      (machine ι ο ε).CanReach (Unaided answer) t fun t => t.holder=none := by
    intro t c hc
    obtain ⟨u,hstep,hfree,-⟩ := check_expired hc
    exact .step (by trivial) hstep (.here hfree)
  cases hholder : w.holder with
  | none => exact .here hholder
  | some c =>
    have hlocked := ((ownership_reachable h).lock c).mpr hholder
    cases hphase : w.phase c with
    | checking => exact hchecking hphase
    | claiming limit stored =>
      refine .bind h (can_leave_claiming hphase) ?_
      rintro t - - - (hfree|hc)
      · exact .here hfree
      · exact hchecking hc
    | _ =>
      rw [hphase] at hlocked
      cases hlocked

/-- A dispatch in the backend is delivered as soon as the backend answers. -/
theorem can_deliver {answer : Except ε (List ο)} (hanswer : PlainAnswer answer) {l : ℕ}
    {d : List ℕ} (hback : inBackend (w.phase l)=some d) (hfree : w.holder=none) :
    (machine ι ο ε).CanReach (Unaided answer) w fun t => t.phase l=.checking ∧ t.executing=0 ∧
      (∀ x∈d,(t.ticket x).done=true) ∧ ∀ x,x≠l → t.phase x=w.phase x := by
  have hdeliver : ∀ {u : World ι ο ε} {result : Except (DispatchError ε) (List ο)},
      u.phase l=.computed d result → u.holder=none → (∀ x,x≠l → u.phase x=w.phase x) →
      (machine ι ο ε).CanReach (Unaided answer) u fun t => t.phase l=.checking ∧ t.executing=0 ∧
        (∀ x∈d,(t.ticket x).done=true) ∧ ∀ x,x≠l → t.phase x=w.phase x := by
    intro u result hphase hu hsame
    refine .step (a:=.deliver l) (t:=u.delivered l d result) (by trivial) ?_ (.here ⟨?_,rfl,?_,?_⟩)
    · simp [machine,World.step,World.deliver,hphase,hu]
    · exact Function.update_self ..
    · intro x hx
      simp only [World.delivered_ticket,if_pos hx]
      cases result <;> rfl
    · intro x hx
      rw [World.delivered_phase,Function.update_of_ne hx]
      exact hsame x hx
  cases hphase : w.phase l with
  | executing dispatch =>
    rw [hphase] at hback
    cases hback
    refine .step (a:=.compute l answer) (t:=w.answered l d (dispatchResult d answer)) (by rfl) ?_
      (hdeliver (Function.update_self ..) hfree fun x hx => Function.update_of_ne hx ..)
    simp only [machine,World.step,World.compute,hphase]
    split
    · exact absurd (hanswer _ rfl) (by simp)
    · exact absurd (hanswer _ rfl) (by simp)
    · rfl
  | computed dispatch result =>
    rw [hphase] at hback
    cases hback
    exact hdeliver hphase hfree fun _ _ => rfl
  | _ =>
    rw [hphase] at hback
    cases hback

/-- A caller at the loop head of an idle scheduler ends at its deadline. -/
theorem can_end_idle {answer : Except ε (List ο)} (h : (machine ι ο ε).Reachable w) {c : ℕ}
    (hphase : w.phase c=.checking) (hidle : w.executing=0) :
    (machine ι ο ε).CanReach (Unaided answer) w fun t => ∃ o,t.phase c=.ended o := by
  have hown := ownership_reachable h
  obtain ⟨t,hstep,-,-,-,hend⟩ := check_expired hphase
  refine .step (by trivial) hstep (.here (hend ?_))
  by_contra hn
  rw [not_or,Bool.not_eq_true,Bool.not_eq_false] at hn
  obtain ⟨l,hm⟩ := hown.hasLeader c (by rw [hphase]; rfl) hn.2 hn.1
  have hl := hown.no_leader hphase hidle l
  rw [leads_of_group hm] at hl
  cases hl

/-- With the mutex free every live call can be brought to its end. -/
theorem can_end_free {answer : Except ε (List ο)} (hanswer : PlainAnswer answer)
    (h : (machine ι ο ε).Reachable w) (hfree : w.holder=none) {c : ℕ}
    (hlive : live (w.phase c)=true) :
    (machine ι ο ε).CanReach (Unaided answer) w fun t => ∃ o,t.phase c=.ended o := by
  have hown := ownership_reachable h
  have hopen := hown.unlocked hfree
  by_cases hback : ∃ d,inBackend (w.phase c)=some d
  · obtain ⟨d,hd⟩ := hback
    refine .bind h (can_deliver hanswer hd hfree) ?_
    rintro t - - hrt ⟨hphase,hidle,-⟩
    exact can_end_idle hrt hphase hidle
  · have hwaiting : w.phase c=.waiting := by
      have hc := hopen c
      cases hp : w.phase c <;> simp_all [live,locked,inBackend]
    have hwake : ∀ {t : World ι ο ε},t.phase c=.waiting → t.holder=none →
        (t.ticket c).done=true ∨ (t.ticket c).claimed=false →
        (machine ι ο ε).CanReach (Unaided answer) t fun t => ∃ o,t.phase c=.ended o := by
      intro t hp hf hend
      refine .step (a:=.wake c) (t:=t.woken c) (by trivial)
        (by simp [machine,World.step,World.wake,hp,hf]) ?_
      obtain ⟨u,hstep,-,-,-,hu⟩ := check_expired (w:=t.woken c) (c:=c) (Function.update_self ..)
      exact .step (by trivial) hstep (.here (hu hend))
    by_cases hend : (w.ticket c).done=true ∨ (w.ticket c).claimed=false
    · exact hwake hwaiting hfree hend
    · rw [not_or,Bool.not_eq_true,Bool.not_eq_false] at hend
      obtain ⟨l,hm⟩ := hown.hasLeader c hlive hend.2 hend.1
      obtain ⟨d,hd,hdm⟩ : ∃ d,inBackend (w.phase l)=some d ∧ c∈d := by
        have hl := hopen l
        cases hp : w.phase l <;> simp_all [group,locked,inBackend]
      have hne : c≠l := by
        rintro rfl
        exact hback ⟨d,hd⟩
      refine .bind h (can_deliver hanswer hd hfree) ?_
      rintro t - - - ⟨hphase,-,hdone,hsame⟩
      obtain ⟨u,hstep,hu,hticket,hothers,-⟩ := check_expired hphase
      refine .step (by trivial) hstep (hwake ?_ hu (.inl ?_))
      · rw [hothers c hne,hsame c hne]
        exact hwaiting
      · rw [hticket]
        exact hdone c hdm

/-- Started calls stay started. -/
theorem started_transition {c : ℕ} (h : w.phase c≠.absent) (hstep : Transition w w') :
    w'.phase c≠.absent := by
  cases hstep <;> simp only [World.entered_phase,World.finish_phase,World.abandon_phase,
    World.rest_phase,World.lead_phase,World.woken_phase,World.drop_phase,World.take_phase,
    World.retry_phase,World.launch_phase,World.answered_phase,World.delivered_phase,
    Function.update_apply] <;> grind

/-- From every reachable state every started call can be brought to its end,
whatever the backend answers. -/
theorem can_end {answer : Except ε (List ο)} (hanswer : PlainAnswer answer)
    (h : (machine ι ο ε).Reachable w) {c : ℕ} (hlive : live (w.phase c)=true) :
    (machine ι ο ε).CanReach (Unaided answer) w fun t => ∃ o,t.phase c=.ended o := by
  refine .bind h (can_release h) ?_
  intro t as path hrt hfree
  have hstarted : w.phase c≠.absent := by
    intro he
    rw [he] at hlive
    cases hlive
  have hthere : t.phase c≠.absent := path_keeps
    (P:=fun s => s.phase c≠.absent) (fun _ _ _ hs hst => started_transition hs hst) h path hstarted
  cases hp : t.phase c with
  | absent => exact absurd hp hthere
  | ended o => exact .here ⟨o,hp⟩
  | _ => exact can_end_free hanswer hrt hfree (by rw [hp]; rfl)

/-- A ticket in its caller's queue, once, and in no other place. -/
def Queued (w : World ι ο ε) (c : ℕ) : Prop :=
  (w.queue (w.ticket c).call.prefill).count c=1 ∧ c∉w.queue (!(w.ticket c).call.prefill)

/-- A ticket held by exactly one leader, once. -/
def Claimed (w : World ι ο ε) (c : ℕ) : Prop :=
  ∃ l,(group (w.phase l)).count c=1 ∧ ∀ l',l'≠l → c∉group (w.phase l')

/-- A ticket in no queue. -/
def Unqueued (w : World ι ο ε) (c : ℕ) : Prop := ∀ p,c∉w.queue p

/-- A ticket in no leader's hands. -/
def Unclaimed (w : World ι ο ε) (c : ℕ) : Prop := ∀ l,c∉group (w.phase l)

/-- The ownership and delivery guarantees at one point of a run. -/
structure Delivery (w : World ι ο ε) : Prop where
  /-- A live ticket is queued, or claimed, or done, and only one of these. -/
  oneState : ∀ c,live (w.phase c)=true →
    (Queued w c ∧ Unclaimed w c ∧ (w.ticket c).done=false) ∨
    (Unqueued w c ∧ Claimed w c ∧ (w.ticket c).done=false) ∨
    (Unqueued w c ∧ Unclaimed w c ∧ (w.ticket c).done=true)
  /-- Nothing refers to the ticket of a call that has returned or thrown. -/
  noDangling : ∀ c,live (w.phase c)=false → Unqueued w c ∧ Unclaimed w c
  /-- At most one dispatch is in the backend. -/
  oneDispatch : ∀ l l' d d',inBackend (w.phase l)=some d → inBackend (w.phase l')=some d' →
    l=l' ∧ d=d'
  /-- The executing counter is its size. -/
  size : ∀ l d,inBackend (w.phase l)=some d → w.executing=d.length ∧ 0 < d.length
  /-- The counter is zero when nothing is in the backend. -/
  idle : (∀ l,inBackend (w.phase l)=none) → w.executing=0
  /-- No item enters the backend in two dispatches or twice in one. -/
  enteredOnce : (entered w.history).Nodup
  /-- No item is delivered twice. -/
  deliveredOnce : (delivered w.history).Nodup
  /-- An ended call has its share of its dispatch, or its own queue error. -/
  outcome : ∀ c o,w.phase c=.ended o → Settled w.history c o ∧ o≠.undefined
  /-- A leader outside its own group was dropped with its own error. -/
  droppedLeader : ∀ l,leads (w.phase l)=true → l∉group (w.phase l) →
    (w.ticket l).claimed=true →
    (w.ticket l).done=true ∧ (∃ error,(w.ticket l).error=some (.queue error)) ∧
      l∉entered w.history

/-- A settled outcome is never the undefined read. -/
theorem Settled.defined {h : List (Event ο ε)} {c : ℕ} {o : Outcome ο ε} (hs : Settled h c o) :
    o≠.undefined := by
  rintro rfl
  rcases hs with ⟨members,result,i,-,-,ho⟩|⟨⟨error,he⟩,-⟩
  · cases result <;> simp [itemOutcome] at ho
  · cases he

/-- Live tickets are in exactly one of the three states. -/
theorem oneState_of_ownership (h : Ownership w) {c : ℕ} (hlive : live (w.phase c)=true) :
    (Queued w c ∧ Unclaimed w c ∧ (w.ticket c).done=false) ∨
    (Unqueued w c ∧ Claimed w c ∧ (w.ticket c).done=false) ∨
    (Unqueued w c ∧ Unclaimed w c ∧ (w.ticket c).done=true) := by
  by_cases hclaimed : (w.ticket c).claimed=true
  · have hunqueued : Unqueued w c := by
      intro p hp
      have hc := ((h.queued c p).mp hp).2.1
      rw [hclaimed] at hc
      cases hc
    by_cases hdone : (w.ticket c).done=true
    · refine .inr (.inr ⟨hunqueued,fun l hm => ?_,hdone⟩)
      have hopen := (h.member l c hm).2.2.1
      rw [hdone] at hopen
      cases hopen
    · rw [Bool.not_eq_true] at hdone
      obtain ⟨l,hm⟩ := h.hasLeader c hlive hclaimed hdone
      refine .inr (.inl ⟨hunqueued,⟨l,List.count_eq_one_of_mem (h.groupNodup l) hm,?_⟩,hdone⟩)
      intro l' hl' hm'
      exact hl' (h.oneLeader l' l (leads_of_group hm') (leads_of_group hm))
  · rw [Bool.not_eq_true] at hclaimed
    have hmem := (h.queued c _).mpr ⟨hlive,hclaimed,rfl⟩
    refine .inl ⟨⟨List.count_eq_one_of_mem (h.nodup _) hmem,fun hp => ?_⟩,fun l hm => ?_,?_⟩
    · have hkind := ((h.queued c _).mp hp).2.2
      simp at hkind
    · have hc := (h.member l c hm).2.1
      rw [hclaimed] at hc
      cases hc
    · by_contra hd
      have hc := h.doneClaimed c (eq_true_of_ne_false hd)
      rw [hclaimed] at hc
      cases hc

/-- The guarantees hold at every point of every interleaving. -/
theorem delivery_reachable (h : (machine ι ο ε).Reachable w) : Delivery w := by
  have hown := ownership_reachable h
  have hrec := record_reachable h
  have hlead := ownTicket_reachable h
  constructor
  case oneState => exact fun c hc => oneState_of_ownership hown hc
  case noDangling =>
    intro c hc
    refine ⟨fun p hp => ?_,fun l hm => ?_⟩
    · have hl := ((hown.queued c p).mp hp).1
      rw [hc] at hl
      cases hl
    · have hl := (hown.member l c hm).1
      rw [hc] at hl
      cases hl
  case oneDispatch =>
    intro l l' d d' hd hd'
    have he := hown.oneLeader l l' (leads_of_inBackend hd) (leads_of_inBackend hd')
    rw [he,hd'] at hd
    exact ⟨he,(Option.some.inj hd).symm⟩
  case size =>
    intro l d hd
    obtain ⟨hlen,hne⟩ := hown.busy l d hd
    exact ⟨hlen,List.length_pos_iff.mpr hne⟩
  case idle => exact hown.idle
  case enteredOnce => exact hrec.once
  case deliveredOnce => exact hrec.deliveredOnce
  case outcome => exact fun c o ho => ⟨hrec.ended c o ho,(hrec.ended c o ho).defined⟩
  case droppedLeader =>
    intro l hl hout hclaimed
    rcases hlead l hl with hm|⟨hdone,error,he⟩|⟨hfresh,-⟩
    · exact absurd hm hout
    · exact ⟨hdone,⟨error,he⟩,hrec.dropped l error hdone he⟩
    · rw [hclaimed] at hfresh
      cases hfresh

/-- Ticket ownership and exactly-once delivery, in every reachable state and
along every run from it, with an end in reach for every live call. -/
theorem tickets_owned_and_delivered_once (w : World ι ο ε)
    (h : (machine ι ο ε).Reachable w) :
    Delivery w ∧
    (∀ as w',(machine ι ο ε).Path (fun _ _ => True) w as w' → Afterwards w w') ∧
    ∀ answer : Except ε (List ο),PlainAnswer answer → ∀ c,live (w.phase c)=true →
      (machine ι ο ε).CanReach (Unaided answer) w fun t => ∃ o,t.phase c=.ended o :=
  ⟨delivery_reachable h,fun _ _ path => afterwards h path,
    fun _ hanswer _ hlive => can_end hanswer h hlive⟩

/-- A call with the given first position. -/
def sampleCall (position : ℕ) : Call Unit := ⟨(),position,0,false,100,true⟩

/-- Two decodes queue behind a prefill; the first of them leads, is cancelled
before it claims, and still takes the second into the backend. -/
def droppedLeaderRun : List (Action Unit Unit Unit) :=
  [.configure 2,.enter 9 (sampleCall 0),.check 9 0 0,.claim 9 0 0,.dispatch 9,
    .enter 0 (sampleCall 5),.check 0 0 0,.enter 1 (sampleCall 5),.check 1 0 0,
    .compute 9 (.ok [()]),.deliver 9,.check 9 0 0,.wake 0,.check 0 0 0,.cancel 0,
    .claim 0 0 0,.claim 0 0 0,.dispatch 0]

/-- The dropped leader has its own ticket back done, and holds the other until it delivers. -/
theorem tickets_owned_by_dropped_leader :
    ∃ w,(machine Unit Unit Unit).run (World.start (sampleCall 0)) droppedLeaderRun=some w ∧
      inBackend (w.phase 0)=some [1] ∧ (w.ticket 0).done=true ∧
      Delivery w ∧
      (∀ as w',(machine Unit Unit Unit).Path (fun _ _ => True) w as w' → Afterwards w w') ∧
      ∀ answer : Except Unit (List Unit),PlainAnswer answer → ∀ c,live (w.phase c)=true →
        (machine Unit Unit Unit).CanReach (Unaided answer) w fun t => ∃ o,t.phase c=.ended o := by
  obtain ⟨w,hrun,hback,hdone⟩ : ∃ w,
      (machine Unit Unit Unit).run (World.start (sampleCall 0)) droppedLeaderRun=some w ∧
      inBackend (w.phase 0)=some [1] ∧ (w.ticket 0).done=true := ⟨_,rfl,rfl,rfl⟩
  exact ⟨w,hrun,hback,hdone,
    tickets_owned_and_delivered_once w (Machine.reachable_of_run ⟨_,rfl⟩ hrun)⟩

end Hllm.SchedulerDelivery
