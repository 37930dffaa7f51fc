import Hllm.ControlHistory
import Hllm.ControlResidency

/-!
# Failed reservations leave no trace

A reserving call that fails before admission leaves the state of its pruning
pass, and a retry only moves a deadline. A failed allocation gives up an entry
that other threads saw meanwhile: whatever they did, it takes away that entry
and nothing else, and its two events enclose no other event of its id.
-/

namespace Hllm.ControlAtomicity

open Relation MemoryAccounting WireMessages RunInvariants ControlModel ControlTransitions
open ControlTable ControlReservations ControlHistory ControlResidency

/-- What `acquire` throws for another deployment or stage. -/
def staleError : Error :=
  ⟨.invalidRequest,"stale deployment or incorrect execution stage"⟩

/-- `acquire` up to its return or its allocation. -/
def acquire (c : Control) (call : ReserveCall) (stage : ℕ) (readings : String → ℕ) (now : ℕ) :
    Control×Except Error Reserved :=
  match c.matching call.planId call.version with
  | none => (c,.error staleError)
  | some d =>
    if (c.loaded d).spec.stageIndex≠stage then (c,.error staleError)
    else
      match c.reserve d call.requestId call.tokens call.prefillChunkTokens call.deadlineMs
        readings now with
      | (c,.error error) => (c,.error error)
      | (c,.ok (.admitted o)) => (c,.ok (.admitted o))
      | (c,.ok (.existing o)) =>
        match c.claim o with
        | .error error => (c,.error error)
        | .ok c => (c,.ok (.existing o))

/-- The deployment or stage of the call is not the loaded one. -/
def Stale (c : Control) (call : ReserveCall) (stage : ℕ) : Prop :=
  ∀ d,c.matching call.planId call.version=some d → (c.loaded d).spec.stageIndex≠stage

/-- The step of an acquiring thread is `acquire`. -/
theorem reserveCall_toControl {w w' : World} {t : ℕ} {call : ReserveCall} {stage : ℕ}
    {readings : String → ℕ} {now : ℕ}
    (h : w.reserveCall t call (some stage) readings now=some w') :
    w'.toControl=(acquire w.toControl call stage readings now).1 := by
  unfold World.reserveCall at h
  unfold acquire
  split at h
  · cases hmatching : w.matching call.planId call.version with
    | none =>
      rw [hmatching] at h
      cases h
      rfl
    | some d =>
      rw [hmatching] at h
      simp only [Option.any_some,decide_eq_true_eq] at h ⊢
      split at h
      · rename_i hstage
        cases h
        rw [if_pos hstage,World.goto_toControl]
      · rename_i hstage
        rw [if_neg hstage]
        rcases hreserve : w.reserve d call.requestId call.tokens call.prefillChunkTokens
          call.deadlineMs readings now with ⟨c,error|⟨o⟩|⟨o⟩⟩
        · rw [hreserve] at h
          cases h
          rw [World.goto_toControl]
        · rw [hreserve] at h
          simp only [Option.isSome_some,if_true] at h
          cases h
          simp only [World.claim]
          cases c.claim o with
          | error error => rfl
          | ok c => rfl
        · rw [hreserve] at h
          cases h
          rw [World.goto_toControl]
  · cases h

section Calls

variable {c c' : Control} {readings : String → ℕ} {now : ℕ}

/-- A failed `reserve` has pruned and done nothing else. -/
theorem reserve_error {d : ℕ} {id : String} {tokens chunk : UInt64} {deadlineMs : ℕ}
    {error : Error}
    (h : c.reserve d id tokens chunk deadlineMs readings now=(c',.error error)) :
    c'=c.pruneExpired readings := by
  rcases reserve_cases c d id tokens chunk deadlineMs readings now with
    ⟨e,hr⟩|⟨o,-,-,hr|⟨deadline,-,hr⟩⟩|⟨memory,deadline,-,-,hr⟩
  · rw [hr] at h
    exact (congrArg Prod.fst h).symm
  all_goals
    rw [hr] at h
    cases congrArg Prod.snd h

/-- A failed claim is one of a running reservation, which a retry leaves alone. -/
theorem reserve_claim_error {d o : ℕ} {id : String} {tokens chunk : UInt64} {deadlineMs : ℕ}
    {error : Error}
    (h : c.reserve d id tokens chunk deadlineMs readings now=(c',.ok (.existing o)))
    (hclaim : c'.claim o=.error error) : c'=c.pruneExpired readings := by
  rcases reserve_cases c d id tokens chunk deadlineMs readings now with
    ⟨e,hr⟩|⟨o',-,-,hr|⟨deadline,hrunning,hr⟩⟩|⟨memory,deadline,-,-,hr⟩
  · rw [hr] at h
    cases congrArg Prod.snd h
  · rw [hr] at h
    exact (congrArg Prod.fst h).symm
  · rw [hr,Prod.mk.injEq] at h
    obtain ⟨rfl,hsecond⟩ := h
    cases hsecond
    simp only [Control.claim,Control.withObject_object,Function.update_self,hrunning] at hclaim
    cases hclaim
  · rw [hr] at h
    cases congrArg Prod.snd h

/-- A failed `acquire` has pruned and done nothing else, or has not even pruned. -/
theorem acquire_error {call : ReserveCall} {stage : ℕ} {error : Error}
    (h : acquire c call stage readings now=(c',.error error)) :
    Stale c call stage ∧ c'=c ∨ c'=c.pruneExpired readings := by
  unfold acquire at h
  split at h
  · rename_i hnone
    refine .inl ⟨?_,(congrArg Prod.fst h).symm⟩
    intro d hd
    rw [hnone] at hd
    cases hd
  · rename_i d hmatching
    split at h
    · rename_i hstage
      refine .inl ⟨?_,(congrArg Prod.fst h).symm⟩
      intro d' hd'
      rw [hmatching] at hd'
      cases hd'
      exact hstage
    · refine .inr ?_
      split at h
      · rename_i c₁ e hreserve
        have hpruned := reserve_error hreserve
        exact (congrArg Prod.fst h).symm.trans hpruned
      · cases congrArg Prod.snd h
      · rename_i c₁ o hreserve
        split at h
        · rename_i e hclaim
          have hpruned := reserve_claim_error hreserve hclaim
          exact (congrArg Prod.fst h).symm.trans hpruned
        · cases congrArg Prod.snd h

/-- A thread whose `acquire` throws leaves the state or that of the pruning pass. -/
theorem reserveCall_error {w w' : World} {t : ℕ} {call : ReserveCall} {stage : ℕ}
    (h : w.reserveCall t call (some stage) readings now=some w') {error : Error}
    (herror : (acquire w.toControl call stage readings now).2=.error error) :
    Stale w.toControl call stage ∧ w'.toControl=w.toControl ∨
      w'.toControl=w.pruneExpired readings :=
  acquire_error (Prod.ext (reserveCall_toControl h).symm herror)

/-- The call asks for what a free reservation already holds. -/
structure Retries (c : Control) (id : String) (tokens chunk : UInt64) (o : ℕ) : Prop where
  /-- The reservation is in the table. -/
  found : c.find id=some o
  /-- The same tokens are asked for. -/
  sameTokens : (c.object o).maximumTokens=tokens
  /-- The effective chunk is the same. -/
  sameChunk : (c.object o).maximumQueryTokens=queryRows tokens chunk
  /-- Nobody executes it. -/
  free : (c.object o).running=false
  /-- It was not asked to stop. -/
  kept : (c.object o).cancelled=false

/-- A retry moves the deadline forward or changes nothing, and succeeds once
the allocation is over. -/
theorem reserve_retry {d o : ℕ} {id : String} {tokens chunk : UInt64} {deadlineMs : ℕ}
    (h : Retries (c.pruneExpired readings) id tokens chunk o) :
    ∃ deadline ≤ ((c.pruneExpired readings).object o).deadline,
      (c.reserve d id tokens chunk deadlineMs readings now).1=
        (c.pruneExpired readings).withObject o
          {(c.pruneExpired readings).object o with deadline := deadline} ∧
      (id≠"" → id.utf8ByteSize ≤ 256 → (∃ asked,requestDeadline deadlineMs now=.ok asked) →
        ((c.pruneExpired readings).object o).allocating=false →
        (c.reserve d id tokens chunk deadlineMs readings now).2=.ok (.existing o)) := by
  have hsame : (c.pruneExpired readings)=(c.pruneExpired readings).withObject o
      {(c.pruneExpired readings).object o with
        deadline := ((c.pruneExpired readings).object o).deadline} :=
    (withObject_self _ _).symm
  unfold Control.reserve
  by_cases hid : id="" ∨ 256 < id.utf8ByteSize
  · rw [if_pos hid]
    refine ⟨_,Nat.le_refl _,hsame,fun hne hsize => ?_⟩
    rcases hid with hid|hid
    · exact absurd hid hne
    · omega
  · rw [if_neg hid]
    cases hdeadline : requestDeadline deadlineMs now with
    | error error =>
      refine ⟨_,Nat.le_refl _,hsame,fun _ _ hasked => ?_⟩
      obtain ⟨asked,hasked⟩ := hasked
      cases hasked
    | ok deadline =>
      simp only [h.found,Control.retry]
      by_cases hallocating : ((c.pruneExpired readings).object o).allocating=true
      · rw [if_pos hallocating]
        refine ⟨_,Nat.le_refl _,hsame,fun _ _ _ hdone => ?_⟩
        rw [hallocating] at hdone
        cases hdone
      · have hagrees : ¬(((c.pruneExpired readings).object o).maximumTokens≠tokens ∨
            ((c.pruneExpired readings).object o).maximumQueryTokens≠queryRows tokens chunk ∨
            ((c.pruneExpired readings).object o).cancelled=true) := by
          rw [h.sameTokens,h.sameChunk,h.kept]
          simp
        rw [if_neg hallocating,if_neg hagrees,h.free,if_neg Bool.false_ne_true]
        exact ⟨_,Nat.min_le_left _ _,rfl,fun _ _ _ _ => rfl⟩

/-- A rejected load changes nothing. -/
theorem load_rejected {textDigest : String → String} {request : LoadStageRequest}
    {answer : Except Failure (Option StageBackend)}
    (h : (c.load textDigest request answer).2.accepted=false) :
    (c.load textDigest request answer).1=c := by
  unfold Control.load at h ⊢
  split
  · split <;> rfl
  · rename_i hnone
    rw [hnone] at h
    split
    · rfl
    · rfl
    · rfl
    · rename_i backend hbefore
      rw [hbefore] at h
      cases hweights : requireMemory backend.weightMemory c.config.capacity with
      | error error => rfl
      | ok u =>
        simp only [hweights] at h
        cases h

end Calls

/-- The entries of an event, if the log is kept. -/
def noted (c : Control) (e : LifecycleEvent) : List LifecycleEvent :=
  if c.config.requestObservations then [e] else []

/-- What is noted of an event about another id is about another id. -/
theorem noted_requestId {c : Control} {e x : LifecycleEvent} (hx : x∈noted c e) : x=e := by
  unfold noted at hx
  split at hx
  · exact List.mem_singleton.mp hx
  · cases hx

section Log

variable {c : Control} {kind : LifecycleKind} {id reason : String}

/-- A record appends one event, if the log is kept. -/
theorem recordLifecycle_noted :
    (c.recordLifecycle kind id reason).history=c.history++noted c (eventOf c kind id reason) := by
  unfold noted
  cases hon : c.config.requestObservations with
  | true => rw [recordLifecycle_history kind id reason hon,if_pos rfl]
  | false =>
    unfold Control.recordLifecycle
    rw [hon,if_neg Bool.false_ne_true,if_neg Bool.false_ne_true,List.append_nil]

/-- A retirement notes one event. -/
theorem retire_noted {o : ℕ} :
    (c.retire id o reason).history=
      c.history++noted c (eventOf (c.erase id o reason) .retired id reason) := by
  rw [Control.retire,recordLifecycle_noted,Control.erase_history]
  rfl

/-- Records keep the window, kept or not. -/
theorem Logged.recordLifecycle (h : Logged c) : Logged (c.recordLifecycle kind id reason) := by
  cases hon : c.config.requestObservations with
  | true => exact h.record kind id reason hon
  | false =>
    unfold Control.recordLifecycle
    rw [hon,if_neg Bool.false_ne_true]
    exact h

/-- Retirements keep the window. -/
theorem Logged.retire {o : ℕ} (h : Logged c) : Logged (c.retire id o reason) := by
  have herased : Logged (c.erase id o reason) := ⟨h.total,h.numbered,h.window⟩
  exact Logged.recordLifecycle herased

/-- Retirements by id keep the window. -/
theorem Logged.retireFound (h : Logged c) : Logged (c.retireFound id reason) := by
  unfold Control.retireFound
  split
  · exact Logged.retire h
  · exact h

/-- Releases keep the window. -/
theorem Logged.release {o now : ℕ} {outcome : RequestOutcome} (h : Logged c) :
    Logged (c.release o outcome now) := by
  unfold Control.release
  split
  · exact Logged.retire (c:=c.withObject o _) ⟨h.total,h.numbered,h.window⟩
  · exact h

end Log

variable {w w' : World}

/-- Every move keeps the window. -/
theorem Logged.move (h : Logged w.toControl) (hmove : Move w w') : Logged w'.toControl := by
  cases hmove with
  | retired => exact Logged.retire h
  | @admitted t d id tokens queryTokens deadline memory claims =>
    exact Logged.recordLifecycle (c:=w.emplace _) ⟨h.total,h.numbered,h.window⟩
  | allocationFailed => exact Logged.retireFound h
  | @allocationDropped t o d claims =>
    exact Logged.retireFound (c:=w.finishAllocation o) ⟨h.total,h.numbered,h.window⟩
  | completed => exact Logged.release h
  | left => exact Logged.release h
  | _ => exact ⟨h.total,h.numbered,h.window⟩

/-- The window is kept in every reachable state. -/
theorem logged_reachable {textDigest : String → String}
    (h : (machine textDigest).Reachable w) : Logged w.toControl := by
  have hboth : Table w ∧ Logged w.toControl := by
    refine Machine.Reachable.induct_moves (I:=fun w => Table w ∧ Logged w.toControl) ?_
      (fun s a t hs hone => hs.1.step hone)
      (fun s t hs hmove => ⟨hs.1.move hmove,Logged.move hs.2 hmove⟩) h
    rintro s ⟨config,capabilities,blank,empty,-,rfl⟩
    exact ⟨table_start config capabilities blank empty,
      rfl,rfl,(List.drop_nil (i := _)).symm⟩
  exact hboth.2

/-- A thread that allocates a reservation `id` since the state `u`: the
reservation is still filed under its id, the deployment is the same and no event
of the id was noted. -/
structure Doomed (u w : World) (t o d : ℕ) (claims : Bool) (id : String) : Prop where
  /-- The thread is allocating. -/
  thread : w.thread t=.allocating o d claims
  /-- The id of the reservation. -/
  named : (w.object o).id=id
  /-- The deployment stays. -/
  deployment : w.deployment=u.deployment
  /-- The events noted meanwhile are about other ids. -/
  others : ∃ between,w.history=u.history++between ∧ ∀ e∈between,e.requestId≠id

/-- A thread that has started and does not allocate will never allocate. -/
def Past (thread : Thread) : Prop :=
  thread≠.idle ∧ ∀ o d claims,thread≠.allocating o d claims

/-- Moving one thread to a point past its allocation. -/
theorem update_past {f : ℕ → Thread} {t t' : ℕ} {thread : Thread} (hpast : Past thread) :
    Function.update f t' thread t=f t ∨ Past (Function.update f t' thread t) := by
  by_cases ht : t=t'
  · rw [ht,Function.update_self]
    exact .inr hpast
  · rw [Function.update_of_ne ht]
    exact .inl rfl

/-- Only an idle thread can come to an allocation. -/
theorem move_thread (hmove : Move w w') (t : ℕ) :
    w'.thread t=w.thread t ∨ w.thread t=.idle ∨ Past (w'.thread t) := by
  have hended : Past .ended := ⟨by simp,by simp⟩
  have hleased : ∀ d o,Past (.leased d o) := fun d o => ⟨by simp,by simp⟩
  have hreleased : ∀ d o,Past (.released d o) := fun d o => ⟨by simp,by simp⟩
  have hdropping : ∀ d o,Past (.dropping d o) := fun d o => ⟨by simp,by simp⟩
  cases hmove with
  | returned => exact (update_past hended).imp_right .inr
  | @admitted t' d id tokens queryTokens deadline memory claims hidle =>
    by_cases ht : t=t'
    · exact .inr (.inl (ht ▸ hidle))
    · exact .inl (by rw [World.goto_thread,Function.update_of_ne ht])
  | allocationFailed => exact (update_past hended).imp_right .inr
  | allocationDropped => exact (update_past hended).imp_right .inr
  | allocationKept => exact (update_past hended).imp_right .inr
  | allocationClaimed => exact (update_past (hleased _ _)).imp_right .inr
  | claimed => exact (update_past (hleased _ _)).imp_right .inr
  | completed => exact (update_past (hreleased _ _)).imp_right .inr
  | left => exact (update_past (hdropping _ _)).imp_right .inr
  | dropped => exact (update_past hended).imp_right .inr
  | _ => exact .inl rfl

/-- What a retirement by id notes is about that id. -/
theorem retireFound_events (c : Control) (id reason : String) :
    ∃ new,(c.retireFound id reason).history=c.history++new ∧ ∀ e∈new,e.requestId=id := by
  unfold Control.retireFound
  split
  · refine ⟨_,retire_noted,fun e he => ?_⟩
    rw [noted_requestId he]
    rfl
  · exact ⟨[],(List.append_nil _).symm,fun e he => by cases he⟩

/-- What a release notes is about the released id. -/
theorem release_events (c : Control) (o : ℕ) (outcome : RequestOutcome) (now : ℕ) :
    ∃ new,(c.release o outcome now).history=c.history++new ∧
      ∀ e∈new,e.requestId=(c.object o).id := by
  unfold Control.release
  split
  · refine ⟨_,retire_noted,fun e he => ?_⟩
    rw [noted_requestId he]
    rfl
  · exact ⟨[],(List.append_nil _).symm,fun e he => by cases he⟩

/-- A release keeps the ids. -/
theorem release_id (c : Control) (o x : ℕ) (outcome : RequestOutcome) (now : ℕ) :
    ((c.release o outcome now).object x).id=(c.object x).id := by
  unfold Control.release
  split
  · rw [retire_object,Control.withObject_object]
    by_cases hx : x=o
    · rw [hx,Function.update_self]
    · rw [Function.update_of_ne hx]
  · rfl

section Allocating

variable {u : World} {t o d : ℕ} {claims : Bool} {id : String}

/-- Moves that leave the reservation and note other ids. -/
theorem Doomed.next (h : Doomed u w t o d claims id) (hthread : w'.thread t=w.thread t)
    (hnamed : (w'.object o).id=(w.object o).id) (hdeployment : w'.deployment=w.deployment)
    (hevents : ∃ new,w'.history=w.history++new ∧ ∀ e∈new,e.requestId≠id) :
    Doomed u w' t o d claims id := by
  obtain ⟨between,hbetween,hothers⟩ := h.others
  obtain ⟨new,hnew,hids⟩ := hevents
  refine ⟨hthread.trans h.thread,hnamed.trans h.named,hdeployment.trans h.deployment,
    between++new,?_,fun e he => ?_⟩
  · rw [hnew,hbetween,List.append_assoc]
  · rcases List.mem_append.mp he with he|he
    · exact hothers e he
    · exact hids e he

/-- Replacing any request by one of the same id keeps the ids. -/
theorem withObject_id {c : Control} {x : ℕ} {r : ActiveRequest} (hr : r.id=(c.object x).id)
    (o : ℕ) : ((c.withObject x r).object o).id=(c.object o).id := by
  rw [Control.withObject_object]
  by_cases ho : o=x
  · rw [ho,Function.update_self,hr]
  · rw [Function.update_of_ne ho]

/-- Any move leaves the reservation to its thread, or it is the thread's own. -/
theorem Doomed.move (h : Doomed u w t o d claims id) (htable : Table w) (hmove : Move w w') :
    Doomed u w' t o d claims id ∨ Past (w'.thread t) := by
  have hallocating := htable.allocatingThread t o d claims h.thread
  rw [h.named] at hallocating
  obtain ⟨hentry,hmarked,-,hloaded⟩ := hallocating
  have howner : owned (w.thread t)=some o := by
    rw [h.thread]
    rfl
  have hsilent : ∃ new,w.history=w.history++new ∧ ∀ e∈new,e.requestId≠id :=
    ⟨[],(List.append_nil _).symm,fun e he => by cases he⟩
  -- A thread other than the allocating one owns a reservation with another id.
  have hother : ∀ {t' o'},owned (w.thread t')=some o' → w'.thread t=w.thread t →
      w'.thread t'≠w.thread t' → (w.object o').id≠id := by
    intro t' o' ho' hthread hmoved hid
    have hm := (htable.owned_marked ho').1
    have hsame : o'=o := congrArg Prod.snd (htable.entry_unique hm hentry hid)
    have ht := htable.oneOwner t' t o' ho' (by rw [howner,hsame])
    exact hmoved (ht ▸ hthread)
  rcases move_thread hmove t with hthread|hidle|hpast
  · refine .inl ?_
    cases hmove with
    | stopped x cause => exact h.next hthread (withObject_id (by rfl) o) rfl hsilent
    | @retired id' x reason hx hrunning hdone =>
      refine h.next hthread (by rw [World.within_toControl,retire_object])
        (by simp [Control.retire]) ⟨_,retire_noted,fun e he => ?_⟩
      rw [noted_requestId he]
      intro hid
      have hsame := congrArg Prod.snd (htable.entry_unique hx hentry hid)
      rw [show x=o from hsame,hmarked] at hdone
      cases hdone
    | installed hnone =>
      rw [hnone] at hloaded
      cases hloaded
    | unloaded hempty =>
      rw [hempty] at hentry
      cases hentry
    | shortened deadline hrunning => exact h.next hthread (withObject_id (by rfl) o) rfl hsilent
    | returned hidle => exact h.next hthread rfl rfl hsilent
    | @admitted t' d' id' tokens queryTokens deadline memory claims' hidle hdeployment hfind =>
      have hold : o≠w.objects := Nat.ne_of_lt (htable.fresh _ hentry)
      refine h.next hthread ?_ (by simp) ⟨_,recordLifecycle_noted,fun e he => ?_⟩
      · rw [World.goto_toControl,recordLifecycle_object,Control.emplace_object,
          Function.update_of_ne hold]
      · rw [noted_requestId he]
        intro hid
        rw [show id'=id from hid,(htable.find_iff _ _).mpr hentry] at hfind
        cases hfind
    | @allocationFailed t' o' d' claims' ht' =>
      have hids := @hother t' o' (by rw [ht']; rfl) hthread (by simp [ht'])
      obtain ⟨new,hnew,hnewIds⟩ := retireFound_events w.toControl (w.object o').id
        "allocation-failed"
      exact h.next hthread (by simp) (by simp [Control.retireFound,Control.retire]; split <;> simp)
        ⟨new,hnew,fun e he => by rw [hnewIds e he]; exact hids⟩
    | @allocationDropped t' o' d' claims' reason ht' =>
      have hids := @hother t' o' (by rw [ht']; rfl) hthread (by simp [ht'])
      obtain ⟨new,hnew,hnewIds⟩ := retireFound_events (w.finishAllocation o') (w.object o').id
        reason
      refine h.next hthread ?_ (by simp [Control.retireFound,Control.retire]; split <;> simp)
        ⟨new,hnew,fun e he => by rw [hnewIds e he]; exact hids⟩
      rw [World.goto_toControl,retireFound_object]
      exact withObject_id (by rfl) o
    | allocationKept ht' => exact h.next hthread (withObject_id (by rfl) o) rfl hsilent
    | allocationClaimed ht' hrunning =>
      refine h.next hthread ?_ rfl hsilent
      exact (withObject_id (by rfl) o).trans (withObject_id (by rfl) o)
    | claimed hidle hx hdone hrunning => exact h.next hthread (withObject_id (by rfl) o) rfl hsilent
    | @completed t' o' d' now ht' =>
      have hids := @hother t' o' (by rw [ht']; rfl) hthread (by simp [ht'])
      obtain ⟨new,hnew,hnewIds⟩ := release_events w.toControl o' .completed now
      exact h.next hthread (release_id _ _ _ _ _) (release_deployment _ _ _ _)
        ⟨new,hnew,fun e he => by rw [hnewIds e he]; exact hids⟩
    | @left t' o' d' now ht' =>
      rcases ht' with ht'|ht'
      · have hids := @hother t' o' (by rw [ht']; rfl) hthread (by simp [ht'])
        obtain ⟨new,hnew,hnewIds⟩ := release_events w.toControl o' .failed now
        exact h.next hthread (release_id _ _ _ _ _) (release_deployment _ _ _ _)
          ⟨new,hnew,fun e he => by rw [hnewIds e he]; exact hids⟩
      · have hgone := htable.release_gone (htable.gone _ _ _ ht') .failed now
        rw [hgone] at hthread ⊢
        exact h.next hthread rfl rfl hsilent
    | dropped ht' => exact h.next hthread rfl rfl hsilent
    | ticked elapsed => exact h.next hthread rfl rfl hsilent
  · rw [h.thread] at hidle
    cases hidle
  · exact .inr hpast

variable {textDigest : String → String}

/-- Until its thread goes on, nothing touches an allocating reservation. -/
theorem Doomed.path (h : Doomed u w t o d claims id) (htable : Table w) {as : List Action}
    (path : (machine textDigest).Path (fun _ _ => True) w as w') :
    Table w' ∧ (Doomed u w' t o d claims id ∨ Past (w'.thread t)) := by
  refine path.preserves (I:=fun v => Table v ∧ (Doomed u v t o d claims id ∨ Past (v.thread t)))
    ?_ ⟨htable,.inl h⟩
  intro v a v' _ hv hone
  refine closure_preserves (I:=fun v => Table v ∧
    (Doomed u v t o d claims id ∨ Past (v.thread t))) ?_ (hv.1.step hone) hv
  rintro x y ⟨hx,hdoomed|hpast⟩ hmove
  · exact ⟨hx.move hmove,hdoomed.move hx hmove⟩
  · refine ⟨hx.move hmove,.inr ?_⟩
    rcases move_thread hmove t with hsame|hidle|hnext
    · rw [hsame]
      exact hpast
    · exact absurd hidle hpast.1
    · exact hnext

end Allocating

/-- An id that is not found is not filed. -/
theorem filter_find_none {c : Control} {id : String} (h : c.find id=none) :
    (c.active.filter fun entry => entry.1≠id)=c.active := by
  refine List.filter_eq_self.mpr fun entry hm => ?_
  have hne := List.lookup_eq_none_iff.mp h entry hm
  rw [decide_eq_true_eq]
  intro hid
  simp [hid] at hne

/-- A call that found a reservation does not allocate. -/
theorem claimed_not_allocating {c : Control} {t o' : ℕ} {claiming : Bool}
    (h : (if claiming=true then some (w.claim c t o') else some (w.goto c t .ended))=some w')
    (o d : ℕ) (claims : Bool) : w'.thread t≠.allocating o d claims := by
  intro hthread
  split at h
  · cases h
    unfold World.claim at hthread
    split at hthread
    · rw [World.goto_thread,Function.update_self] at hthread
      cases hthread
    · rw [World.grant_thread,Function.update_self] at hthread
      cases hthread
  · cases h
    rw [World.goto_thread,Function.update_self] at hthread
    cases hthread

/-- What a call that goes on to allocate has done. -/
theorem reserveCall_admitted {t o d : ℕ} {claims : Bool} {call : ReserveCall} {stage : Option ℕ}
    {readings : String → ℕ} {now : ℕ} (h : w.reserveCall t call stage readings now=some w')
    (hthread : w'.thread t=.allocating o d claims) :
    (w.pruneExpired readings).find call.requestId=none ∧ o=(w.pruneExpired readings).objects ∧
      ∃ r : ActiveRequest,r.id=call.requestId ∧
        w'.toControl=((w.pruneExpired readings).emplace r).recordLifecycle .admitted
          call.requestId "" := by
  unfold World.reserveCall at h
  split at h
  · split at h
    · cases h
      rw [World.goto_thread,Function.update_self] at hthread
      cases hthread
    · rename_i d' hmatching
      split at h
      · cases h
        rw [World.goto_thread,Function.update_self] at hthread
        cases hthread
      · rcases reserve_cases w.toControl d' call.requestId call.tokens call.prefillChunkTokens
          call.deadlineMs readings now with
          ⟨e,hr⟩|⟨o',-,-,hr|⟨deadline,-,hr⟩⟩|⟨memory,deadline,hfind,-,hr⟩
        · rw [hr] at h
          cases h
          rw [World.goto_thread,Function.update_self] at hthread
          cases hthread
        · rw [hr] at h
          exact absurd hthread (claimed_not_allocating h o d claims)
        · rw [hr] at h
          exact absurd hthread (claimed_not_allocating h o d claims)
        · rw [hr] at h
          cases h
          rw [World.goto_thread,Function.update_self] at hthread
          cases hthread
          exact ⟨hfind,rfl,_,rfl,rfl⟩
  · cases h

/-- What a failed allocation has done. -/
theorem allocationEnds_failed {t o d : ℕ} {claims : Bool} {answer : Allocation}
    {now recheck : ℕ} (htable : Table w) (hthread : w.thread t=.allocating o d claims)
    (hfailed : answer≠.sequence) (h : w.allocationEnds t answer now recheck=some w') :
    w'=w.goto (w.retire (w.object o).id o "allocation-failed") t .ended := by
  have hfind : w.find (w.object o).id=some o :=
    (htable.find_iff _ _).mpr (htable.allocatingThread t o d claims hthread).1
  have hretire : w.retireFound (w.object o).id "allocation-failed"=
      w.retire (w.object o).id o "allocation-failed" := by
    rw [Control.retireFound,hfind]
  unfold World.allocationEnds at h
  rw [hthread] at h
  cases answer with
  | sequence => exact absurd rfl hfailed
  | null =>
    simp only [Control.allocated,hretire] at h
    cases h
    rfl
  | failed failure =>
    simp only [Control.allocated,hretire] at h
    cases h
    rfl

/-- Events of other ids replay the same way beside an id. -/
theorem foldl_replay_beside {id : String} (events : List LifecycleEvent)
    (hothers : ∀ e∈events,e.requestId≠id) (ids final : Finset String) (hnew : id∉ids)
    (h : events.foldl replayEvent (some (insert id ids))=some final) :
    events.foldl replayEvent (some ids)=some (final.erase id) := by
  induction events generalizing ids with
  | nil =>
    cases h
    rw [List.foldl_nil,Finset.erase_insert hnew]
  | cons e events ih =>
    have hne : e.requestId≠id := hothers e (.head _)
    have hrest : ∀ x∈events,x.requestId≠id := fun x hx => hothers x (.tail _ hx)
    have hmem : e.requestId∈insert id ids ↔ e.requestId∈ids := by
      rw [Finset.mem_insert]
      exact ⟨fun h => h.resolve_left hne,.inr⟩
    have hstuck : events.foldl replayEvent none=none := by
      clear h ih hrest hothers
      induction events with
      | nil => rfl
      | cons e events ih => exact ih
    rw [List.foldl_cons] at h ⊢
    cases hkind : e.kind with
    | admitted =>
      simp only [replayEvent,Option.bind_some,hkind,hmem] at h ⊢
      split at h
      · rw [hstuck] at h
        cases h
      · rename_i hunknown
        rw [if_neg hunknown]
        refine ih hrest (insert e.requestId ids) ?_ ?_
        · rw [Finset.mem_insert]
          rintro (hid|hid)
          · exact hne hid.symm
          · exact hnew hid
        · rw [Finset.insert_comm]
          exact h
    | retired =>
      simp only [replayEvent,Option.bind_some,hkind,hmem] at h ⊢
      split at h
      · rename_i hknown
        rw [if_pos hknown]
        refine ih hrest (ids.erase e.requestId) (fun hid => hnew (Finset.mem_of_mem_erase hid)) ?_
        rw [←Finset.erase_insert_of_ne hne.symm]
        exact h
      · rw [hstuck] at h
        cases h

/-- An admission adds an id. -/
theorem keys_admitted (c : Control) (r : ActiveRequest) :
    keys ((c.emplace r).recordLifecycle .admitted r.id "")=insert r.id (keys c) := by
  ext x
  simp only [keys,recordLifecycle_active,Control.emplace_active,List.mem_toFinset,List.mem_map,
    mem_insertEntry,Finset.mem_insert]
  constructor
  · rintro ⟨entry,rfl|hm,rfl⟩
    · exact .inl rfl
    · exact .inr ⟨entry,hm,rfl⟩
  · rintro (rfl|⟨entry,hm,rfl⟩)
    · exact ⟨_,.inl rfl,rfl⟩
    · exact ⟨entry,.inr hm,rfl⟩

/-- A retirement removes an id. -/
theorem keys_retire (c : Control) (id reason : String) (o : ℕ) :
    keys (c.retire id o reason)=(keys c).erase id := by
  ext x
  simp only [keys,Control.retire,recordLifecycle_active,Control.erase_active,
    List.mem_toFinset,List.mem_map,List.mem_filter,Finset.mem_erase,decide_eq_true_eq]
  constructor
  · rintro ⟨entry,⟨hm,hne⟩,rfl⟩
    exact ⟨hne,entry,hm,rfl⟩
  · rintro ⟨hne,entry,hm,rfl⟩
    exact ⟨entry,⟨hm,hne⟩,rfl⟩

/-- An id that is not found is no key. -/
theorem find_none_keys {c : Control} {id : String} (h : c.find id=none) : id∉keys c := by
  intro hm
  obtain ⟨entry,hentry,hid⟩ := List.mem_map.mp (List.mem_toFinset.mp hm)
  have hne := List.lookup_eq_none_iff.mp h entry hentry
  simp [hid] at hne

/-- A move keeps the configuration. -/
theorem move_config (hmove : Move w w') : w'.config=w.config := by
  have hrelease : ∀ o outcome now,(w.release o outcome now).config=w.config := by
    intro o outcome now
    unfold Control.release
    split
    · simp [Control.retire]
    · rfl
  cases hmove with
  | retired => simp [Control.retire]
  | admitted => simp
  | allocationFailed =>
    simp only [World.goto_toControl,Control.retireFound]
    split
    · simp [Control.retire]
    · rfl
  | allocationDropped =>
    simp only [World.goto_toControl,Control.retireFound]
    split
    · simp [Control.retire]
    · rfl
  | completed => exact hrelease _ _ _
  | left => exact hrelease _ _ _
  | _ => rfl

section Reachable

variable {textDigest : String → String}

/-- A log that is kept replays to the table in every reachable state. -/
theorem faithful_reachable (h : (machine textDigest).Reachable w)
    (hon : w.config.requestObservations=true) : Faithful w.toControl := by
  have hboth : Table w ∧ (w.config.requestObservations=true → Faithful w.toControl) := by
    refine Machine.Reachable.induct_moves
      (I:=fun w => Table w ∧ (w.config.requestObservations=true → Faithful w.toControl)) ?_
      (fun s a t hs hone => hs.1.step hone) (fun s t hs hmove => ⟨hs.1.move hmove,?_⟩) h
    · rintro s ⟨config,capabilities,blank,empty,-,rfl⟩
      exact ⟨table_start config capabilities blank empty,
        faithful_start config capabilities blank empty⟩
    · intro hlater
      rw [move_config hmove] at hlater
      have hfaithful := hs.2 hlater
      exact hfaithful.recorded (recorded_move hs.1 hfaithful.toLogged hlater hmove)
  exact hboth.2 hon

/-- A failed allocation from its pruned state to its end: between admission
(`u`) and failure (`v` to `w`) other threads may do anything. -/
structure RolledBack (pruned : Control) (u v w : World) (id : String) (o : ℕ) : Prop where
  /-- The admission adds one entry to the pruned table. -/
  before : (u.active.filter fun entry => entry.1≠id)=pruned.active
  /-- The admission leaves every other reservation as it was. -/
  objects : ∀ x,x≠o → u.object x=pruned.object x
  /-- Nothing replaces the entry. -/
  doomed : (id,o)∈u.active ∧ (id,o)∈v.active
  /-- The failure takes this entry away. -/
  after : w.active=v.active.filter fun entry => entry.1≠id
  /-- The failure leaves every reservation as it was. -/
  kept : w.object=v.object
  /-- The deployment stays throughout. -/
  deployment : u.deployment=pruned.deployment ∧ v.deployment=pruned.deployment ∧
    w.deployment=pruned.deployment
  /-- The largest number of reservations does not count the entry. -/
  peak : u.peakConcurrentRequests=pruned.peakConcurrentRequests ∧
    w.peakConcurrentRequests=v.peakConcurrentRequests
  /-- The log gets one pair of events. Those between are about other ids, and
  without the pair the log replays to the same table. -/
  events : ∃ admitted retired between,
    admitted.kind=.admitted ∧ admitted.requestId=id ∧
    retired.kind=.retired ∧ retired.requestId=id ∧ retired.reason="allocation-failed" ∧
    (∀ e∈between,e.requestId≠id) ∧
    u.history=pruned.history++noted pruned admitted ∧ v.history=u.history++between ∧
    w.history=v.history++noted pruned retired ∧
    (pruned.config.requestObservations=true →
      replay (pruned.history++between)=some (keys w.toControl))
  /-- The retained log is the end of the history. -/
  window : w.lifecycle=w.history.drop (w.history.length-kLifecycleHistory)

/-- A run keeps the configuration. -/
theorem path_config (htable : Table w) {as : List Action}
    (path : (machine textDigest).Path (fun _ _ => True) w as w') : w'.config=w.config := by
  have hmoves : ∀ {x y : World},ReflTransGen Move x y → y.config=x.config := by
    intro x y h
    induction h with
    | refl => rfl
    | tail _ hlast ih => exact (move_config hlast).trans ih
  exact @Machine.Path.relates World Action (machine textDigest) (fun _ _ => True) Table
    (fun x y => y.config=x.config) (fun _ => rfl) (fun _ _ _ hxy hyz => hyz.trans hxy)
    (fun _ _ _ _ hx hone => closure_preserves (fun _ _ hv => hv.move) (hx.step hone) hx)
    (fun _ _ _ _ hx hone => hmoves (hx.step hone)) _ _ _ path htable

/-- Whatever happens meanwhile, a failed allocation rolls its admission back. -/
theorem allocation_rolls_back {u v : World} (h : (machine textDigest).Reachable w) {t o d : ℕ}
    {claims : Bool} {call : ReserveCall} {stage : Option ℕ} {readings : String → ℕ} {now : ℕ}
    (hcall : w.reserveCall t call stage readings now=some u)
    (hthread : u.thread t=.allocating o d claims) {as : List Action}
    (path : (machine textDigest).Path (fun _ _ => True) u as v) {answer : Allocation}
    {ended recheck : ℕ} (hfailed : answer≠.sequence)
    (hends : v.allocationEnds t answer ended recheck=some w') :
    RolledBack (w.pruneExpired readings) u v w' call.requestId o := by
  obtain ⟨hfind,ho,r,hid,hu⟩ := reserveCall_admitted hcall hthread
  have hreachU : (machine textDigest).Reachable u := by
    cases stage with
    | none => exact h.step (a:=.reserveRequest t call readings now) hcall
    | some k => exact h.step (a:=.acquire t call k readings now) hcall
  have htableU := table_reachable hreachU
  have hnamed : (u.object o).id=call.requestId := by
    rw [hu,recordLifecycle_object,Control.emplace_object,ho,Function.update_self,hid]
  have hentryU := (htableU.allocatingThread t o d claims hthread).1
  rw [hnamed] at hentryU
  have hdoomedU : Doomed u u t o d claims call.requestId :=
    ⟨hthread,hnamed,rfl,[],(List.append_nil _).symm,fun e he => by cases he⟩
  obtain ⟨htableV,hdoomed|hpast⟩ := hdoomedU.path htableU path
  · have hw := allocationEnds_failed htableV hdoomed.thread hfailed hends
    have hentryV := (htableV.allocatingThread t o d claims hdoomed.thread).1
    rw [hdoomed.named] at hw hentryV
    obtain ⟨between,hbetween,hothers⟩ := hdoomed.others
    have hconfigU : u.config=(w.pruneExpired readings).config := by
      rw [hu,recordLifecycle_config]
      rfl
    have hconfigV : v.config=(w.pruneExpired readings).config :=
      (path_config htableU path).trans hconfigU
    have hnoted : ∀ (c : Control) e,c.config=(w.pruneExpired readings).config →
        noted c e=noted (w.pruneExpired readings) e := by
      intro c e hc
      unfold noted
      rw [hc]
    have hhistoryU : u.history=(w.pruneExpired readings).history++
        noted (w.pruneExpired readings) (eventOf ((w.pruneExpired readings).emplace r) .admitted
          call.requestId "") := by
      rw [hu,recordLifecycle_noted,hnoted _ _ (by rfl)]
      rfl
    have hhistoryW : w'.history=v.history++noted (w.pruneExpired readings)
        (eventOf (v.erase call.requestId o "allocation-failed") .retired call.requestId
          "allocation-failed") := by
      rw [hw,World.goto_toControl,retire_noted,hnoted _ _ hconfigV]
    have hdeploymentU : u.deployment=(w.pruneExpired readings).deployment := by
      rw [hu,recordLifecycle_deployment]
      rfl
    have hdeploymentV := hdoomed.deployment.trans hdeploymentU
    have hreachV : (machine textDigest).Reachable v := by
      obtain ⟨s₀,as₀,hinit,hpath⟩ := hreachU
      exact ⟨s₀,as₀++as,hinit,hpath.append path⟩
    have hreachW : (machine textDigest).Reachable w' :=
      hreachV.step (a:=.allocationEnds t answer ended recheck) hends
    refine ⟨?_,?_,⟨hentryU,hentryV⟩,?_,?_,⟨hdeploymentU,hdeploymentV,?_⟩,⟨?_,?_⟩,?_,
      (logged_reachable hreachW).window⟩
    · rw [hu,recordLifecycle_active,Control.emplace_active,hid]
      have hgone := @filter_insertEntry (call.requestId,(w.pruneExpired readings).objects)
        (w.pruneExpired readings).active (fun entry => decide (entry.1≠call.requestId)) (by simp)
      rw [hgone]
      exact filter_find_none hfind
    · intro x hx
      rw [hu,recordLifecycle_object,Control.emplace_object,Function.update_of_ne (ho ▸ hx)]
    · rw [hw,World.goto_toControl,Control.retire,recordLifecycle_active,Control.erase_active]
    · rw [hw,World.goto_toControl,retire_object]
    · rw [hw,World.goto_toControl,Control.retire,recordLifecycle_deployment]
      exact hdeploymentV
    · rw [hu,recordLifecycle_peak]
      rfl
    · rw [hw,World.goto_toControl,retire_peak]
    · refine ⟨_,_,between,rfl,rfl,rfl,rfl,rfl,hothers,hhistoryU,hbetween,hhistoryW,?_⟩
      intro hon
      have hreplayU := (faithful_reachable hreachU (by rw [hconfigU]; exact hon)).replayed
      have hreplayV := (faithful_reachable hreachV (by rw [hconfigV]; exact hon)).replayed
      have hreachP : (machine textDigest).Reachable (w.within (w.pruneExpired readings)) :=
        h.step (a:=.prune readings) rfl
      have hreplayP := (faithful_reachable hreachP hon).replayed
      have hkeysU : keys u.toControl=insert call.requestId (keys (w.pruneExpired readings)) := by
        rw [hu,←hid]
        exact keys_admitted _ r
      have hkeysW : keys w'.toControl=(keys v.toControl).erase call.requestId := by
        rw [hw,World.goto_toControl]
        exact keys_retire _ _ _ _
      have hnew : call.requestId∉keys (w.pruneExpired readings) := find_none_keys hfind
      rw [replay] at hreplayU hreplayV
      rw [hbetween,List.foldl_append,hreplayU,hkeysU] at hreplayV
      rw [World.within_toControl,replay] at hreplayP
      rw [hkeysW,replay,List.foldl_append,hreplayP]
      exact foldl_replay_beside between hothers _ _ hnew hreplayV
  · have hends' := hends
    unfold World.allocationEnds at hends'
    split at hends'
    · rename_i o' d' claims' hallocating
      exact absurd hallocating (hpast.2 o' d' claims')
    · cases hends'

end Reachable

/-- Failed reservations and loads leave no trace. A `reserve` that fails before
admission leaves the pruned state; so does an `acquire`, unless it names a stale
deployment or stage and does nothing at all. A retry at most moves a deadline
forward. A failed allocation rolls its admission back whatever happened
meanwhile. A rejected load leaves the pruned state, so a worker without a
deployment stays without one. -/
theorem failures_leave_no_trace {textDigest : String → String} {w : World}
    (h : (machine textDigest).Reachable w) :
    (∀ d id tokens chunk deadlineMs readings now c error,
      w.reserve d id tokens chunk deadlineMs readings now=(c,.error error) →
        c=w.pruneExpired readings) ∧
    (∀ call stage readings now c error,
      acquire w.toControl call stage readings now=(c,.error error) →
        Stale w.toControl call stage ∧ c=w.toControl ∨ c=w.pruneExpired readings) ∧
    (∀ d id tokens chunk deadlineMs readings now o,
      Retries (w.pruneExpired readings) id tokens chunk o →
        ∃ deadline ≤ ((w.pruneExpired readings).object o).deadline,
          (w.reserve d id tokens chunk deadlineMs readings now).1=
            (w.pruneExpired readings).withObject o
              {(w.pruneExpired readings).object o with deadline := deadline} ∧
          (id≠"" → id.utf8ByteSize ≤ 256 →
            (∃ asked,requestDeadline deadlineMs now=.ok asked) →
            ((w.pruneExpired readings).object o).allocating=false →
            (w.reserve d id tokens chunk deadlineMs readings now).2=.ok (.existing o))) ∧
    (∀ t call stage readings now u o d claims,
      w.reserveCall t call stage readings now=some u → u.thread t=.allocating o d claims →
      ∀ as v,(machine textDigest).Path (fun _ _ => True) u as v →
      ∀ answer ended recheck w',answer≠.sequence →
        v.allocationEnds t answer ended recheck=some w' →
        RolledBack (w.pruneExpired readings) u v w' call.requestId o) ∧
    ∀ request answer readings,
      ((w.pruneExpired readings).load textDigest request answer).2.accepted=false →
      ((w.pruneExpired readings).load textDigest request answer).1=w.pruneExpired readings ∧
      ((w.pruneExpired readings).load textDigest request answer).1.deployment=w.deployment := by
  refine ⟨?_,?_,?_,?_,?_⟩
  · intro d id tokens chunk deadlineMs readings now c error hreserve
    exact reserve_error hreserve
  · intro call stage readings now c error hacquire
    exact acquire_error hacquire
  · intro d id tokens chunk deadlineMs readings now o hretries
    exact reserve_retry hretries
  · intro t call stage readings now u o d claims hcall hthread as v path answer ended recheck w'
      hfailed hends
    exact allocation_rolls_back h hcall hthread path hfailed hends
  · intro request answer readings hrejected
    have hsame := load_rejected hrejected
    refine ⟨hsame,?_⟩
    rw [hsame]
    exact foldl_pruneEntry_deployment readings _ _

/-- Load the sample stage. -/
def sampleLoading : Action :=
  .loadStage (sampleLoad "a") (fun _ => 0) (.ok (some sampleBackend))

/-- Another request is admitted beside the doomed one and keeps its place. -/
def meanwhile : List Action := [
  .reserveRequest 1 {sampleCall "a" with requestId := "other"} (fun _ => 1) 1,
  .allocationEnds 1 .sequence 1 1]

/-- The failed allocation leaves the other request only. -/
theorem other_request_survives_rollback :
    ∃ w u v w',(machine id).run sampleStart [sampleLoading]=some w ∧
      w.reserveCall 0 (sampleCall "a") none (fun _ => 0) 0=some u ∧
      (machine id).run u meanwhile=some v ∧
      v.allocationEnds 0 (.failed .badAlloc) 2 2=some w' ∧ w'.active=[("other",1)] ∧
      RolledBack (w.pruneExpired fun _ => 0) u v w' "request" 0 := by
  obtain ⟨w,hload,u,hcall,hthread,v,hrun,w',hends,hactive⟩ :
      ∃ w,(machine id).run sampleStart [sampleLoading]=some w ∧
      ∃ u,w.reserveCall 0 (sampleCall "a") none (fun _ => 0) 0=some u ∧
        u.thread 0=.allocating 0 0 false ∧
      ∃ v,(machine id).run u meanwhile=some v ∧
      ∃ w',v.allocationEnds 0 (.failed .badAlloc) 2 2=some w' ∧ w'.active=[("other",1)] :=
    ⟨_,rfl,_,rfl,rfl,_,rfl,_,rfl,by decide⟩
  have hreach := Machine.reachable_of_run (sampleStart_initial id) hload
  have htrace := failures_leave_no_trace hreach
  exact ⟨w,u,v,w',hload,hcall,hrun,hends,hactive,
    htrace.2.2.2.1 0 (sampleCall "a") none (fun _ => 0) 0 u 0 0 false hcall hthread meanwhile v
      (Machine.path_of_run hrun) (.failed .badAlloc) 2 2 w' (by simp) hends⟩

/-- A load rejected for the sake of another deployment leaves that deployment. -/
theorem rejected_load_keeps_deployment :
    ∃ w,(machine id).Reachable w ∧
      ((w.pruneExpired fun _ => 1).load id (sampleLoad "b")
        (.ok (some sampleBackend))).2.accepted=false ∧
      ((w.pruneExpired fun _ => 1).load id (sampleLoad "b")
        (.ok (some sampleBackend))).1.deployment≠none := by
  obtain ⟨w,hload,hrejected,hdeployment⟩ :
      ∃ w,(machine id).run sampleStart [sampleLoading]=some w ∧
      ((w.pruneExpired fun _ => 1).load id (sampleLoad "b")
        (.ok (some sampleBackend))).2.accepted=false ∧
      ((w.pruneExpired fun _ => 1).load id (sampleLoad "b")
        (.ok (some sampleBackend))).1.deployment=some 0 := ⟨_,rfl,by decide,by decide⟩
  refine ⟨w,Machine.reachable_of_run (sampleStart_initial id) hload,hrejected,?_⟩
  rw [hdeployment]
  simp

end Hllm.ControlAtomicity
