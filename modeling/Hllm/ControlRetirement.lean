import Hllm.ControlHistory

/-!
# Reasons of retirement

Four paths retire a request whose sequence was allocated. Three of them
report the first stop cause. The drop at the end of an allocation reads the
clock again instead, and reports that reading. A retirement is compared with
the first cause found in the states of the run, and the steps that agree are
characterised by the state before them.
-/

namespace Hllm.ControlRetirement

open RunInvariants ControlModel ControlTransitions ControlTable ControlReservations
open ControlHistory Relation

/-- The first stop cause of a request in a list of states. -/
def firstCause (o : ℕ) : List World → StopCause
  | [] => .none
  | w::ws =>
    if o < w.objects ∧ (w.object o).stopCause≠.none then (w.object o).stopCause
    else firstCause o ws

/-- The reason a retirement should have. -/
def dueReason (completed : Bool) (cause : StopCause) (passed : Bool) : String :=
  if completed then "completed"
  else match cause with
    | .cancelled => "cancelled"
    | .expired => "expired"
    | .none => if passed then "expired" else "failed"

/-- The execution owner of a request releases it as completed. -/
def completes (w : World) (a : Action) (o : ℕ) : Bool :=
  match a with
  | .complete t _ =>
    match w.thread t with
    | .leased _ o' => o'=o
    | _ => false
  | _ => false

/-- A step found the deadline of a request passed. -/
def passed (a : Action) (deadline : ℕ) : Bool :=
  match a with
  | .allocationEnds _ _ now _ => deadline ≤ now
  | .leave _ _ _ recheck => deadline ≤ recheck
  | _ => false

/-- Retirements of a step after a run, all with the reasons due, as far as
their sequences were allocated. -/
def ReportsFirstCause (trace : List World) (w : World) (a : Action) (w' : World) : Prop :=
  ∃ new,w'.retired=w.retired++new ∧ ∀ x∈new,(w'.object x.1).allocating=false →
    x.2=dueReason (completes w a x.1) (firstCause x.1 trace) (passed a (w'.object x.1).deadline)

/-- The step drops no allocated request, or the second clock reading of the
drop is past the deadline exactly if the first cause is not a cancellation. -/
def DropsByCause (w : World) (a : Action) : Prop :=
  match a with
  | .allocationEnds t .sequence now recheck => ∀ o d claims,w.thread t=.allocating o d claims →
    (w.object o).cancelled=true ∨ (w.object o).deadline ≤ now →
    ((w.object o).deadline ≤ recheck ↔ (w.object o).stopCause≠.cancelled)
  | _ => True

/-- A request whose flag and cause agree, and that has no cause while it
waits for an owner. -/
def Calm (r : ActiveRequest) : Prop :=
  (r.cancelled=true ↔ r.stopCause≠.none) ∧
    (r.running=false → r.allocating=false → r.stopCause=.none)

/-- All reservations are calm. -/
def AllCalm (c : Control) : Prop := ∀ entry∈c.active,Calm (c.object entry.2)

/-- A stop with a cause sets flag and cause. -/
theorem stop_flagged {r : ActiveRequest} {cause : StopCause} (hcause : cause≠.none) :
    (r.stop cause).cancelled=true ∧ (r.stop cause).stopCause≠.none := by
  refine ⟨rfl,?_⟩
  simp only [ActiveRequest.stop]
  split
  · exact hcause
  · assumption

/-- A stopped request with an owner, or being allocated, is calm. -/
theorem calm_stop {r : ActiveRequest} {cause : StopCause} (hcause : cause≠.none)
    (hbusy : r.running=true ∨ r.allocating=true) : Calm (r.stop cause) := by
  obtain ⟨hflag,hset⟩ := stop_flagged (r := r) hcause
  refine ⟨⟨fun _ => hset,fun _ => hflag⟩,fun hrunning hallocating => ?_⟩
  have hrunning' : r.running=false := hrunning
  have hallocating' : r.allocating=false := hallocating
  rcases hbusy with hbusy|hbusy
  · rw [hbusy] at hrunning'
    cases hrunning'
  · rw [hbusy] at hallocating'
    cases hallocating'

/-- Entries that stay as they were, or are calm, keep all calm. -/
theorem AllCalm.frame {c c' : Control} (h : AllCalm c)
    (hentries : ∀ entry∈c'.active,
      Calm (c'.object entry.2) ∨ entry∈c.active ∧ c'.object entry.2=c.object entry.2) :
    AllCalm c' := by
  intro entry hm
  rcases hentries entry hm with hcalm|⟨hold,hsame⟩
  · exact hcalm
  · rw [hsame]
    exact h entry hold

section Prune

variable (readings : String → ℕ)

@[simp] theorem pruneExpired_objects (c : Control) :
    (c.pruneExpired readings).objects=c.objects := by
  have hfold : ∀ (entries : List (String×ℕ)) (c : Control),
      (entries.foldl (Control.pruneEntry readings) c).objects=c.objects := by
    intro entries
    induction entries with
    | nil => exact fun _ => rfl
    | cons entry entries ih =>
      intro c
      rw [List.foldl_cons,ih]
      unfold Control.pruneEntry
      split
      · split <;> simp
      · rfl
  exact hfold c.active c

/-- What the pruning loop does to calm reservations. -/
structure Prunes (entries : List (String×ℕ)) (u v : Control) : Prop where
  /-- Every retirement is an expiry. -/
  expired : ∃ new,v.retired=u.retired++new ∧ ∀ x∈new,x.2="expired" ∧
    (v.object x.1).stopCause=.expired ∧ x.1∈entries.map Prod.snd
  /-- All stay calm. -/
  calm : AllCalm v
  /-- Entries are only removed. -/
  table : ∀ entry∈v.active,entry∈u.active
  /-- Other objects are left alone. -/
  others : ∀ o,o∉entries.map Prod.snd → v.object o=u.object o

/-- One pruning visit. -/
theorem prunes_entry {u : Control} (hcalm : AllCalm u) {entry : String×ℕ}
    (hentry : entry∈u.active) (hunique : ∀ a∈u.active,a.2=entry.2 → a=entry) :
    Prunes [entry] u (Control.pruneEntry readings u entry) := by
  have hothers : ∀ o,o∉[entry].map Prod.snd →
      (u.withObject entry.2 ((u.object entry.2).stop .expired)).object o=u.object o := by
    intro o ho
    rw [Control.withObject_object,Function.update_of_ne (by simpa using ho)]
  have hself : (u.withObject entry.2 ((u.object entry.2).stop .expired)).object entry.2=
      (u.object entry.2).stop .expired := by
    rw [Control.withObject_object,Function.update_self]
  unfold Control.pruneEntry
  split
  · dsimp only
    split
    · rename_i hfree
      simp only [Bool.and_eq_true,Bool.not_eq_true'] at hfree
      have hnone := (hcalm entry hentry).2 hfree.1 hfree.2
      refine ⟨⟨[(entry.2,"expired")],?_,?_⟩,?_,?_,?_⟩
      · rw [Control.retire,recordLifecycle_retired]
        rfl
      · rintro x hx
        rw [List.mem_singleton] at hx
        subst hx
        refine ⟨rfl,?_,by simp⟩
        rw [retire_object,hself]
        simp [ActiveRequest.stop,hnone]
      · refine hcalm.frame fun other hm => .inr ?_
        simp only [Control.retire,recordLifecycle_active,Control.erase_active,List.mem_filter,
          Control.withObject_active,decide_eq_true_eq] at hm
        refine ⟨hm.1,?_⟩
        rw [retire_object]
        refine hothers _ fun ho => hm.2 ?_
        rw [hunique other hm.1 (by simpa using ho)]
      · intro other hm
        simp only [Control.retire,recordLifecycle_active,Control.erase_active,List.mem_filter] at hm
        exact hm.1
      · intro o ho
        rw [retire_object]
        exact hothers o ho
    · rename_i hbusy
      refine ⟨⟨[],(List.append_nil _).symm,by simp⟩,?_,fun _ hm => hm,hothers⟩
      refine hcalm.frame fun other hm => ?_
      by_cases ho : other.2=entry.2
      · rw [ho,hself]
        refine .inl (calm_stop (by simp) ?_)
        cases hrunning : (u.object entry.2).running with
        | true => exact .inl rfl
        | false =>
          refine .inr ?_
          simpa [hrunning] using hbusy
      · exact .inr ⟨hm,hothers _ (by simpa using ho)⟩
  · exact ⟨⟨[],(List.append_nil _).symm,by simp⟩,hcalm,fun _ hm => hm,fun _ _ => rfl⟩

/-- The pruning loop. -/
theorem prunes_fold {entries : List (String×ℕ)} {u : Control} (hcalm : AllCalm u)
    (hentries : ∀ entry∈entries,entry∈u.active) (hids : (entries.map Prod.fst).Nodup)
    (hunique : ∀ a∈u.active,∀ b∈u.active,a.2=b.2 → a=b) :
    Prunes entries u (entries.foldl (Control.pruneEntry readings) u) := by
  induction entries generalizing u with
  | nil => exact ⟨⟨[],(List.append_nil _).symm,by simp⟩,hcalm,fun _ hm => hm,fun _ _ => rfl⟩
  | cons entry entries ih =>
    rw [List.map_cons,List.nodup_cons] at hids
    have hentry := hentries entry (.head _)
    have hone := prunes_entry readings hcalm hentry fun a ha => hunique a ha entry hentry
    have hremain : ∀ other∈entries,other∈(Control.pruneEntry readings u entry).active := by
      intro other hother
      refine mem_pruneEntry readings (hentries other (.tail _ hother)) fun he => ?_
      exact hids.1 (he ▸ List.mem_map_of_mem hother)
    have hrest := ih hone.calm hremain hids.2
      fun a ha b hb => hunique a (hone.table a ha) b (hone.table b hb)
    have hapart : entry.2∉entries.map Prod.snd := by
      intro hm
      obtain ⟨other,hother,ho⟩ := List.mem_map.mp hm
      have hsame := hunique other (hentries other (.tail _ hother)) entry hentry ho
      exact hids.1 (hsame ▸ List.mem_map_of_mem hother)
    obtain ⟨first,hfirst,hexpired⟩ := hone.expired
    obtain ⟨rest,hafter,hexpireds⟩ := hrest.expired
    refine ⟨⟨first++rest,?_,fun x hx => ?_⟩,hrest.calm,
      fun a ha => hone.table a (hrest.table a ha),fun o ho => ?_⟩
    · rw [List.foldl_cons,hafter,hfirst,List.append_assoc]
    · rcases List.mem_append.mp hx with hx|hx
      · obtain ⟨hreason,hcause,ho⟩ := hexpired x hx
        have hx2 : x.1=entry.2 := by simpa using ho
        refine ⟨hreason,?_,by simp [hx2]⟩
        rw [List.foldl_cons,hrest.others _ (hx2 ▸ hapart)]
        exact hcause
      · obtain ⟨hreason,hcause,ho⟩ := hexpireds x hx
        exact ⟨hreason,hcause,List.mem_cons_of_mem _ ho⟩
    · rw [List.map_cons,List.mem_cons,not_or] at ho
      rw [List.foldl_cons,hrest.others o ho.2,hone.others o (by simpa using ho.1)]

end Prune

variable {w w' : World} {textDigest : String → String}

/-- Retirements of a step, all with the reason their recorded cause gives. -/
def ReportsCause (w : World) (a : Action) (w' : World) : Prop :=
  ∃ new,w'.retired=w.retired++new ∧ ∀ x∈new,(w'.object x.1).allocating=false →
    x.2=dueReason (completes w a x.1) (w'.object x.1).stopCause
      (passed a (w'.object x.1).deadline)

/-- A step without retirements. -/
theorem reports_none {a : Action} (h : w'.retired=w.retired) : ReportsCause w a w' :=
  ⟨[],by rw [h,List.append_nil],by simp⟩

/-- A step with one retirement reports its cause exactly if the reason is due. -/
theorem reports_one {a : Action} {o : ℕ} {reason : String}
    (h : w'.retired=w.retired++[(o,reason)]) :
    ReportsCause w a w' ↔ ((w'.object o).allocating=false →
      reason=dueReason (completes w a o) (w'.object o).stopCause
        (passed a (w'.object o).deadline)) := by
  constructor
  · rintro ⟨new,hnew,hall⟩
    rw [h] at hnew
    rw [←List.append_cancel_left hnew] at hall
    exact hall (o,reason) (List.mem_singleton.mpr rfl)
  · intro hdue
    refine ⟨_,h,fun x hx => ?_⟩
    rw [List.mem_singleton] at hx
    subst hx
    exact hdue

@[simp] theorem retire_retired (c : Control) (id reason : String) (o : ℕ) :
    (c.retire id o reason).retired=c.retired++[(o,reason)] := by
  rw [Control.retire,recordLifecycle_retired,Control.erase_retired]

/-- A retirement after changes to its own request keeps the others calm. -/
theorem calm_retire (hcalm : AllCalm w.toControl) (htable : Table w) {id : String} {o : ℕ}
    (hentry : (id,o)∈w.active) (r : ActiveRequest) (reason : String) :
    AllCalm ((w.withObject o r).retire id o reason) := by
  refine hcalm.frame fun entry hm => .inr ?_
  simp only [Control.retire,recordLifecycle_active,Control.erase_active,List.mem_filter,
    Control.withObject_active,decide_eq_true_eq] at hm
  have hother : entry.2≠o := fun ho => hm.2 (by rw [htable.object_unique hm.1 hentry ho])
  rw [retire_object,Control.withObject_object,Function.update_of_ne hother]
  exact ⟨hm.1,rfl⟩

/-- The pruning pass of a critical section. -/
theorem prunes_expired (hcalm : AllCalm w.toControl) (htable : Table w) (readings : String → ℕ) :
    Prunes w.active w.toControl (w.pruneExpired readings) :=
  prunes_fold readings hcalm (fun _ h => h) htable.keys fun _ ha _ hb => htable.object_unique ha hb

/-- A critical section that retires only in its pruning pass. -/
theorem reports_prunes {a : Action} {readings : String → ℕ}
    (hprunes : Prunes w.active w.toControl (w.pruneExpired readings)) (htable : Table w)
    (hcompletes : ∀ o,completes w a o=false)
    (hretired : w'.retired=(w.pruneExpired readings).retired)
    (hcauses : ∀ o,o < w.objects →
      (w'.object o).stopCause=((w.pruneExpired readings).object o).stopCause) :
    ReportsCause w a w' := by
  obtain ⟨new,hnew,hexpired⟩ := hprunes.expired
  refine ⟨new,hretired.trans hnew,fun x hx _ => ?_⟩
  obtain ⟨hreason,hcause,ho⟩ := hexpired x hx
  obtain ⟨entry,hentry,he⟩ := List.mem_map.mp ho
  rw [hcauses _ (he ▸ htable.fresh entry hentry),hcause,hcompletes,hreason]
  rfl

/-- Replacing a request by a calm one keeps all calm. -/
theorem calm_withObject {c : Control} (hcalm : AllCalm c) (o : ℕ) {r : ActiveRequest}
    (hr : Calm r) : AllCalm (c.withObject o r) := by
  refine hcalm.frame fun entry hm => ?_
  by_cases ho : entry.2=o
  · refine .inl ?_
    rw [ho,Control.withObject_object,Function.update_self]
    exact hr
  · refine .inr ⟨hm,?_⟩
    rw [Control.withObject_object,Function.update_of_ne ho]

/-- Replacing a request by one with the same cause keeps all causes. -/
theorem cause_withObject (c : Control) {o : ℕ} {r : ActiveRequest}
    (hr : r.stopCause=(c.object o).stopCause) (x : ℕ) :
    ((c.withObject o r).object x).stopCause=(c.object x).stopCause := by
  by_cases hx : x=o
  · rw [hx,Control.withObject_object,Function.update_self,hr]
  · rw [Control.withObject_object,Function.update_of_ne hx]

/-- What a claim leaves of a calm table. -/
theorem claim_calm {c : Control} (hcalm : AllCalm c) {id : String} {t o : ℕ}
    (hentry : (id,o)∈c.active) :
    AllCalm (w.claim c t o).toControl ∧ (w.claim c t o).retired=c.retired ∧
      ∀ x,((w.claim c t o).object x).stopCause=(c.object x).stopCause := by
  unfold World.claim Control.claim
  split
  · exact ⟨hcalm,rfl,fun _ => rfl⟩
  · rename_i hclaim
    split at hclaim
    · cases hclaim
    · cases hclaim
      refine ⟨calm_withObject hcalm o ⟨(hcalm _ hentry).1,?_⟩,rfl,cause_withObject c (by rfl)⟩
      intro hrunning
      cases hrunning

/-- A reserving call keeps all calm and retires only in its pruning pass. -/
theorem reserveCall_reports (hcalm : AllCalm w.toControl) (htable : Table w) {a : Action} {t : ℕ}
    {call : ReserveCall} {stage : Option ℕ} {readings : String → ℕ} {now : ℕ}
    (hcompletes : ∀ o,completes w a o=false)
    (h : w.reserveCall t call stage readings now=some w') :
    AllCalm w'.toControl ∧ ReportsCause w a w' := by
  have hprunes := prunes_expired hcalm htable readings
  have hmoves := pruneExpired_moves htable.keys readings
  have hpruned := closure_preserves (fun u v hu => hu.move) hmoves htable
  have hafter : ∀ {c : Control} {u : World},u.toControl=c →
      AllCalm c → c.retired=(w.pruneExpired readings).retired →
      (∀ o,o < w.objects → (c.object o).stopCause=((w.pruneExpired readings).object o).stopCause) →
      AllCalm u.toControl ∧ ReportsCause w a u := by
    rintro c u rfl hc hretired hcauses
    exact ⟨hc,reports_prunes hprunes htable hcompletes hretired hcauses⟩
  unfold World.reserveCall at h
  split at h
  · split at h
    · cases h
      exact ⟨hcalm,reports_none rfl⟩
    · rename_i d hmatching
      split at h
      · cases h
        exact ⟨hcalm,reports_none rfl⟩
      · rcases reserve_cases w.toControl d call.requestId call.tokens call.prefillChunkTokens
            call.deadlineMs readings now with
          ⟨error,hr⟩|⟨o,hfind,hallocating,hr|⟨deadline,hrunning,hr⟩⟩|
            ⟨memory,deadline,hfind,hmemory,hr⟩
        · rw [hr] at h
          cases h
          exact hafter rfl hprunes.calm rfl fun _ _ => rfl
        · rw [hr] at h
          simp only at h
          split at h
          · cases h
            obtain ⟨hc,hretired,hcauses⟩ :=
              claim_calm (w := w) (t := t) hprunes.calm (mem_of_find hfind)
            exact hafter rfl hc hretired fun x _ => hcauses x
          · cases h
            exact hafter rfl hprunes.calm rfl fun _ _ => rfl
        · rw [hr] at h
          simp only at h
          have hentry := mem_of_find hfind
          have hshort := calm_withObject hprunes.calm o
            (r := {(w.pruneExpired readings).object o with
              deadline := min ((w.pruneExpired readings).object o).deadline deadline})
            (hprunes.calm _ hentry)
          have hcauses := cause_withObject (w.pruneExpired readings) (o := o)
            (r := {(w.pruneExpired readings).object o with
              deadline := min ((w.pruneExpired readings).object o).deadline deadline}) rfl
          split at h
          · cases h
            obtain ⟨hc,hretired,hclaimed⟩ := claim_calm (w := w) (t := t) hshort hentry
            exact hafter rfl hc hretired fun x _ => (hclaimed x).trans (hcauses x)
          · cases h
            exact hafter rfl hshort rfl fun x _ => hcauses x
        · rw [hr] at h
          cases h
          have hobjects : (w.pruneExpired readings).objects=w.objects := pruneExpired_objects _ _
          refine hafter rfl ?_ (by simp) fun x hx => ?_
          · refine hprunes.calm.frame fun entry hm => ?_
            simp only [World.goto_toControl,recordLifecycle_active,recordLifecycle_object,
              Control.emplace_active,Control.emplace_object,mem_insertEntry] at hm ⊢
            rcases hm with rfl|hm
            · rw [Function.update_self]
              exact .inl ⟨by simp [freshRequest],fun _ _ => rfl⟩
            · have hne : entry.2≠(w.pruneExpired readings).objects :=
                Nat.ne_of_lt (hpruned.fresh entry hm)
              rw [Function.update_of_ne hne]
              exact .inr ⟨hm,rfl⟩
          · have hne : x≠(w.pruneExpired readings).objects := by omega
            rw [World.goto_toControl,recordLifecycle_object,Control.emplace_object,
              Function.update_of_ne hne]
  · cases h

/-- The end of an allocation keeps all calm and reports the cause exactly if
its readings agree with it. -/
theorem allocationEnds_reports (hcalm : AllCalm w.toControl) (htable : Table w) {t : ℕ}
    {answer : Allocation} {now recheck : ℕ}
    (h : w.allocationEnds t answer now recheck=some w') :
    AllCalm w'.toControl ∧ (ReportsCause w (.allocationEnds t answer now recheck) w' ↔
      DropsByCause w (.allocationEnds t answer now recheck)) := by
  unfold World.allocationEnds at h
  split at h
  · rename_i o d claims hthread
    obtain ⟨hentry,hallocating,hrunning,-⟩ := htable.allocatingThread _ _ _ _ hthread
    have hfind : w.find (w.object o).id=some o := (htable.find_iff _ _).mpr hentry
    have hfailed : ∀ {u : World},
        u.toControl=w.retireFound (w.object o).id "allocation-failed" →
        AllCalm u.toControl ∧ ReportsCause w (.allocationEnds t answer now recheck) u := by
      intro u hu
      rw [Control.retireFound,hfind] at hu
      have hretired : u.retired=w.retired++[(o,"allocation-failed")] := by
        rw [hu,retire_retired]
      refine ⟨?_,(reports_one hretired).mpr fun hdone => ?_⟩
      · rw [hu]
        have hretire := calm_retire hcalm htable hentry (w.object o) "allocation-failed"
        rwa [withObject_self] at hretire
      · rw [hu,retire_object,hallocating] at hdone
        cases hdone
    unfold Control.allocated at h
    cases answer with
    | null =>
      cases h
      obtain ⟨hc,hreports⟩ := hfailed (u := w.goto _ t .ended) rfl
      exact ⟨hc,fun _ => trivial,fun _ => hreports⟩
    | failed failure =>
      cases h
      obtain ⟨hc,hreports⟩ := hfailed (u := w.goto _ t .ended) rfl
      exact ⟨hc,fun _ => trivial,fun _ => hreports⟩
    | sequence =>
      have hdrops : DropsByCause w (.allocationEnds t .sequence now recheck) ↔
          ((w.object o).cancelled=true ∨ (w.object o).deadline ≤ now →
            ((w.object o).deadline ≤ recheck ↔ (w.object o).stopCause≠.cancelled)) := by
        constructor
        · exact fun hall => hall o d claims hthread
        · intro hone o' d' claims' hthread'
          rw [hthread] at hthread'
          cases hthread'
          exact hone
      rw [hdrops]
      by_cases hdropped : ((w.object o).cancelled || decide ((w.object o).deadline ≤ now))=true
      · simp only [if_pos hdropped] at h
        cases h
        have hfound : (w.finishAllocation o).find (w.object o).id=some o := hfind
        have hobject : (w.finishAllocation o).object o=
            {w.object o with sequence := true, allocating := false} := by
          rw [Control.finishAllocation_object,Function.update_self]
        rw [Bool.or_eq_true,decide_eq_true_eq] at hdropped
        rw [World.goto_toControl,Control.retireFound,hfound]
        refine ⟨calm_retire hcalm htable hentry _ _,?_⟩
        rw [reports_one (o := o) (by rw [World.goto_toControl,retire_retired]; rfl)]
        rw [World.goto_toControl,retire_object,hobject]
        have hflag := (hcalm _ hentry).1
        simp only [completes,passed,dueReason,forall_const,Bool.false_eq_true,if_false,
          decide_eq_true_eq,hdropped]
        cases hcause : (w.object o).stopCause with
        | none =>
          rw [hcause] at hflag
          have hpast : (w.object o).deadline ≤ now := by simpa [hflag] using hdropped
          by_cases hrecheck : (w.object o).deadline ≤ recheck <;> simp [hpast,hrecheck]
        | cancelled => by_cases hrecheck : (w.object o).deadline ≤ recheck <;> simp [hrecheck]
        | expired => by_cases hrecheck : (w.object o).deadline ≤ recheck <;> simp [hrecheck]
      · simp only [if_neg hdropped] at h
        have hkeeps : ¬((w.object o).cancelled=true ∨ (w.object o).deadline ≤ now) := by
          rw [←decide_eq_true_eq (p := (w.object o).deadline ≤ now),←Bool.or_eq_true]
          exact hdropped
        have hnone : (w.object o).stopCause=.none := by
          by_contra hne
          exact hkeeps (.inl ((hcalm _ hentry).1.mpr hne))
        have hkept : AllCalm (w.keepAllocation o) :=
          calm_withObject hcalm o
            (r := {w.object o with sequence := true, allocating := false})
            ⟨(hcalm _ hentry).1,fun _ _ => hnone⟩
        split at h
        · cases h
          obtain ⟨hc,hretired,-⟩ := claim_calm (w := w) (t := t) hkept hentry
          exact ⟨hc,fun _ hor => absurd hor hkeeps,fun _ => reports_none hretired⟩
        · cases h
          exact ⟨hkept,fun _ hor => absurd hor hkeeps,fun _ => reports_none rfl⟩
  · cases h

/-- A release after changes to its own request, as long as it is in the table. -/
theorem release_reports (hcalm : AllCalm w.toControl) (htable : Table w) {o : ℕ}
    (hentry : ((w.object o).id,o)∈w.active) (r : ActiveRequest) (hid : r.id=(w.object o).id)
    (outcome : RequestOutcome) (now : ℕ) :
    AllCalm ((w.withObject o r).release o outcome now) ∧
      ((w.withObject o r).release o outcome now).retired=
        w.retired++[(o,releaseReason r outcome now)] ∧
      ((w.withObject o r).release o outcome now).object o={r with sequence := false} := by
  have hobject : (w.withObject o r).object o=r := by
    rw [Control.withObject_object,Function.update_self]
  have hfind : (w.withObject o r).find r.id=some o := by
    rw [hid]
    exact (htable.find_iff _ _).mpr hentry
  have hrelease : (w.withObject o r).release o outcome now=
      (w.withObject o {r with sequence := false}).retire r.id o (releaseReason r outcome now) := by
    unfold Control.release
    rw [hobject,if_pos hfind,withObject_withObject]
  rw [hrelease]
  rw [←hid] at hentry
  refine ⟨calm_retire hcalm htable hentry _ _,by rw [retire_retired]; rfl,?_⟩
  rw [retire_object,Control.withObject_object,Function.update_self]

/-- The reason of a failed release is due to the recorded cause. -/
theorem releaseReason_failed (r : ActiveRequest) (now : ℕ) :
    releaseReason r .failed now=dueReason false r.stopCause (decide (r.deadline ≤ now)) := by
  simp only [releaseReason,dueReason,Bool.false_eq_true,if_false]
  cases r.stopCause <;> simp

/-- A handler's return keeps all calm and reports the cause. -/
theorem leave_reports (hcalm : AllCalm w.toControl) (htable : Table w) {t : ℕ}
    {disconnected : Bool} {now recheck : ℕ} (h : w.leave t disconnected now recheck=some w') :
    AllCalm w'.toControl ∧ ReportsCause w (.leave t disconnected now recheck) w' := by
  have hdestroy : ∀ (o : ℕ) (r : ActiveRequest) (u : World),((w.object o).id,o)∈w.active →
      r.id=(w.object o).id → u.toControl=(w.withObject o r).release o .failed recheck →
      AllCalm u.toControl ∧ ReportsCause w (.leave t disconnected now recheck) u := by
    intro o r u hentry hid hu
    obtain ⟨hc,hretired,hobject⟩ := release_reports hcalm htable hentry r hid .failed recheck
    rw [←hu] at hc hretired hobject
    refine ⟨hc,(reports_one hretired).mpr fun _ => ?_⟩
    rw [hobject,releaseReason_failed]
    rfl
  have hgone : ∀ (o : ℕ) (r : ActiveRequest) (u : World),(∀ entry∈w.active,entry.2≠o) →
      r.id=(w.object o).id → u.toControl=(w.withObject o r).release o .failed recheck →
      AllCalm u.toControl ∧ ReportsCause w (.leave t disconnected now recheck) u := by
    intro o r u hentries hid hu
    have hrelease : (w.withObject o r).release o .failed recheck=w.withObject o r := by
      unfold Control.release
      rw [if_neg]
      rw [Control.withObject_object,Function.update_self,hid]
      exact fun hf => hentries _ ((htable.find_iff _ _).mp hf) rfl
    rw [hrelease] at hu
    refine ⟨?_,reports_none (by rw [hu]; rfl)⟩
    rw [hu]
    refine hcalm.frame fun entry hm => .inr ⟨hm,?_⟩
    rw [Control.withObject_object,Function.update_of_ne (hentries entry hm)]
  simp only [World.leave] at h
  split at h
  · rename_i d o hthread
    have hentry := (htable.leasedThread _ _ _ hthread).1
    cases h
    cases disconnected with
    | true => exact hdestroy o _ _ hentry (by rfl) rfl
    | false => exact hdestroy o (w.object o) _ hentry rfl (by rw [withObject_self]; rfl)
  · rename_i d o hthread
    have hentries := htable.gone _ _ _ hthread
    cases h
    cases disconnected with
    | true => exact hgone o _ _ hentries (by rfl) rfl
    | false => exact hgone o (w.object o) _ hentries rfl (by rw [withObject_self]; rfl)
  · cases h

/-- A cancellation keeps all calm and reports itself. -/
theorem cancelRequest_reports (hcalm : AllCalm w.toControl) (htable : Table w) (planId : String)
    (version : ℕ) (id : String) :
    AllCalm (w.cancelRequest planId version id).1 ∧
      ReportsCause w (.cancelRequest planId version id)
        (w.within (w.cancelRequest planId version id).1) := by
  unfold Control.cancelRequest
  split
  · exact ⟨hcalm,reports_none rfl⟩
  · split
    · exact ⟨hcalm,reports_none rfl⟩
    · rename_i o hfind
      have hentry := mem_of_find hfind
      dsimp only
      split
      · rename_i hfree
        simp only [Bool.and_eq_true,Bool.not_eq_true'] at hfree
        have hnone := (hcalm _ hentry).2 hfree.1 hfree.2
        refine ⟨calm_retire hcalm htable hentry _ _,?_⟩
        rw [reports_one (o := o) (by rw [World.within_toControl,retire_retired]; rfl)]
        intro _
        rw [World.within_toControl,retire_object,Control.withObject_object,Function.update_self]
        simp [ActiveRequest.stop,hnone,dueReason,completes]
      · rename_i hbusy
        refine ⟨calm_withObject hcalm o (calm_stop (by simp) ?_),reports_none rfl⟩
        cases hrunning : (w.object o).running with
        | true => exact .inl rfl
        | false =>
          refine .inr ?_
          simpa [hrunning] using hbusy

/-- Every step keeps all calm, and reports the recorded causes exactly if it
drops by cause. -/
theorem step_reports (hcalm : AllCalm w.toControl) (htable : Table w) {a : Action}
    (hone : w.step textDigest a=some w') :
    AllCalm w'.toControl ∧ (ReportsCause w a w' ↔ DropsByCause w a) := by
  have hsilent : ∀ (c : Control) (readings : String → ℕ),(∀ o,completes w a o=false) →
      c.retired=(w.pruneExpired readings).retired →
      c.object=(w.pruneExpired readings).object → c.active=(w.pruneExpired readings).active →
      DropsByCause w a → AllCalm c ∧ (ReportsCause w a (w.within c) ↔ DropsByCause w a) := by
    intro c readings hcompletes hretired hobject hactive hdrops
    have hprunes := prunes_expired hcalm htable readings
    refine ⟨hprunes.calm.frame fun entry hm => .inr ?_,fun _ => hdrops,fun _ => ?_⟩
    · rw [hobject]
      exact ⟨hactive ▸ hm,rfl⟩
    · exact reports_prunes hprunes htable hcompletes hretired fun _ _ => by
        rw [World.within_toControl,hobject]
  unfold World.step at hone
  cases a with
  | loadStage request readings answer =>
    cases hone
    obtain ⟨deployment,loaded,deployments,hload⟩ :=
      load_frame textDigest (w.pruneExpired readings) request answer
    rw [World.within_toControl,hload]
    exact hsilent _ readings (fun _ => rfl) rfl rfl rfl trivial
  | unloadStage planId version readings =>
    cases hone
    obtain ⟨deployment,hunload⟩ := unload_frame (w.pruneExpired readings) planId version
    rw [World.within_toControl,hunload]
    exact hsilent _ readings (fun _ => rfl) rfl rfl rfl trivial
  | reserveRequest t call readings now =>
    obtain ⟨hc,hreports⟩ := reserveCall_reports (a := .reserveRequest t call readings now) hcalm
      htable (fun _ => rfl) hone
    exact ⟨hc,fun _ => trivial,fun _ => hreports⟩
  | acquire t call stage readings now =>
    obtain ⟨hc,hreports⟩ := reserveCall_reports (a := .acquire t call stage readings now) hcalm
      htable (fun _ => rfl) hone
    exact ⟨hc,fun _ => trivial,fun _ => hreports⟩
  | allocationEnds t answer now recheck => exact allocationEnds_reports hcalm htable hone
  | cancelRequest planId version id =>
    cases hone
    refine (cancelRequest_reports hcalm htable planId version id).imp_right fun hreports => ?_
    exact ⟨fun _ => trivial,fun _ => hreports⟩
  | prune readings =>
    cases hone
    exact hsilent _ _ (fun _ => rfl) rfl rfl rfl trivial
  | complete t now =>
    simp only [World.complete] at hone
    split at hone
    · rename_i d o hthread
      cases hone
      have hentry := (htable.leasedThread _ _ _ hthread).1
      obtain ⟨hc,hretired,-⟩ :=
        release_reports hcalm htable hentry (w.object o) rfl .completed now
      rw [withObject_self] at hc hretired
      refine ⟨hc,fun _ => trivial,fun _ => (reports_one hretired).mpr fun _ => ?_⟩
      simp [releaseReason,dueReason,completes,hthread]
    · cases hone
  | leave t disconnected now recheck =>
    obtain ⟨hc,hreports⟩ := leave_reports hcalm htable hone
    exact ⟨hc,fun _ => trivial,fun _ => hreports⟩
  | drop t =>
    obtain ⟨-,rfl⟩ := drop_eq hone
    exact ⟨hcalm,fun _ => trivial,fun _ => reports_none rfl⟩
  | watch t disconnected now recheck =>
    simp only [World.watch] at hone
    split at hone
    · rename_i d o hthread
      split at hone
      · cases hone
        have hrunning := (htable.leasedThread _ _ _ hthread).2.2.1
        refine ⟨calm_withObject hcalm o (calm_stop ?_ (.inl hrunning)),fun _ => trivial,
          fun _ => reports_none rfl⟩
        split <;> simp
      · cases hone
    · cases hone
  | tick elapsed =>
    cases hone
    exact ⟨hcalm,fun _ => trivial,fun _ => reports_none rfl⟩

/-- What a later state keeps of the requests. -/
structure Keeps (w w' : World) : Prop where
  /-- Objects are never removed from the heap. -/
  objects : w.objects ≤ w'.objects
  /-- Ids stay. -/
  ids : ∀ o,o < w.objects → (w'.object o).id=(w.object o).id
  /-- A recorded cause stays. -/
  causes : ∀ o,o < w.objects → (w.object o).stopCause≠.none →
    (w'.object o).stopCause=(w.object o).stopCause

/-- A state keeps what it has. -/
theorem Keeps.refl (w : World) : Keeps w w :=
  ⟨Nat.le_refl _,fun _ _ => rfl,fun _ _ _ => rfl⟩

/-- What is kept twice is kept. -/
theorem Keeps.trans {u : World} (h : Keeps w u) (h' : Keeps u w') : Keeps w w' where
  objects := h.objects.trans h'.objects
  ids o ho := (h'.ids o (Nat.lt_of_lt_of_le ho h.objects)).trans (h.ids o ho)
  causes o ho hcause := by
    have hfirst := h.causes o ho hcause
    rw [←hfirst]
    exact h'.causes o (Nat.lt_of_lt_of_le ho h.objects) (hfirst ▸ hcause)

/-- Changes that leave ids alone and never replace a cause. -/
theorem Keeps.same (hobjects : w'.objects=w.objects)
    (hkept : ∀ o,(w'.object o).id=(w.object o).id ∧
      ((w.object o).stopCause≠.none → (w'.object o).stopCause=(w.object o).stopCause)) :
    Keeps w w' :=
  ⟨hobjects.ge,fun o _ => (hkept o).1,fun o _ => (hkept o).2⟩

/-- Replacing a request by one with its id and cause. -/
theorem kept_withObject (c : Control) {o : ℕ} {r : ActiveRequest} (hid : r.id=(c.object o).id)
    (hcause : (c.object o).stopCause≠.none → r.stopCause=(c.object o).stopCause) (x : ℕ) :
    ((c.withObject o r).object x).id=(c.object x).id ∧
      ((c.object x).stopCause≠.none →
        ((c.withObject o r).object x).stopCause=(c.object x).stopCause) := by
  rw [Control.withObject_object]
  by_cases hx : x=o
  · rw [hx,Function.update_self]
    exact ⟨hid,hcause⟩
  · rw [Function.update_of_ne hx]
    exact ⟨rfl,fun _ => rfl⟩

/-- A release keeps ids and causes. -/
theorem kept_release (c : Control) (o : ℕ) (outcome : RequestOutcome) (now x : ℕ) :
    ((c.release o outcome now).object x).id=(c.object x).id ∧
      ((c.object x).stopCause≠.none →
        ((c.release o outcome now).object x).stopCause=(c.object x).stopCause) := by
  unfold Control.release
  split
  · rw [retire_object]
    exact kept_withObject c (by rfl) (fun _ => by rfl) x
  · exact ⟨rfl,fun _ => rfl⟩

/-- Every move keeps ids and recorded causes. -/
theorem Keeps.move (h : Move w w') : Keeps w w' := by
  cases h with
  | stopped o cause =>
    refine .same rfl (kept_withObject w.toControl (by rfl) fun hcause => ?_)
    simp only [ActiveRequest.stop,if_neg hcause]
  | retired reason => exact .same (by simp) (by simp)
  | shortened deadline => exact .same rfl (kept_withObject _ (by rfl) fun _ => by rfl)
  | admitted =>
    have hold : ∀ {x : ℕ} {r : ActiveRequest},x < w.objects →
        Function.update w.object w.objects r x=w.object x :=
      fun hx => Function.update_of_ne (Nat.ne_of_lt hx) _ _
    refine ⟨by simp,fun x hx => ?_,fun x hx _ => ?_⟩
    · rw [World.goto_toControl,recordLifecycle_object,Control.emplace_object,hold hx]
    · rw [World.goto_toControl,recordLifecycle_object,Control.emplace_object,hold hx]
  | allocationFailed => exact .same (by simp) (by simp)
  | allocationDropped reason =>
    refine .same (by simp) fun x => ?_
    rw [World.goto_toControl,retireFound_object]
    exact kept_withObject _ (by rfl) (fun _ => by rfl) x
  | allocationKept => exact .same rfl (kept_withObject w.toControl (by rfl) fun _ => by rfl)
  | @allocationClaimed t o =>
    have hkeep : Keeps w (w.within (w.keepAllocation o)) :=
      .same rfl (kept_withObject w.toControl (by rfl) fun _ => by rfl)
    refine hkeep.trans (.same rfl fun x => ?_)
    exact kept_withObject (w.keepAllocation o) (by rfl) (fun _ => by rfl) x
  | claimed => exact .same rfl (kept_withObject w.toControl (by rfl) fun _ => by rfl)
  | completed now => exact .same (by simp) (kept_release _ _ _ _)
  | left now => exact .same (by simp) (kept_release _ _ _ _)
  | _ => exact .same rfl fun _ => ⟨rfl,fun _ => rfl⟩

/-- Sequences of moves keep ids and recorded causes. -/
theorem Keeps.moves (h : ReflTransGen Move w w') : Keeps w w' := by
  induction h with
  | refl => exact .refl w
  | tail _ hlast ih => exact ih.trans (.move hlast)

/-- The first cause of a run is the recorded one. -/
theorem firstCause_run (htable : Table w) {as : List Action}
    (h : (machine textDigest).run w as=some w') {o : ℕ} (ho : o < w'.objects) :
    Keeps w w' ∧
      firstCause o ((machine textDigest).trace w as)=(w'.object o).stopCause := by
  induction as generalizing w with
  | nil =>
    cases h
    refine ⟨.refl _,?_⟩
    simp only [Machine.trace,firstCause]
    split
    · rfl
    · rename_i hnone
      by_contra hne
      exact hnone ⟨ho,fun hcause => hne hcause.symm⟩
  | cons a as ih =>
    obtain ⟨u,hu,hrest⟩ := Option.bind_eq_some_iff.mp h
    have hmoves := htable.step hu
    have htable' := closure_preserves (fun _ _ hv => hv.move) hmoves htable
    obtain ⟨hkeeps,hfirst⟩ := ih htable' hrest
    have hall := (Keeps.moves hmoves).trans hkeeps
    refine ⟨hall,?_⟩
    simp only [Machine.trace,hu,Option.map_some,Option.getD_some,firstCause]
    split
    · rename_i hrecorded
      exact (hall.causes o hrecorded.1 hrecorded.2).symm
    · exact hfirst

/-- Ids and reasons of the retirements in a history. -/
def loggedRetirements (events : List LifecycleEvent) : List (String×String) :=
  (events.filter fun e => e.kind=.retired).map fun e => (e.requestId,e.reason)

/-- Retirements with the ids of their requests. -/
def retirements (c : Control) : List (String×String) :=
  c.retired.map fun x => ((c.object x.1).id,x.2)

/-- The log tells the retirements. -/
structure Told (c : Control) : Prop where
  /-- Retired requests were created. -/
  created : ∀ x∈c.retired,x.1 < c.objects
  /-- Every retirement is in the history, in order. -/
  logged : c.config.requestObservations=true → loggedRetirements c.history=retirements c

section Told

variable {c c' : Control}

/-- Changes that neither retire nor record. -/
theorem Told.same (h : Told c) (hobjects : c.objects ≤ c'.objects)
    (hids : ∀ o,o < c.objects → (c'.object o).id=(c.object o).id) (hretired : c'.retired=c.retired)
    (hconfig : c'.config=c.config)
    (hhistory : loggedRetirements c'.history=loggedRetirements c.history) : Told c' where
  created x hx := Nat.lt_of_lt_of_le (h.created x (hretired ▸ hx)) hobjects
  logged hon := by
    rw [hhistory,h.logged (hconfig ▸ hon),retirements,retirements,hretired]
    refine List.map_congr_left fun x hx => ?_
    rw [hids x.1 (h.created x hx)]

/-- A retirement is told. -/
theorem Told.retire (h : Told c) {id : String} {o : ℕ} (reason : String)
    (ho : o < c.objects) (hid : (c.object o).id=id) : Told (c.retire id o reason) where
  created := by
    intro x hx
    rw [retire_retired] at hx
    rw [retire_objects]
    rcases List.mem_append.mp hx with hx|hx
    · exact h.created x hx
    · rw [List.mem_singleton] at hx
      rw [hx]
      exact ho
  logged := by
    intro hon
    rw [Control.retire,recordLifecycle_config,Control.erase_config] at hon
    have hon' : (c.erase id o reason).config.requestObservations=true := hon
    have htold := h.logged hon
    rw [retirements,retire_object,retire_retired,List.map_append,Control.retire,
      recordLifecycle_history _ _ _ hon',loggedRetirements,List.filter_append,List.map_append]
    rw [loggedRetirements,retirements] at htold
    rw [Control.erase_history,htold]
    simp [eventOf,hid]

/-- An admission is no retirement. -/
theorem admitted_untold (c : Control) (id : String) :
    loggedRetirements (c.recordLifecycle .admitted id "").history=loggedRetirements c.history := by
  unfold Control.recordLifecycle
  split
  · simp [loggedRetirements]
  · rfl

end Told

/-- Every move is told. -/
theorem Told.move (h : Told w.toControl) (htable : Table w) (hmove : Move w w') :
    Told w'.toControl := by
  have hkeeps := Keeps.move hmove
  have hretire : ∀ {c : Control} {o : ℕ} (reason : String),((w.object o).id,o)∈w.active →
      c.objects=w.objects → (∀ x,(c.object x).id=(w.object x).id) → c.retired=w.retired →
      c.config=w.config → c.history=w.history → Told (c.retire (w.object o).id o reason) := by
    intro c o reason hentry hobjects hids hretired hconfig hhistory
    have htold : Told c := h.same hobjects.ge (fun x _ => hids x) hretired hconfig (by rw [hhistory])
    exact htold.retire reason (hobjects ▸ htable.fresh _ hentry) (hids o)
  have hown : ∀ {o : ℕ} {r : ActiveRequest} (reason : String),((w.object o).id,o)∈w.active →
      r.id=(w.object o).id → Told ((w.withObject o r).retire (w.object o).id o reason) := by
    intro o r reason hentry hid
    refine hretire reason hentry rfl (fun x => ?_) rfl rfl rfl
    rw [Control.withObject_object]
    by_cases hx : x=o
    · rw [hx,Function.update_self,hid]
    · rw [Function.update_of_ne hx]
  cases hmove with
  | @retired id o reason hentry hrunning hallocating =>
    have hid := htable.ids _ hentry
    exact h.retire reason (htable.fresh _ hentry) hid
  | admitted =>
    exact h.same hkeeps.objects hkeeps.ids (by simp) (by simp) (admitted_untold _ _)
  | allocationFailed hthread =>
    have hentry := (htable.allocatingThread _ _ _ _ hthread).1
    have hfind := (htable.find_iff _ _).mpr hentry
    rw [World.goto_toControl,Control.retireFound,hfind]
    exact hretire _ hentry rfl (fun _ => rfl) rfl rfl rfl
  | @allocationDropped t o d claims reason hthread =>
    have hentry := (htable.allocatingThread _ _ _ _ hthread).1
    have hfind : (w.finishAllocation o).find (w.object o).id=some o :=
      (htable.find_iff _ _).mpr hentry
    rw [World.goto_toControl,Control.retireFound,hfind]
    exact hown _ hentry (by rfl)
  | completed now hthread =>
    have hentry := (htable.leasedThread _ _ _ hthread).1
    rw [World.goto_toControl,htable.release_eq hentry]
    exact hown _ hentry (by rfl)
  | left now hthread =>
    rcases hthread with hleased|hreleased
    · have hentry := (htable.leasedThread _ _ _ hleased).1
      rw [World.goto_toControl,htable.release_eq hentry]
      exact hown _ hentry (by rfl)
    · rw [World.goto_toControl,htable.release_gone (htable.gone _ _ _ hreleased)]
      exact h
  | _ => exact h.same hkeeps.objects hkeeps.ids rfl rfl rfl

/-- What holds in every reachable state. -/
theorem calm_run {start : World} (hstart : (machine textDigest).initial start) {as : List Action}
    (h : (machine textDigest).run start as=some w) :
    Table w ∧ AllCalm w.toControl ∧ Told w.toControl := by
  obtain ⟨config,capabilities,blank,empty,hvalid,rfl⟩ := hstart
  refine (Machine.path_of_run h).preserves
    (I := fun w => Table w ∧ AllCalm w.toControl ∧ Told w.toControl) ?_
    ⟨table_start config capabilities blank empty,by simp [AllCalm,World.start],?_⟩
  · rintro s a t - ⟨htable,hcalm,htold⟩ hone
    have hmoves := closure_preserves (I := fun w => Table w ∧ Told w.toControl)
      (fun u v hu huv => ⟨hu.1.move huv,hu.2.move hu.1 huv⟩) (htable.step hone) ⟨htable,htold⟩
    exact ⟨hmoves.1,(step_reports hcalm htable hone).1,hmoves.2⟩
  · exact ⟨by simp [World.start],fun _ => by simp [World.start,loggedRetirements,retirements]⟩

/-- The reasons of all retirements of a run report the first causes if and
only if every step of the run drops by cause. The log tells these reasons. -/
theorem retirement_reasons_iff {start : World} (hstart : (machine textDigest).initial start)
    {as : List Action} (h : (machine textDigest).run start as=some w) :
    ((∀ before a after u v,as=before++a::after → (machine textDigest).run start before=some u →
        (machine textDigest).step u a=some v →
        ReportsFirstCause ((machine textDigest).trace start (before++[a])) u a v) ↔
      ∀ before a after u,as=before++a::after → (machine textDigest).run start before=some u →
        DropsByCause u a) ∧
    (w.config.requestObservations=true → loggedRetirements w.history=retirements w.toControl) := by
  have hiff : ∀ before a u v,(machine textDigest).run start before=some u →
      (machine textDigest).step u a=some v →
      (ReportsFirstCause ((machine textDigest).trace start (before++[a])) u a v ↔
        DropsByCause u a) := by
    intro before a u v hu hv
    have hrun : (machine textDigest).run start (before++[a])=some v := by
      rw [Machine.run_append,hu,Option.bind_some,Machine.run,hv]
      rfl
    obtain ⟨htable,hcalm,-⟩ := calm_run hstart hu
    obtain ⟨-,-,htold⟩ := calm_run hstart hrun
    obtain ⟨hstarted,-,-⟩ := @calm_run _ _ start hstart [] rfl
    have hfirst : ∀ new,v.retired=u.retired++new → ∀ x∈new,
        firstCause x.1 ((machine textDigest).trace start (before++[a]))=
          (v.object x.1).stopCause := by
      intro new hnew x hx
      have hmem : x∈v.retired := by
        rw [hnew]
        exact List.mem_append_right _ hx
      exact (firstCause_run hstarted hrun (htold.created x hmem)).2
    rw [←(step_reports hcalm htable hv).2]
    constructor
    · rintro ⟨new,hnew,hall⟩
      refine ⟨new,hnew,fun x hx hdone => ?_⟩
      rw [←hfirst new hnew x hx]
      exact hall x hx hdone
    · rintro ⟨new,hnew,hall⟩
      refine ⟨new,hnew,fun x hx hdone => ?_⟩
      rw [hfirst new hnew x hx]
      exact hall x hx hdone
  refine ⟨⟨fun hall before a after u has hu => ?_,fun hall before a after u v has hu hv => ?_⟩,
    (calm_run hstart h).2.2.logged⟩
  · rw [has,Machine.run_append,hu,Option.bind_some] at h
    obtain ⟨v,hv,-⟩ := Option.bind_eq_some_iff.mp h
    exact (hiff before a u v hu hv).mp (hall before a after u v has hu hv)
  · exact (hiff before a u v hu hv).mpr (hall before a after u has hu)

/-- A request is cancelled while its sequence is allocated. -/
def cancelRun : List Action := [
  .loadStage (sampleLoad "a") (fun _ => 0) (.ok (some sampleBackend)),
  .acquire 0 (sampleCall "a") 0 (fun _ => 0) 0,.cancelRequest "a" 1 "request"]

/-- The allocation ends before or after the deadline. -/
def endsAt (now : ℕ) : Action := .allocationEnds 0 .sequence now now

/-- A request cancelled first and expired later, both during its allocation,
is reported as expired. -/
theorem cancelled_allocation_reported_expired :
    ∃ u v,(machine id).run sampleStart cancelRun=some u ∧
      (machine id).step u (endsAt (60000*millisecond))=some v ∧
      (v.object 0).allocating=false ∧ v.retired=u.retired++[(0,"expired")] ∧
      firstCause 0 ((machine id).trace sampleStart (cancelRun++[endsAt (60000*millisecond)]))=
        .cancelled ∧
      ¬ReportsFirstCause ((machine id).trace sampleStart
        (cancelRun++[endsAt (60000*millisecond)])) u (endsAt (60000*millisecond)) v := by
  obtain ⟨u,v,hu,hv,hdone,hretired,hcause⟩ : ∃ u v,
      (machine id).run sampleStart cancelRun=some u ∧
      (machine id).step u (endsAt (60000*millisecond))=some v ∧
      (v.object 0).allocating=false ∧ v.retired=u.retired++[(0,"expired")] ∧
      firstCause 0 ((machine id).trace sampleStart
        (cancelRun++[endsAt (60000*millisecond)]))=.cancelled :=
    ⟨_,_,rfl,rfl,by decide,by decide,by decide⟩
  refine ⟨u,v,hu,hv,hdone,hretired,hcause,?_⟩
  rintro ⟨new,hnew,hall⟩
  rw [hretired] at hnew
  have hdue := hall (0,"expired") (by rw [←List.append_cancel_left hnew]; simp) hdone
  rw [hcause] at hdue
  simp [dueReason,completes,endsAt] at hdue

/-- A request cancelled during its allocation and dropped before its deadline
is reported as cancelled. -/
theorem retirement_reasons_of_cancelled :
    ∃ w,(machine id).run sampleStart (cancelRun++[endsAt 1])=some w ∧
      loggedRetirements w.history=[("request","cancelled")] ∧
      ∀ before a after u v,cancelRun++[endsAt 1]=before++a::after →
        (machine id).run sampleStart before=some u → (machine id).step u a=some v →
        ReportsFirstCause ((machine id).trace sampleStart (before++[a])) u a v := by
  obtain ⟨w,hw,hlogged⟩ : ∃ w,(machine id).run sampleStart (cancelRun++[endsAt 1])=some w ∧
      loggedRetirements w.history=[("request","cancelled")] := ⟨_,rfl,by decide⟩
  refine ⟨w,hw,hlogged,(retirement_reasons_iff (sampleStart_initial id) hw).1.mpr ?_⟩
  intro before a after u has hu
  rcases before with _|⟨b,_|⟨c,_|⟨d,_|⟨e,rest⟩⟩⟩⟩
  · cases has
    trivial
  · cases has
    trivial
  · cases has
    trivial
  · cases has
    cases hu
    rintro o d claims hthread -
    cases hthread
    decide
  · simp [cancelRun] at has

end Hllm.ControlRetirement
