import Hllm.ControlRetirement

/-!
# Events against the states of a run

When an event was recorded, by which critical section, and what the table
held then. Between two states of a run the history grows, time does not go
back, and an entry stays until its retirement is recorded.
-/

namespace Hllm.ControlTimeline

open RunInvariants ControlModel ControlTransitions ControlTable ControlReservations
open ControlHistory ControlRetirement Relation

/-- A request of the table whose allocation is completed. -/
def Held (c : Control) (id : String) : Prop :=
  ∃ o,(id,o)∈c.active ∧ (c.object o).allocating=false

/-- The section ends the allocation of a request with a sequence. -/
def EndsAllocation (w : World) (a : Action) (id : String) : Prop :=
  ∃ t o d claims now recheck,a=.allocationEnds t .sequence now recheck ∧
    w.thread t=.allocating o d claims ∧ (w.object o).id=id

/-- Instants of a section: the state before it and, where an allocation ends
with a sequence, the state before that is kept or dropped. -/
inductive Instant (w : World) : Option Action → Control → Prop
  | before (a : Option Action) : Instant w a w.toControl
  | allocated {t o d : ℕ} {claims : Bool} (now recheck : ℕ)
      (hthread : w.thread t=.allocating o d claims) :
      Instant w (some (.allocationEnds t .sequence now recheck)) (w.finishAllocation o)

/-- What one event of a section tells about the state before it. -/
structure Dated (w : World) (a : Action) (e : LifecycleEvent) : Prop where
  /-- The time of the section. -/
  time : e.atMonotonicNs=w.steady
  /-- A retired request was in the table, allocated or just now allocated,
  unless its allocation failed. -/
  retired : e.kind=.retired → e.requestId∈keys w.toControl ∧
    (e.reason="allocation-failed" → ¬Held w.toControl e.requestId) ∧
    (e.reason≠"allocation-failed" → Held w.toControl e.requestId ∨ EndsAllocation w a e.requestId)

/-- The events of a section. It takes no time if there are any. -/
def Section (w : World) (a : Action) (w' : World) : Prop :=
  ∃ new,w'.history=w.history++new ∧ (new≠[] → w'.steady=w.steady) ∧ ∀ e∈new,Dated w a e

variable {w w' : World} {textDigest : String → String}

/-- A section without events. -/
theorem section_none {a : Action} (h : w'.history=w.history) : Section w a w' := by
  exact ⟨[],by rw [h,List.append_nil],fun hne => absurd rfl hne,by simp⟩

/-- A section with one event. -/
theorem section_one {a : Action} {e : LifecycleEvent} (hhistory : w'.history=w.history++[e])
    (hsteady : w'.steady=w.steady) (hdated : Dated w a e) : Section w a w' := by
  exact ⟨[e],hhistory,fun _ => hsteady,by simpa using hdated⟩

/-- An entry of the table is the one found for its id. -/
theorem not_held_of_allocating (htable : Table w) {id : String} {o : ℕ} (hentry : (id,o)∈w.active)
    (hallocating : (w.object o).allocating=true) : ¬Held w.toControl id := by
  rintro ⟨o',hentry',hdone⟩
  have hsame := htable.entry_unique hentry hentry' rfl
  cases hsame
  rw [hallocating] at hdone
  cases hdone

/-- A request that is held or ends its allocation is held at an instant of the
section together with every held request. -/
theorem held_together (htable : Table w) {a : Action} {x y : String}
    (hx : Held w.toControl x ∨ EndsAllocation w a x) (hy : Held w.toControl y) :
    ∃ c,Instant w (some a) c ∧ Held c x ∧ Held c y := by
  rcases hx with hx|⟨t,o,d,claims,now,recheck,rfl,hthread,rfl⟩
  · exact ⟨w.toControl,.before _,hx,hy⟩
  · obtain ⟨hentry,-,-⟩ := htable.allocatingThread _ _ _ _ hthread
    obtain ⟨o',hentry',hdone⟩ := hy
    refine ⟨w.finishAllocation o,.allocated now recheck hthread,⟨o,hentry,?_⟩,o',hentry',?_⟩
    · rw [Control.finishAllocation_object,Function.update_self]
    · rw [Control.finishAllocation_object]
      by_cases ho : o'=o
      · rw [ho,Function.update_self]
      · rw [Function.update_of_ne ho]
        exact hdone

section Retire

variable {a : Action} {id reason : String} {o : ℕ}

/-- Retiring records an event with its reason. -/
@[simp] theorem retire_history {c : Control} (hon : c.config.requestObservations=true) :
    (c.retire id o reason).history=
      c.history++[eventOf (c.erase id o reason) .retired id reason] := by
  have hon' : (c.erase id o reason).config.requestObservations=true := hon
  rw [Control.retire,recordLifecycle_history _ _ _ hon',Control.erase_history]

/-- Recording does not read the clock. -/
@[simp] theorem recordLifecycle_steady (c : Control) (kind : LifecycleKind) :
    (c.recordLifecycle kind id reason).steady=c.steady := by
  unfold Control.recordLifecycle
  split <;> rfl

/-- Nor does retiring. -/
@[simp] theorem retire_steady (c : Control) : (c.retire id o reason).steady=c.steady := by
  rw [Control.retire,recordLifecycle_steady,Control.erase_steady]

/-- A section that retires one entry after changes to its own request. -/
theorem section_retire (hon : w.config.requestObservations=true) (hentry : (id,o)∈w.active)
    (r : ActiveRequest)
    (hfailed : reason="allocation-failed" → ¬Held w.toControl id)
    (hother : reason≠"allocation-failed" → Held w.toControl id ∨ EndsAllocation w a id)
    (hw : w'.toControl=(w.withObject o r).retire id o reason) : Section w a w' := by
  have hon' : (w.withObject o r).config.requestObservations=true := hon
  refine section_one (e := eventOf ((w.withObject o r).erase id o reason) .retired id reason) ?_ ?_
    ⟨rfl,fun _ => ⟨mem_keys hentry,hfailed,hother⟩⟩
  · rw [hw,retire_history hon']
    rfl
  · rw [hw,retire_steady]
    rfl

end Retire

/-- The events of a section so far are retirements of allocated requests. -/
def OnlyRetired (w : World) (u : Control) : Prop :=
  u.steady=w.steady ∧ ∃ new,u.history=w.history++new ∧
    ∀ e∈new,∀ a,Dated w a e

/-- A pruning visit records an expiry or nothing. -/
theorem OnlyRetired.pruneEntry {u : Control} (h : OnlyRetired w u) (hpruned : Pruned w.toControl u)
    (readings : String → ℕ) {entry : String×ℕ} (hentry : entry∈u.active) :
    OnlyRetired w (Control.pruneEntry readings u entry) := by
  obtain ⟨hsteady,new,hnew,hevents⟩ := h
  unfold Control.pruneEntry
  split
  · dsimp only
    split
    · rename_i hfree
      simp only [Bool.and_eq_true,Bool.not_eq_true'] at hfree
      have hon : (u.withObject entry.2
        ((u.object entry.2).stop .expired)).config.requestObservations=true := hpruned.observed
      have hactive : entry∈w.active := by
        rw [hpruned.table] at hentry
        exact List.mem_of_mem_filter hentry
      have hheld : Held w.toControl entry.1 :=
        ⟨entry.2,hactive,(hpruned.flags entry.2).symm.trans hfree.2⟩
      refine ⟨by rw [retire_steady]; exact hsteady,
        new++[eventOf ((u.withObject entry.2 ((u.object entry.2).stop .expired)).erase entry.1
          entry.2 "expired") .retired entry.1 "expired"],?_,?_⟩
      · rw [retire_history hon,Control.withObject_history,hnew,List.append_assoc]
      · intro e he
        rcases List.mem_append.mp he with he|he
        · exact hevents e he
        · rw [List.mem_singleton] at he
          subst he
          refine fun a => ⟨hsteady,fun _ => ⟨mem_keys hactive,?_,fun _ => .inl hheld⟩⟩
          intro hreason
          have hdifferent : "expired"≠"allocation-failed" := by decide
          exact absurd hreason hdifferent
    · exact ⟨hsteady,new,hnew,hevents⟩
  · exact ⟨hsteady,new,hnew,hevents⟩

/-- A pruning pass records only expiries. -/
theorem OnlyRetired.pruneExpired (h : Faithful w.toControl) (htable : Table w)
    (readings : String → ℕ) : OnlyRetired w (w.pruneExpired readings) := by
  have hfold : ∀ (entries : List (String×ℕ)) (u : Control),(entries.map Prod.fst).Nodup →
      (∀ entry∈entries,entry∈u.active) → Pruned w.toControl u → OnlyRetired w u →
      OnlyRetired w (entries.foldl (Control.pruneEntry readings) u) := by
    intro entries
    induction entries with
    | nil => exact fun _ _ _ _ hu => hu
    | cons entry entries ih =>
      intro u hnodup hentries hpruned hu
      rw [List.map_cons,List.nodup_cons] at hnodup
      have hentry := hentries entry (.head _)
      refine ih _ hnodup.2 (fun other hother => ?_) (hpruned.pruneEntry readings hentry)
        (hu.pruneEntry hpruned readings hentry)
      refine mem_pruneEntry readings (hentries other (.tail _ hother)) fun he => ?_
      exact hnodup.1 (he ▸ List.mem_map_of_mem hother)
  exact hfold w.active w.toControl htable.keys (fun _ hm => hm) (.refl h)
    ⟨rfl,[],(List.append_nil _).symm,by simp⟩

/-- Expiries alone make a section. -/
theorem OnlyRetired.alone {u : Control} (h : OnlyRetired w u) {a : Action}
    (hhistory : w'.history=u.history) (hsteady : w'.steady=u.steady) : Section w a w' := by
  obtain ⟨htime,new,hnew,hevents⟩ := h
  exact ⟨new,hhistory.trans hnew,fun _ => hsteady.trans htime,fun e he => hevents e he a⟩

/-- Expiries and one admission make a section. -/
theorem OnlyRetired.thenAdmitted {u c : Control} (h : OnlyRetired w u) {a : Action} {id : String}
    (hon : c.config.requestObservations=true) (hhistory : c.history=u.history)
    (hsteady : c.steady=u.steady) (hw : w'.toControl=c.recordLifecycle .admitted id "") :
    Section w a w' := by
  obtain ⟨htime,new,hnew,hevents⟩ := h
  refine ⟨new++[eventOf c .admitted id ""],?_,fun _ => ?_,fun e he => ?_⟩
  · rw [hw,recordLifecycle_history _ _ _ hon,hhistory,hnew,List.append_assoc]
  · rw [hw,recordLifecycle_steady,hsteady,htime]
  · rcases List.mem_append.mp he with he|he
    · exact hevents e he a
    · rw [List.mem_singleton] at he
      subst he
      exact ⟨hsteady.trans htime,fun hkind => by cases hkind⟩

/-- A reserving call is a section of expiries and perhaps an admission. -/
theorem reserveCall_section (h : Faithful w.toControl) (htable : Table w) {a : Action} {t : ℕ}
    {call : ReserveCall} {stage : Option ℕ} {readings : String → ℕ} {now : ℕ}
    (hcall : w.reserveCall t call stage readings now=some w') : Section w a w' := by
  have hretired := OnlyRetired.pruneExpired h htable readings
  have hpruned := Pruned.pruneExpired h htable.keys readings
  have hclaim : ∀ (c : Control) (o : ℕ),(w.claim c t o).history=c.history ∧
      (w.claim c t o).steady=c.steady := by
    intro c o
    refine ⟨claim_history w c t o,?_⟩
    unfold World.claim Control.claim
    split
    · rfl
    · rename_i hclaim
      split at hclaim
      · cases hclaim
      · cases hclaim
        rfl
  unfold World.reserveCall at hcall
  split at hcall
  · split at hcall
    · cases hcall
      exact section_none rfl
    · rename_i d hmatching
      split at hcall
      · cases hcall
        exact section_none rfl
      · rcases reserve_cases w.toControl d call.requestId call.tokens call.prefillChunkTokens
            call.deadlineMs readings now with
          ⟨error,hr⟩|⟨o,hfind,hallocating,hr|⟨deadline,hrunning,hr⟩⟩|
            ⟨memory,deadline,hfind,hmemory,hr⟩
        · rw [hr] at hcall
          cases hcall
          exact hretired.alone rfl rfl
        · rw [hr] at hcall
          simp only at hcall
          split at hcall
          · cases hcall
            exact hretired.alone (hclaim _ o).1 (hclaim _ o).2
          · cases hcall
            exact hretired.alone rfl rfl
        · rw [hr] at hcall
          simp only at hcall
          split at hcall
          · cases hcall
            exact hretired.alone (hclaim _ o).1 (hclaim _ o).2
          · cases hcall
            exact hretired.alone rfl rfl
        · rw [hr] at hcall
          cases hcall
          exact hretired.thenAdmitted (c := (w.pruneExpired readings).emplace _) hpruned.observed
            rfl rfl rfl
  · cases hcall

/-- The end of an allocation is a section of at most one retirement. -/
theorem allocationEnds_section (h : Faithful w.toControl) (htable : Table w) {t : ℕ}
    {answer : Allocation} {now recheck : ℕ}
    (hends : w.allocationEnds t answer now recheck=some w') :
    Section w (.allocationEnds t answer now recheck) w' := by
  unfold World.allocationEnds at hends
  split at hends
  · rename_i o d claims hthread
    obtain ⟨hentry,hallocating,-⟩ := htable.allocatingThread _ _ _ _ hthread
    have hfind : w.find (w.object o).id=some o := (htable.find_iff _ _).mpr hentry
    have hnot := not_held_of_allocating htable hentry hallocating
    have hfailed : ∀ {u : World},
        u.toControl=w.retireFound (w.object o).id "allocation-failed" →
        Section w (.allocationEnds t answer now recheck) u := by
      intro u hu
      rw [Control.retireFound,hfind] at hu
      refine section_retire h.observed hentry (w.object o) (fun _ => hnot)
        (fun hne => absurd rfl hne) ?_
      rw [withObject_self]
      exact hu
    unfold Control.allocated at hends
    cases answer with
    | null =>
      cases hends
      exact hfailed rfl
    | failed failure =>
      cases hends
      exact hfailed rfl
    | sequence =>
      by_cases hdropped : ((w.object o).cancelled || decide ((w.object o).deadline ≤ now))=true
      · simp only [if_pos hdropped] at hends
        cases hends
        have hfound : (w.finishAllocation o).find (w.object o).id=some o := hfind
        have hretire : (w.finishAllocation o).retireFound (w.object o).id
            (if decide ((w.object o).deadline ≤ recheck)=true then "expired" else "cancelled")=
            (w.withObject o {w.object o with sequence := true, allocating := false}).retire
              (w.object o).id o
              (if decide ((w.object o).deadline ≤ recheck)=true then "expired"
              else "cancelled") := by
          rw [Control.retireFound,hfound]
          rfl
        refine section_retire h.observed hentry _ (fun hreason => ?_)
          (fun _ => .inr ⟨t,o,d,claims,now,recheck,rfl,hthread,rfl⟩) hretire
        split at hreason
        · exact absurd hreason (by decide)
        · exact absurd hreason (by decide)
      · simp only [if_neg hdropped] at hends
        split at hends
        · cases hends
          exact section_none (claim_history _ _ _ _)
        · cases hends
          exact section_none rfl
  · cases hends

/-- The reasons of a release are not those of an allocation. -/
theorem releaseReason_ne (r : ActiveRequest) (outcome : RequestOutcome) (now : ℕ) :
    releaseReason r outcome now≠"allocation-failed" := by
  unfold releaseReason
  split
  · decide
  · split
    · decide
    · split <;> decide

/-- A release after changes to its own request is a section. -/
theorem release_section (h : Faithful w.toControl) (htable : Table w) {a : Action} {o : ℕ}
    (r : ActiveRequest) (hid : r.id=(w.object o).id) (outcome : RequestOutcome) (now : ℕ)
    (hentry : ((w.object o).id,o)∈w.active ∧ (w.object o).allocating=false ∨
      ∀ entry∈w.active,entry.2≠o)
    (hw : w'.toControl=(w.withObject o r).release o outcome now) : Section w a w' := by
  have hobject : (w.withObject o r).object o=r := by
    rw [Control.withObject_object,Function.update_self]
  have hfind : (w.withObject o r).find r.id=w.find (w.object o).id := by
    rw [hid]
    rfl
  unfold Control.release at hw
  rw [hobject,hfind] at hw
  rcases hentry with ⟨hentry,hdone⟩|hgone
  · rw [if_pos ((htable.find_iff _ _).mpr hentry),hid,withObject_withObject] at hw
    exact section_retire h.observed hentry _
      (fun hreason => absurd hreason (releaseReason_ne r outcome now))
      (fun _ => .inl ⟨o,hentry,hdone⟩) hw
  · have hmissing : w.find (w.object o).id≠some o :=
      fun hf => hgone _ ((htable.find_iff _ _).mp hf) rfl
    rw [if_neg hmissing] at hw
    exact section_none (by rw [hw]; rfl)

/-- Every step is a section. -/
theorem step_section (h : Faithful w.toControl) (htable : Table w) {a : Action}
    (hone : w.step textDigest a=some w') : Section w a w' := by
  have hretired := fun readings => OnlyRetired.pruneExpired h htable readings
  unfold World.step at hone
  cases a with
  | loadStage request readings answer =>
    cases hone
    obtain ⟨deployment,loaded,deployments,hload⟩ :=
      load_frame textDigest (w.pruneExpired readings) request answer
    exact (hretired readings).alone (by rw [World.within_toControl,hload])
      (by rw [World.within_toControl,hload])
  | unloadStage planId version readings =>
    cases hone
    obtain ⟨deployment,hunload⟩ := unload_frame (w.pruneExpired readings) planId version
    exact (hretired readings).alone (by rw [World.within_toControl,hunload])
      (by rw [World.within_toControl,hunload])
  | reserveRequest t call readings now => exact reserveCall_section h htable hone
  | acquire t call stage readings now => exact reserveCall_section h htable hone
  | allocationEnds t answer now recheck => exact allocationEnds_section h htable hone
  | cancelRequest planId version id =>
    cases hone
    unfold Control.cancelRequest
    split
    · exact section_none rfl
    · split
      · exact section_none rfl
      · rename_i o hfind
        dsimp only
        split
        · rename_i hfree
          simp only [Bool.and_eq_true,Bool.not_eq_true'] at hfree
          have hentry := mem_of_find hfind
          exact section_retire h.observed hentry _ (fun hreason => absurd hreason (by decide))
            (fun _ => .inl ⟨o,hentry,hfree.2⟩) rfl
        · exact section_none rfl
  | prune readings =>
    cases hone
    exact (hretired readings).alone rfl rfl
  | complete t now =>
    simp only [World.complete] at hone
    split at hone
    · rename_i d o hthread
      cases hone
      obtain ⟨hentry,hdone,-⟩ := htable.leasedThread _ _ _ hthread
      refine release_section h htable (w.object o) rfl .completed now (.inl ⟨hentry,hdone⟩) ?_
      rw [withObject_self]
      rfl
    · cases hone
  | leave t disconnected now recheck =>
    have hleft : ∀ (o : ℕ) (u : World),
        (((w.object o).id,o)∈w.active ∧ (w.object o).allocating=false ∨
          ∀ entry∈w.active,entry.2≠o) →
        u.toControl=(if disconnected then w.withObject o ((w.object o).stop
          (if (w.object o).deadline ≤ now then .expired else .cancelled))
        else w.toControl).release o .failed recheck →
        Section w (.leave t disconnected now recheck) u := by
      intro o u ho hu
      cases disconnected with
      | true => exact release_section h htable _ (by rfl) .failed recheck ho hu
      | false =>
        refine release_section h htable (w.object o) rfl .failed recheck ho ?_
        rw [withObject_self]
        exact hu
    simp only [World.leave] at hone
    split at hone
    · rename_i d o hthread
      cases hone
      obtain ⟨hentry,hdone,-⟩ := htable.leasedThread _ _ _ hthread
      exact hleft o _ (.inl ⟨hentry,hdone⟩) rfl
    · rename_i d o hthread
      cases hone
      exact hleft o _ (.inr (htable.gone _ _ _ hthread)) rfl
    · cases hone
  | drop t =>
    obtain ⟨-,rfl⟩ := drop_eq hone
    exact section_none rfl
  | watch t disconnected now recheck =>
    simp only [World.watch] at hone
    split at hone
    · split at hone
      · cases hone
        exact section_none rfl
      · cases hone
    · cases hone
  | tick elapsed =>
    cases hone
    exact section_none rfl

/-- An admission of a request object. -/
def Admits (r : ActiveRequest) (id : String) (e : LifecycleEvent) : Prop :=
  e.kind=.admitted ∧ e.requestId=id ∧ e.atMonotonicNs=r.admitted

/-- The same request at a later time. -/
structure Later (r r' : ActiveRequest) : Prop where
  /-- It was admitted then. -/
  admitted : r'.admitted=r.admitted
  /-- A completed allocation stays completed. -/
  ready : r.allocating=false → r'.allocating=false

/-- A request is no later than itself. -/
theorem Later.refl (r : ActiveRequest) : Later r r := ⟨rfl,fun h => h⟩

/-- Later requests of later requests. -/
theorem Later.trans {r r' r'' : ActiveRequest} (h : Later r r') (h' : Later r' r'') :
    Later r r'' :=
  ⟨h'.admitted.trans h.admitted,fun hr => h'.ready (h.ready hr)⟩

/-- What a later state keeps of an earlier one. -/
structure Grows (u v : World) : Prop where
  /-- The history goes on. -/
  history : u.history<+:v.history
  /-- Time does not go back. -/
  steady : u.steady ≤ v.steady
  /-- New events are not dated earlier. -/
  dated : ∀ e∈v.history,e∉u.history → u.steady ≤ e.atMonotonicNs
  /-- Objects are never removed from the heap. -/
  objects : u.objects ≤ v.objects
  /-- Entries stay until their retirement is recorded. -/
  kept : ∀ id o,(id,o)∈u.active →
    recorded .retired id v.history=recorded .retired id u.history → (id,o)∈v.active
  /-- Objects stay the same requests. -/
  later : ∀ o,o < u.objects → Later (u.object o) (v.object o)
  /-- New entries have their admission recorded. -/
  entries : ∀ id o,(id,o)∈v.active → (id,o)∈u.active ∨
    o < v.objects ∧ ∃ e∈v.history,Admits (v.object o) id e

/-- A longer history has no fewer events. -/
theorem recorded_mono {kind : LifecycleKind} {id : String} {before after : List LifecycleEvent}
    (h : before<+:after) : recorded kind id before ≤ recorded kind id after :=
  h.sublist.countP_le

/-- A state has grown from itself. -/
theorem Grows.refl (u : World) : Grows u u :=
  ⟨List.prefix_refl _,Nat.le_refl _,fun _ he hnew => absurd he hnew,Nat.le_refl _,
    fun _ _ h _ => h,fun _ _ => .refl _,fun _ _ h => .inl h⟩

/-- Growth is transitive. -/
theorem Grows.trans {u v x : World} (h : Grows u v) (h' : Grows v x) : Grows u x where
  history := h.history.trans h'.history
  steady := h.steady.trans h'.steady
  dated e he hnew := by
    by_cases hmiddle : e∈v.history
    · exact h.dated e hmiddle hnew
    · exact h.steady.trans (h'.dated e he hmiddle)
  objects := h.objects.trans h'.objects
  kept id o hentry hcount := by
    have hfirst := @recorded_mono .retired id _ _ h.history
    have hsecond := @recorded_mono .retired id _ _ h'.history
    exact h'.kept id o (h.kept id o hentry (by omega)) (by omega)
  later o ho := (h.later o ho).trans (h'.later o (Nat.lt_of_lt_of_le ho h.objects))
  entries id o hentry := by
    rcases h'.entries id o hentry with hentry|hnew
    · rcases h.entries id o hentry with hentry|⟨ho,e,he,hkind,hid,hat⟩
      · exact .inl hentry
      · refine .inr ⟨Nat.lt_of_lt_of_le ho h'.objects,e,h'.history.subset he,hkind,hid,?_⟩
        rw [hat,(h'.later o ho).admitted]
    · exact .inr hnew

/-- Changes that record nothing and remove nothing. -/
theorem Grows.same (hhistory : w'.history=w.history) (hsteady : w.steady ≤ w'.steady)
    (hobjects : w'.objects=w.objects) (hactive : w'.active=w.active)
    (hlater : ∀ o,Later (w.object o) (w'.object o)) : Grows w w' where
  history := by rw [hhistory]
  steady := hsteady
  dated e he hnew := absurd (hhistory ▸ he) hnew
  objects := hobjects.ge
  kept id o hentry _ := hactive ▸ hentry
  later o _ := hlater o
  entries id o hentry := .inl (hactive ▸ hentry)

/-- Replacing one request by the same one at a later time. -/
theorem later_withObject {c : Control} {o : ℕ} {r : ActiveRequest} (hr : Later (c.object o) r)
    (x : ℕ) : Later (c.object x) ((c.withObject o r).object x) := by
  rw [Control.withObject_object]
  by_cases ho : x=o
  · subst ho
    rw [Function.update_self]
    exact hr
  · rw [Function.update_of_ne ho]
    exact .refl _

/-- A retirement records the entry it removes. -/
theorem Grows.retire (hon : w.config.requestObservations=true) {o : ℕ} {r : ActiveRequest}
    {id reason : String} (hr : Later (w.object o) r)
    (hw : w'.toControl=(w.withObject o r).retire id o reason) : Grows w w' where
  history := by
    have hon' : (w.withObject o r).config.requestObservations=true := hon
    rw [hw,retire_history hon']
    exact List.prefix_append _ _
  steady := by
    rw [hw,retire_steady]
    exact Nat.le_refl _
  dated e he hnew := by
    have hon' : (w.withObject o r).config.requestObservations=true := hon
    rw [hw,retire_history hon'] at he
    rcases List.mem_append.mp he with he|he
    · exact absurd he hnew
    · rw [List.mem_singleton.mp he]
      exact Nat.le_refl _
  objects := by
    rw [hw,retire_objects]
    exact Nat.le_refl _
  kept other x hentry hcount := by
    have hon' : (w.withObject o r).config.requestObservations=true := hon
    rw [hw,retire_history hon'] at hcount
    have hne : other≠id := by
      intro heq
      subst heq
      simp [recorded,eventOf] at hcount
    rw [hw]
    simp only [Control.retire,recordLifecycle_active,Control.erase_active,List.mem_filter,
      Control.withObject_active,decide_eq_true_eq]
    exact ⟨hentry,hne⟩
  later x _ := by
    rw [hw,retire_object]
    exact later_withObject hr x
  entries other x hentry := by
    rw [hw] at hentry
    simp only [Control.retire,recordLifecycle_active,Control.erase_active,List.mem_filter,
      Control.withObject_active] at hentry
    exact .inl hentry.1

/-- Every move grows. -/
theorem Grows.move (hon : w.config.requestObservations=true) (htable : Table w)
    (hmove : Move w w') : Grows w w' := by
  cases hmove with
  | stopped o cause =>
    exact .same rfl (Nat.le_refl _) rfl rfl (later_withObject ⟨rfl,fun h => h⟩)
  | @retired id o reason hentry hrunning hallocating =>
    have hsame : w.retire id o reason=(w.withObject o (w.object o)).retire id o reason := by
      rw [withObject_self]
    exact .retire hon (.refl _) hsame
  | shortened deadline hrunning =>
    exact .same rfl (Nat.le_refl _) rfl rfl (later_withObject ⟨rfl,fun h => h⟩)
  | @admitted t d id tokens queryTokens deadline memory claims hidle hdeployment hfind hmemory =>
    have hon' : (w.emplace (freshRequest w.toControl d id tokens queryTokens deadline
      memory)).config.requestObservations=true := hon
    refine ⟨?_,?_,fun e he hnew => ?_,?_,fun other x hentry _ => ?_,fun x hx => ?_,
      fun other x hentry => ?_⟩
    · rw [World.goto_toControl,recordLifecycle_history _ _ _ hon']
      exact List.prefix_append _ _
    · rw [World.goto_toControl,recordLifecycle_steady]
      exact Nat.le_refl _
    · rw [World.goto_toControl,recordLifecycle_history _ _ _ hon'] at he
      rcases List.mem_append.mp he with he|he
      · exact absurd he hnew
      · rw [List.mem_singleton.mp he]
        exact Nat.le_refl _
    · rw [World.goto_toControl,recordLifecycle_objects,Control.emplace_objects]
      exact Nat.le_succ _
    · rw [World.goto_toControl,recordLifecycle_active,Control.emplace_active,mem_insertEntry]
      exact .inr hentry
    · rw [World.goto_toControl,recordLifecycle_object,Control.emplace_object,
        Function.update_of_ne (Nat.ne_of_lt hx)]
      exact .refl _
    · rw [World.goto_toControl,recordLifecycle_active,Control.emplace_active,
        mem_insertEntry] at hentry
      rcases hentry with hnew|hold
      · obtain ⟨hother,rfl⟩ := Prod.mk.inj hnew
        refine .inr ⟨?_,eventOf (w.emplace (freshRequest w.toControl d id tokens queryTokens
          deadline memory)) .admitted id "",?_,rfl,hother.symm,?_⟩
        · rw [World.goto_toControl,recordLifecycle_objects,Control.emplace_objects]
          exact Nat.lt_succ_self _
        · rw [World.goto_toControl,recordLifecycle_history _ _ _ hon']
          simp
        · rw [World.goto_toControl,recordLifecycle_object,Control.emplace_object,
            Function.update_self]
          rfl
      · exact .inl hold
  | @allocationFailed t o d claims hthread =>
    have hfind := (htable.find_iff _ _).mpr (htable.allocatingThread _ _ _ _ hthread).1
    have hsame : w.retireFound (w.object o).id "allocation-failed"=
        (w.withObject o (w.object o)).retire (w.object o).id o "allocation-failed" := by
      rw [withObject_self,Control.retireFound,hfind]
    exact .retire hon (.refl _) hsame
  | @allocationDropped t o d claims reason hthread =>
    have hfind : (w.finishAllocation o).find (w.object o).id=some o :=
      (htable.find_iff _ _).mpr (htable.allocatingThread _ _ _ _ hthread).1
    have hsame : (w.finishAllocation o).retireFound (w.object o).id reason=
        (w.withObject o {w.object o with sequence := true, allocating := false}).retire
          (w.object o).id o reason := by
      rw [Control.retireFound,hfind]
      rfl
    refine .retire hon ?_ hsame
    exact ⟨rfl,fun _ => rfl⟩
  | allocationKept hthread =>
    exact .same rfl (Nat.le_refl _) rfl rfl (later_withObject ⟨rfl,fun _ => rfl⟩)
  | @allocationClaimed t o d claims hthread hrunning =>
    refine .same rfl (Nat.le_refl _) rfl rfl fun x => ?_
    have hkept := later_withObject (c := w.toControl) (o := o)
      (r := {w.object o with sequence := true, allocating := false}) ⟨rfl,fun _ => rfl⟩ x
    exact hkept.trans (later_withObject (c := w.keepAllocation o) (o := o)
      (r := {(w.keepAllocation o).object o with running := true}) ⟨rfl,fun h => h⟩ x)
  | claimed hidle hentry hallocating hrunning =>
    exact .same rfl (Nat.le_refl _) rfl rfl (later_withObject ⟨rfl,fun h => h⟩)
  | completed now hthread =>
    have hretire := htable.release_eq (htable.leasedThread _ _ _ hthread).1 .completed now
    refine .retire hon ?_ hretire
    exact ⟨rfl,fun h => h⟩
  | left now hthread =>
    rcases hthread with hleased|hreleased
    · have hretire := htable.release_eq (htable.leasedThread _ _ _ hleased).1 .failed now
      refine .retire hon ?_ hretire
      exact ⟨rfl,fun h => h⟩
    · have hgone := htable.release_gone (htable.gone _ _ _ hreleased) .failed now
      refine .same ?_ ?_ ?_ ?_ ?_
      · rw [World.goto_toControl,hgone]
      · rw [World.goto_toControl,hgone]
      · rw [World.goto_toControl,hgone]
      · rw [World.goto_toControl,hgone]
      · rw [World.goto_toControl,hgone]
        exact fun _ => .refl _
  | ticked elapsed => exact .same rfl (Nat.le_add_right _ _) rfl rfl fun _ => .refl _
  | _ => exact .same rfl (Nat.le_refl _) rfl rfl fun _ => .refl _

/-- A run of a service with observations, so far. -/
structure Observed (w : World) : Prop extends Faithful w.toControl where
  /-- The table is consistent. -/
  table : Table w

/-- A step keeps a run observed and grows. -/
theorem Observed.step (h : Observed w) {a : Action} (hone : w.step textDigest a=some w') :
    Observed w' ∧ Grows w w' := by
  have hmoves := h.table.step hone
  refine closure_preserves (I := fun v => Observed v ∧ Grows w v) ?_ hmoves ⟨h,.refl w⟩
  rintro u v ⟨hu,hgrows⟩ huv
  refine ⟨⟨hu.toFaithful.recorded (recorded_move hu.table hu.toLogged hu.observed huv),
    hu.table.move huv⟩,hgrows.trans (.move hu.observed hu.table huv)⟩

/-- A run keeps a run observed and grows. -/
theorem Observed.run (h : Observed w) {as : List Action}
    (hrun : (machine textDigest).run w as=some w') : Observed w' ∧ Grows w w' := by
  induction as generalizing w with
  | nil =>
    cases hrun
    exact ⟨h,.refl _⟩
  | cons a as ih =>
    obtain ⟨u,hu,htail⟩ := Option.bind_eq_some_iff.mp hrun
    obtain ⟨hobserved,hgrows⟩ := h.step hu
    obtain ⟨hend,hrest⟩ := ih hobserved htail
    exact ⟨hend,hgrows.trans hrest⟩

/-- Events of a service are dated in order, up to now. -/
structure Clocked (w : World) : Prop where
  /-- Later events have no earlier dates. -/
  ordered : w.history.Pairwise fun e e' => e.atMonotonicNs ≤ e'.atMonotonicNs
  /-- No event lies in the future. -/
  past : ∀ e∈w.history,e.atMonotonicNs ≤ w.steady

/-- A step keeps the dates in order. -/
theorem Clocked.step (h : Clocked w) (hobserved : Observed w) {a : Action}
    (hone : w.step textDigest a=some w') : Clocked w' := by
  obtain ⟨new,hnew,-,hdated⟩ := step_section hobserved.toFaithful hobserved.table hone
  have hgrows := (hobserved.step hone).2
  constructor
  · rw [hnew,List.pairwise_append]
    refine ⟨h.ordered,?_,fun e he e' he' => ?_⟩
    · refine List.pairwise_of_forall_mem_list fun e he e' he' => ?_
      rw [(hdated e he).time,(hdated e' he').time]
    · rw [(hdated e' he').time]
      exact h.past e he
  · intro e he
    rw [hnew] at he
    rcases List.mem_append.mp he with he|he
    · exact (h.past e he).trans hgrows.steady
    · rw [(hdated e he).time]
      exact hgrows.steady

/-- A fresh service with observations. -/
theorem observed_start {start : World} (hstart : (machine textDigest).initial start)
    (hon : start.config.requestObservations=true) : Observed start := by
  obtain ⟨config,capabilities,blank,empty,-,rfl⟩ := hstart
  exact ⟨faithful_start config capabilities blank empty hon,
    table_start config capabilities blank empty⟩

/-- Dates of a run are in order. -/
theorem Clocked.run (h : Clocked w) (hobserved : Observed w) {as : List Action}
    (hrun : (machine textDigest).run w as=some w') : Clocked w' := by
  induction as generalizing w with
  | nil =>
    cases hrun
    exact h
  | cons a as ih =>
    obtain ⟨u,hu,htail⟩ := Option.bind_eq_some_iff.mp hrun
    exact ih (h.step hobserved hu) (hobserved.step hu).1 htail

/-- A run of a service with observations in which no id is used twice. -/
structure ObservedRun (textDigest : String → String) (start : World) (as : List Action)
    (w : World) : Prop where
  /-- It starts with a fresh service. -/
  initial : (machine textDigest).initial start
  /-- Observations are on. -/
  observations : start.config.requestObservations=true
  /-- The actions are enabled. -/
  run : (machine textDigest).run start as=some w
  /-- Every id is admitted at most once. -/
  once : ∀ id,recorded .admitted id w.history ≤ 1

/-- An event of one kind for one request. -/
def Is (kind : LifecycleKind) (id : String) (e : LifecycleEvent) : Prop :=
  e.kind=kind ∧ e.requestId=id

/-- Counted events exist. -/
theorem recorded_pos {kind : LifecycleKind} {id : String} {events : List LifecycleEvent} :
    0 < recorded kind id events ↔ ∃ e∈events,Is kind id e := by
  simp only [recorded,List.countP_pos_iff,Is,decide_eq_true_eq,Bool.and_eq_true]

/-- Events counted at most once are the same event. -/
theorem recorded_unique {kind : LifecycleKind} {id : String} {events : List LifecycleEvent}
    (h : recorded kind id events ≤ 1) {e e' : LifecycleEvent} (he : e∈events) (he' : e'∈events)
    (his : Is kind id e) (his' : Is kind id e') : e=e' := by
  rw [recorded,List.countP_eq_length_filter] at h
  have hmem : ∀ x∈events,Is kind id x →
      x∈events.filter fun e => e.kind=kind && e.requestId=id := by
    intro x hx hisx
    simp [List.mem_filter,hx,hisx.1,hisx.2]
  have hfirst := hmem e he his
  have hsecond := hmem e' he' his'
  cases hlist : events.filter fun e => e.kind=kind && e.requestId=id with
  | nil =>
    rw [hlist] at hfirst
    cases hfirst
  | cons head tail =>
    rw [hlist,List.length_cons] at h
    have htail : tail=[] := List.length_eq_zero_iff.mp (by omega)
    rw [hlist,htail,List.mem_singleton] at hfirst hsecond
    rw [hfirst,hsecond]

/-- One event before another. -/
def Before (e e' : LifecycleEvent) : Prop :=
  e.sequence < e'.sequence ∧ e.atMonotonicNs ≤ e'.atMonotonicNs

section Run

variable {start : World} {as : List Action} (h : ObservedRun textDigest start as w)

include h

/-- A fresh service is observed, with an empty table and history. -/
theorem ObservedRun.fresh : Observed start ∧ Clocked start ∧ start.active=[] ∧
    start.history=[] := by
  obtain ⟨config,capabilities,blank,empty,-,hstart⟩ := h.initial
  refine ⟨observed_start h.initial h.observations,?_,by rw [hstart]; rfl,by rw [hstart]; rfl⟩
  rw [hstart]
  exact ⟨List.Pairwise.nil,fun e he => by cases he⟩

/-- States of the run are observed. -/
theorem ObservedRun.observed {i : ℕ} {u : World} (hu : (machine textDigest).At start as i u) :
    Observed u ∧ Clocked u ∧ Grows start u := by
  obtain ⟨hobserved,hclocked,-,-⟩ := h.fresh
  obtain ⟨hend,hgrows⟩ := hobserved.run hu.2
  exact ⟨hend,hclocked.run hobserved hu.2,hgrows⟩

/-- The run grows between its states. -/
theorem ObservedRun.grows {i j : ℕ} {u v : World} (hu : (machine textDigest).At start as i u)
    (hv : (machine textDigest).At start as j v) (hij : i ≤ j) : Grows u v :=
  ((h.observed hu).1.run (hu.between hv hij)).2

/-- The run grows to its end. -/
theorem ObservedRun.toEnd {i : ℕ} {u : World} (hu : (machine textDigest).At start as i u) :
    Grows u w :=
  h.grows hu (Machine.at_end h.run) hu.1

/-- An id is in the table while it is admitted and not retired. -/
theorem ObservedRun.mem_keys_iff {i : ℕ} {u : World}
    (hu : (machine textDigest).At start as i u) (id : String) :
    id∈keys u.toControl ↔
      0 < recorded .admitted id u.history ∧ recorded .retired id u.history=0 := by
  have hcount := replay_counts (h.observed hu).1.replayed id
  have honce := h.once id
  have hmono := @recorded_mono .admitted id _ _ (h.toEnd hu).history
  split at hcount
  · rename_i hin
    exact ⟨fun _ => by omega,fun _ => hin⟩
  · rename_i hout
    exact ⟨fun hin => absurd hin hout,fun _ => by omega⟩

/-- An entry of the table has its admission in the history. -/
theorem ObservedRun.admission {i : ℕ} {u : World} (hu : (machine textDigest).At start as i u)
    {id : String} {o : ℕ} (hentry : (id,o)∈u.active) :
    ∃ e∈u.history,Admits (u.object o) id e := by
  rcases (h.observed hu).2.2.entries id o hentry with hold|⟨-,hnew⟩
  · rw [h.fresh.2.2.1] at hold
    cases hold
  · exact hnew

/-- A retirement comes after every state with the id in the table. -/
theorem ObservedRun.retired_later {i : ℕ} {u : World}
    (hu : (machine textDigest).At start as i u) {e : LifecycleEvent}
    (hkey : e.requestId∈keys u.toControl) (hkind : e.kind=.retired) : e∉u.history := by
  intro he
  have hnone := ((h.mem_keys_iff hu _).mp hkey).2
  have hsome := recorded_pos.mpr ⟨e,he,hkind,rfl⟩
  omega

/-- Every id is retired at most once. -/
theorem ObservedRun.retiredOnce (id : String) : recorded .retired id w.history ≤ 1 := by
  have hcount := replay_counts (h.observed (Machine.at_end h.run)).1.replayed id
  have honce := h.once id
  split at hcount <;> omega

/-- An id that is in the table twice was in it in between. -/
theorem ObservedRun.mem_keys_between {i k j : ℕ} {u t v : World}
    (hu : (machine textDigest).At start as i u) (ht : (machine textDigest).At start as k t)
    (hv : (machine textDigest).At start as j v) (hik : i ≤ k) (hkj : k ≤ j) {id : String}
    (hfirst : 0 < recorded .admitted id u.history) (hlast : id∈keys v.toControl) :
    id∈keys t.toControl := by
  have hlater := @recorded_mono .admitted id _ _ (h.grows hu ht hik).history
  have hretired := @recorded_mono .retired id _ _ (h.grows ht hv hkj).history
  have hnever := ((h.mem_keys_iff hv id).mp hlast).2
  exact (h.mem_keys_iff ht id).mpr ⟨by omega,by omega⟩

/-- A held request is held until it is retired. -/
theorem ObservedRun.held_later {i j : ℕ} {u v : World}
    (hu : (machine textDigest).At start as i u) (hv : (machine textDigest).At start as j v)
    (hij : i ≤ j) {id : String} (hheld : Held u.toControl id) (hlast : id∈keys v.toControl) :
    Held v.toControl id := by
  obtain ⟨o,hentry,hdone⟩ := hheld
  have hgrows := h.grows hu hv hij
  have hbefore := ((h.mem_keys_iff hu id).mp (mem_keys hentry)).2
  have hafter := ((h.mem_keys_iff hv id).mp hlast).2
  have hfresh := (h.observed hu).1.table.fresh _ hentry
  exact ⟨o,hgrows.kept id o hentry (hafter.trans hbefore.symm),(hgrows.later o hfresh).ready hdone⟩

/-- Two ids that are in the table together are so since the later admission. -/
theorem ObservedRun.joined {p : ℕ} {s : World} (hs : (machine textDigest).At start as p s)
    {x y : String} (hx : x∈keys s.toControl) (hy : y∈keys s.toControl) :
    ∃ i u,i ≤ p ∧ (machine textDigest).At start as i u ∧
      (∃ e∈u.history,(Is .admitted x e ∨ Is .admitted y e) ∧ e.atMonotonicNs=u.steady) ∧
      (∃ e∈u.history,Is .admitted x e) ∧ (∃ e∈u.history,Is .admitted y e) ∧
      ∀ k v,i ≤ k → k ≤ p → (machine textDigest).At start as k v →
        x∈keys v.toControl ∧ y∈keys v.toControl := by
  have hkeys := h.mem_keys_iff hs
  have hnone : ¬(0 < recorded .admitted x start.history ∧
      0 < recorded .admitted y start.history) := by
    rw [h.fresh.2.2.2]
    simp [recorded]
  obtain ⟨i,u,v,-,hip,hu,hv,hnot,hboth⟩ := (Machine.at_start start as).crossing
    (P := fun t => 0 < recorded .admitted x t.history ∧ 0 < recorded .admitted y t.history)
    hs (Nat.zero_le _) hnone ⟨((hkeys x).mp hx).1,((hkeys y).mp hy).1⟩
  obtain ⟨a,-,hone⟩ := hu.step hv
  obtain ⟨hobserved,-,-⟩ := h.observed hu
  obtain ⟨new,hnew,htime,hdated⟩ := step_section hobserved.toFaithful hobserved.table hone
  refine ⟨i+1,v,hip,hv,?_,recorded_pos.mp hboth.1,recorded_pos.mp hboth.2,?_⟩
  · have hfound : ∀ id,recorded .admitted id u.history=0 → 0 < recorded .admitted id v.history →
        ∃ e∈v.history,Is .admitted id e ∧ e.atMonotonicNs=v.steady := by
      intro id hbefore hafter
      obtain ⟨e,he,his⟩ := recorded_pos.mp hafter
      have hlate : e∈new := by
        rw [hnew] at he
        rcases List.mem_append.mp he with he|he
        · have hsome := recorded_pos.mpr ⟨e,he,his⟩
          omega
        · exact he
      refine ⟨e,he,his,?_⟩
      rw [(hdated e hlate).time,htime (List.ne_nil_of_mem hlate)]
    by_cases hxu : recorded .admitted x u.history=0
    · obtain ⟨e,he,his,hat⟩ := hfound x hxu hboth.1
      exact ⟨e,he,.inl his,hat⟩
    · have hyu : recorded .admitted y u.history=0 := by
        by_contra hyu
        exact hnot ⟨Nat.pos_of_ne_zero hxu,Nat.pos_of_ne_zero hyu⟩
      obtain ⟨e,he,his,hat⟩ := hfound y hyu hboth.2
      exact ⟨e,he,.inr his,hat⟩
  · intro k t hik hkp ht
    exact ⟨h.mem_keys_between hv ht hs hik hkp hboth.1 hx,
      h.mem_keys_between hv ht hs hik hkp hboth.2 hy⟩

/-- Events of the run are in order. -/
theorem ObservedRun.ordered : w.history.Pairwise Before := by
  obtain ⟨hobserved,hclocked,-⟩ := h.observed (Machine.at_end h.run)
  have hnumbers : (w.history.map (·.sequence)).Pairwise (· < ·) := by
    rw [hobserved.numbered]
    exact List.pairwise_lt_range' 1 Nat.one_pos
  exact (List.pairwise_map.mp hnumbers).and hclocked.ordered

/-- A later number is a later event. -/
theorem ObservedRun.dated_le {e e' : LifecycleEvent} (he : e∈w.history) (he' : e'∈w.history)
    (hle : e.sequence ≤ e'.sequence) : e.atMonotonicNs ≤ e'.atMonotonicNs := by
  obtain ⟨i,hi,rfl⟩ := List.getElem_of_mem he
  obtain ⟨j,hj,rfl⟩ := List.getElem_of_mem he'
  have hordered := List.pairwise_iff_getElem.mp h.ordered
  rcases Nat.lt_trichotomy i j with hij|rfl|hji
  · exact (hordered i j hi hj hij).2
  · exact Nat.le_refl _
  · have hless := (hordered j i hj hi hji).1
    omega

/-- Numbers determine events. -/
theorem ObservedRun.eq_of_sequence {e e' : LifecycleEvent} (he : e∈w.history)
    (he' : e'∈w.history) (heq : e.sequence=e'.sequence) : e=e' := by
  obtain ⟨i,hi,rfl⟩ := List.getElem_of_mem he
  obtain ⟨j,hj,rfl⟩ := List.getElem_of_mem he'
  have hordered := List.pairwise_iff_getElem.mp h.ordered
  rcases Nat.lt_trichotomy i j with hij|rfl|hji
  · have hless := (hordered i j hi hj hij).1
    omega
  · rfl
  · have hless := (hordered j i hj hi hji).1
    omega

/-- What a state has recorded comes before what it has not. -/
theorem ObservedRun.sequence_lt {i : ℕ} {u : World} (hu : (machine textDigest).At start as i u)
    {e e' : LifecycleEvent} (he : e∈u.history) (he' : e'∈w.history) (hnew : e'∉u.history) :
    e.sequence < e'.sequence := by
  obtain ⟨rest,hrest⟩ := (h.toEnd hu).history
  have hordered := h.ordered
  rw [←hrest,List.pairwise_append] at hordered
  rw [←hrest] at he'
  rcases List.mem_append.mp he' with hold|hlate
  · exact absurd hold hnew
  · exact (hordered.2.2 e he e' hlate).1

/-- Events on both sides of one. -/
theorem ObservedRun.sequence_split {before after : List LifecycleEvent} {e : LifecycleEvent}
    (hsplit : w.history=before++e::after) :
    (∀ x∈before,x.sequence < e.sequence) ∧ ∀ x∈after,e.sequence < x.sequence := by
  have hordered := h.ordered
  rw [hsplit,List.pairwise_append,List.pairwise_cons] at hordered
  exact ⟨fun x hx => (hordered.2.2 x hx e (.head _)).1,fun x hx => (hordered.2.1.1 x hx).1⟩

/-- The section that recorded an event, and the table then. -/
theorem ObservedRun.instant {e : LifecycleEvent} (he : e∈w.history) :
    ∃ j u v a before rest ids,(machine textDigest).At start as j u ∧
      (machine textDigest).At start as (j+1) v ∧ e∈v.history ∧ as[j]?=some a ∧
      Dated u a e ∧ w.history=u.history++before++e::rest ∧
      replay (u.history++before++[e])=some ids ∧
      e.concurrentRequestIds=allocatedWithin u.toControl ids e.requestId := by
  have hnone : e∉start.history := by
    rw [h.fresh.2.2.2]
    exact List.not_mem_nil
  obtain ⟨j,u,v,-,-,hu,hv,hnot,hin⟩ := (Machine.at_start start as).crossing
    (P := fun t => e∈t.history) (Machine.at_end h.run) (Nat.zero_le _) hnone he
  obtain ⟨a,haction,hone⟩ := hu.step hv
  obtain ⟨hobserved,-,-⟩ := h.observed hu
  obtain ⟨new,hnew,-,hdated⟩ := step_section hobserved.toFaithful hobserved.table hone
  obtain ⟨new',hnew',hinstants⟩ := step_instants hobserved.toFaithful hobserved.table hone
  have hsame : new'=new := List.append_cancel_left (hnew'.symm.trans hnew)
  have hlate : e∈new := by
    rw [hnew] at hin
    rcases List.mem_append.mp hin with hold|hlate
    · exact absurd hold hnot
    · exact hlate
  obtain ⟨before,after,hsplit⟩ := List.append_of_mem hlate
  obtain ⟨ids,hreplay,hlisted⟩ := hinstants before e after (hsame.trans hsplit)
  obtain ⟨rest,hrest⟩ := (h.toEnd hv).history
  refine ⟨j,u,v,a,before,after++rest,ids,hu,hv,hin,haction,hdated e hlate,?_,hreplay,hlisted⟩
  rw [←hrest,hnew,hsplit]
  simp

end Run

end Hllm.ControlTimeline
