import Hllm.ControlTimeline
import Hllm.QualificationModel

/-!
# Derived overlap against the run of a worker

Memory reports are read into snapshots while a worker runs, and overlap is
derived from the snapshots alone. An interval has to be true of the run: both
requests in the table from its start to its end, both allocated at one
instant of it, and no retirement of the pair before its end. Events leave the
bounded log, so a retirement may be in no snapshot at all.
-/

namespace Hllm.QualificationOverlap

open RunInvariants ControlModel ControlTable ControlHistory ControlTimeline
open QualificationModel (WorkerSnapshot WorkerObservations RequestReservation OverlapInterval)
open QualificationModel (AllocatorSample ProcessMemoryObservation Round Start both allocated)
open QualificationModel (eventsOf admissionsOf isJoint overlapStart retirementsAfter isWitness)
open QualificationModel (maxAmounts overlapOf deriveOverlap)

/-- `EVENT_KINDS` -/
def eventKind : LifecycleKind → QualificationModel.EventKind
  | .admitted => .admitted
  | .retired => .retired

/-- An event of a report as it is recorded in a snapshot. -/
def eventFromProto (e : LifecycleEvent) : QualificationModel.LifecycleEvent where
  kind := eventKind e.kind
  requestId := e.requestId
  sequence := e.sequence
  atMonotonicNs := e.atMonotonicNs
  concurrentRequestIds := e.concurrentRequestIds
  reason := e.reason

/-- `amounts`. A report has no row for a domain without bytes, and a missing
row is zero. The model rejects more pinned than host memory. -/
def amounts (m : MemoryAccounting.MemoryAmounts) : Option QualificationModel.MemoryAmounts :=
  if h : m.pinnedHostBytes.toNat ≤ m.hostBytes.toNat then
    some ⟨m.hostBytes.toNat,m.deviceBytes.toNat,m.pinnedHostBytes.toNat,m.unifiedBytes.toNat,h⟩
  else none

/-- The row of a report for one entry of the table. -/
def rowFromProto (c : Control) (entry : String×ℕ) : Option RequestReservation :=
  (amounts (c.object entry.2).memory.cache).map fun cache =>
    ⟨entry.1,cache,(c.object entry.2).admitted,(c.object entry.2).allocating⟩

/-- What a snapshot holds beside the request observations. -/
structure Poll where
  phase : String
  cycle : Option ℕ
  processId : ℕ
  loadedWeights : QualificationModel.MemoryAmounts
  reservedCache : QualificationModel.MemoryAmounts
  reservedWorkspace : QualificationModel.MemoryAmounts
  allocator : Option AllocatorSample
  processMemory : Option ProcessMemoryObservation

/-- `snapshot_from_proto` of a `GetMemoryReport` after pruning, if the snapshot
passes its validator. -/
def snapshotFromProto (poll : Poll) (c : Control) : Option WorkerSnapshot :=
  if c.config.requestObservations then
    (c.active.mapM (rowFromProto c)).bind fun rows =>
      if h : ((∀ id∈rows.map RequestReservation.requestId,id∈c.active.map Prod.fst) ∧
          ∀ id∈c.active.map Prod.fst,id∈rows.map RequestReservation.requestId) ∧
          c.lifecycle.length ≤ c.lifecycleTotal then
        some {
          phase := poll.phase
          cycle := poll.cycle
          processId := some poll.processId
          observedAtMonotonicNs := some c.steady
          loadedWeights := poll.loadedWeights
          reservedCache := poll.reservedCache
          reservedWorkspace := poll.reservedWorkspace
          activeRequestIds := c.active.map Prod.fst
          requestObservationsAvailable := true
          requests := rows
          events := c.lifecycle.map eventFromProto
          eventsTotal := c.lifecycleTotal
          allocator := poll.allocator
          processMemory := poll.processMemory
          unavailable := fun hoff => by cases hoff
          available := fun _ => ⟨Option.some_ne_none _,Option.some_ne_none _⟩
          rows := fun id => ⟨h.1.1 id,h.1.2 id⟩
          counted := by
            rw [List.length_map]
            exact h.2}
      else none
  else if h : c.active=[] then
    some {
      phase := poll.phase
      cycle := poll.cycle
      processId := none
      observedAtMonotonicNs := none
      loadedWeights := poll.loadedWeights
      reservedCache := poll.reservedCache
      reservedWorkspace := poll.reservedWorkspace
      activeRequestIds := c.active.map Prod.fst
      requestObservationsAvailable := false
      requests := []
      events := []
      eventsTotal := 0
      allocator := poll.allocator
      processMemory := poll.processMemory
      unavailable := fun _ => ⟨rfl,rfl,rfl⟩
      available := fun hon => by cases hon
      rows := fun id => by rw [h]; rfl
      counted := Nat.le_refl _}
  else none

/-- What a snapshot shows of the state it was taken from. -/
structure Shows (u : World) (s : WorkerSnapshot) : Prop where
  /-- The time of the snapshot. -/
  time : s.observedAtMonotonicNs=some u.steady
  /-- The retained log. -/
  events : s.events=u.lifecycle.map eventFromProto
  /-- Rows are entries of the table. -/
  rows : ∀ r∈s.requests,∃ o,(r.requestId,o)∈u.active ∧
    r.admittedAtMonotonicNs=(u.object o).admitted ∧ r.allocating=(u.object o).allocating

/-- Results of a mapped list come from its members. -/
theorem mem_of_mapM {α β : Type*} {f : α → Option β} {xs : List α} {ys : List β}
    (h : xs.mapM f=some ys) {y : β} (hy : y∈ys) : ∃ x∈xs,f x=some y := by
  induction xs generalizing ys with
  | nil =>
    cases h
    cases hy
  | cons x xs ih =>
    rw [List.mapM_cons] at h
    obtain ⟨z,hz,hrest⟩ := Option.bind_eq_some_iff.mp h
    obtain ⟨zs,hzs,hdone⟩ := Option.bind_eq_some_iff.mp hrest
    cases hdone
    rcases List.mem_cons.mp hy with rfl|hy
    · exact ⟨x,.head _,hz⟩
    · obtain ⟨x',hx',hf⟩ := ih hzs hy
      exact ⟨x',.tail _ hx',hf⟩

/-- Snapshots of a worker with observations show its state. -/
theorem snapshotFromProto_shows {poll : Poll} {u : World} {s : WorkerSnapshot}
    (hon : u.config.requestObservations=true) (h : snapshotFromProto poll u.toControl=some s) :
    Shows u s := by
  unfold snapshotFromProto at h
  rw [if_pos hon] at h
  obtain ⟨rows,hrows,hsome⟩ := Option.bind_eq_some_iff.mp h
  split at hsome
  · cases hsome
    refine ⟨rfl,rfl,fun r hr => ?_⟩
    obtain ⟨entry,hentry,hrow⟩ := mem_of_mapM hrows hr
    obtain ⟨cache,-,hcache⟩ := Option.map_eq_some_iff.mp hrow
    subst hcache
    exact ⟨entry.2,hentry,rfl,rfl⟩
  · cases hsome

/-- A snapshot read from a memory report of the run. -/
def Taken (textDigest : String → String) (start : World) (as : List Action) (s : WorkerSnapshot) :
    Prop :=
  ∃ p readings u poll,as[p]?=some (.prune readings) ∧
    (machine textDigest).At start as (p+1) u ∧ snapshotFromProto poll u.toControl=some s

/-- A run with snapshots of it. -/
structure Sampled (textDigest : String → String) (start : World) (as : List Action) (w : World)
    (snapshots : List WorkerSnapshot) : Prop extends ObservedRun textDigest start as w where
  taken : ∀ s∈snapshots,Taken textDigest start as s

/-- A retirement of one of a pair. -/
def RetiresOne (pair : String×String) (e : LifecycleEvent) : Prop :=
  e.kind=.retired ∧ e.requestId∈both pair

instance (pair : String×String) (e : LifecycleEvent) : Decidable (RetiresOne pair e) :=
  inferInstanceAs (Decidable (_∧_))

/-- An interval that is true of the run. -/
structure Occurred (textDigest : String → String) (start : World) (as : List Action) (w : World)
    (pair : String×String) (o : OverlapInterval) : Prop where
  /-- From its start to its end both requests are in the table, and at one
  instant both hold allocated sequences. -/
  throughout : ∃ i j u v,i ≤ j ∧ (machine textDigest).At start as i u ∧
    (machine textDigest).At start as j v ∧ u.steady=o.startMonotonicNs ∧
    v.steady=o.endMonotonicNs ∧
    (∀ k t,i ≤ k → k ≤ j → (machine textDigest).At start as k t →
      pair.1∈keys t.toControl ∧ pair.2∈keys t.toControl) ∧
    ∃ k t c,i ≤ k ∧ k ≤ j ∧ (machine textDigest).At start as k t ∧ Instant t as[k]? c ∧
      Held c pair.1 ∧ Held c pair.2
  /-- It ends no later than the first retirement. -/
  ends : ∀ e∈w.history,RetiresOne pair e → o.endMonotonicNs ≤ e.atMonotonicNs

/-- The pair was seen together, its first retirement is in no snapshot, and
its second one, at a later time, is in some. -/
structure Lost (w : World) (snapshots : List WorkerSnapshot) (pair : String×String) : Prop where
  joint : ∃ s∈snapshots,isJoint pair s=true
  unseen : ∃ e₁,w.history.find? (fun e => RetiresOne pair e)=some e₁ ∧
    (∀ s∈snapshots,eventFromProto e₁∉s.events) ∧
    ∃ e₂∈w.history,RetiresOne pair e₂ ∧ e₁.atMonotonicNs < e₂.atMonotonicNs ∧
      ∃ s∈snapshots,eventFromProto e₂∈s.events

section Snapshots

variable {textDigest : String → String} {start w : World} {as : List Action}
variable {snapshots : List WorkerSnapshot} (h : Sampled textDigest start as w snapshots)

include h

/-- Every snapshot shows a state of the run. -/
theorem Sampled.shown {s : WorkerSnapshot} (hs : s∈snapshots) :
    ∃ p u,(machine textDigest).At start as p u ∧ Shows u s := by
  obtain ⟨p,readings,u,poll,-,hu,hsnapshot⟩ := h.taken s hs
  exact ⟨p+1,u,hu,snapshotFromProto_shows (h.observed hu).1.observed hsnapshot⟩

/-- Events of snapshots are events of the run. -/
theorem Sampled.recordedEvent {s : WorkerSnapshot} (hs : s∈snapshots)
    {e : QualificationModel.LifecycleEvent} (he : e∈s.events) :
    ∃ event∈w.history,eventFromProto event=e := by
  obtain ⟨p,u,hu,hshows⟩ := h.shown hs
  rw [hshows.events] at he
  obtain ⟨event,hevent,rfl⟩ := List.mem_map.mp he
  rw [(h.observed hu).1.window] at hevent
  exact ⟨event,(h.toEnd hu).history.subset (List.mem_of_mem_drop hevent),rfl⟩

/-- Merging the snapshots loses no event. -/
theorem Sampled.mem_eventsOf {e : QualificationModel.LifecycleEvent} :
    e∈eventsOf snapshots ↔ ∃ s∈snapshots,e∈s.events := by
  rw [eventsOf,OrderedDict.mem_ofList_iff,List.mem_flatMap]
  intro x hx y hy hsame
  obtain ⟨s,hs,hxs⟩ := List.mem_flatMap.mp hx
  obtain ⟨t,ht,hyt⟩ := List.mem_flatMap.mp hy
  obtain ⟨e,he,rfl⟩ := h.recordedEvent hs hxs
  obtain ⟨e',he',rfl⟩ := h.recordedEvent ht hyt
  rw [h.eq_of_sequence he he' hsame]

/-- Merged events are events of the run. -/
theorem Sampled.of_mem_eventsOf {e : QualificationModel.LifecycleEvent}
    (he : e∈eventsOf snapshots) : ∃ event∈w.history,eventFromProto event=e := by
  obtain ⟨s,hs,hes⟩ := h.mem_eventsOf.mp he
  exact h.recordedEvent hs hes

end Snapshots

/-- An allocated row is an allocated entry of the table. -/
theorem Shows.allocated {u : World} {s : WorkerSnapshot} (h : Shows u s) {id : String}
    {r : RequestReservation} (hr : QualificationModel.allocated s id=some r) :
    ∃ o,(id,o)∈u.active ∧ (u.object o).allocating=false ∧
      r.admittedAtMonotonicNs=(u.object o).admitted := by
  have hrow := List.find?_some hr
  simp only [Bool.and_eq_true,decide_eq_true_eq,Bool.not_eq_true'] at hrow
  obtain ⟨o,hentry,hadmitted,hallocating⟩ := h.rows r (List.mem_of_find?_eq_some hr)
  rw [hrow.1.1] at hentry
  exact ⟨o,hentry,hallocating ▸ hrow.1.2,hadmitted⟩

/-- A joint snapshot has a row for both members. -/
theorem isJoint_rows {pair : String×String} {s : WorkerSnapshot} (h : isJoint pair s=true) :
    ∃ r r',allocated s pair.1=some r ∧ allocated s pair.2=some r' := by
  simp only [isJoint,both,Bool.and_eq_true,List.all_cons,List.all_nil,Bool.and_true,
    Option.isSome_iff_exists] at h
  obtain ⟨-,⟨r,hr⟩,r',hr'⟩ := h
  exact ⟨r,r',hr,hr'⟩

/-- A joint snapshot shows both members allocated. -/
theorem Shows.joint {u : World} {s : WorkerSnapshot} (h : Shows u s) {pair : String×String}
    (hjoint : isJoint pair s=true) : Held u.toControl pair.1 ∧ Held u.toControl pair.2 := by
  obtain ⟨r,r',hr,hr'⟩ := isJoint_rows hjoint
  obtain ⟨o,hentry,hdone,-⟩ := h.allocated hr
  obtain ⟨o',hentry',hdone',-⟩ := h.allocated hr'
  exact ⟨⟨o,hentry,hdone⟩,o',hentry',hdone'⟩

/-- An admission of one of a pair. -/
def AdmitsOne (pair : String×String) (e : LifecycleEvent) : Prop :=
  Is .admitted pair.1 e ∨ Is .admitted pair.2 e

/-- Two different members of a pair are its first and second. -/
theorem both_cases {pair : String×String} {x y : String} (hx : x∈both pair) (hy : y∈both pair)
    (hne : y≠x) : pair.1=x ∧ pair.2=y ∨ pair.1=y ∧ pair.2=x := by
  simp only [both,List.mem_cons,List.not_mem_nil,or_false] at hx hy
  rcases hx with rfl|rfl
  · rcases hy with rfl|rfl
    · exact absurd rfl hne
    · exact .inl ⟨rfl,rfl⟩
  · rcases hy with rfl|rfl
    · exact .inr ⟨rfl,rfl⟩
    · exact absurd rfl hne

/-- An admission of one of a pair is one of a member. -/
theorem AdmitsOne.mem {pair : String×String} {e : LifecycleEvent} (h : AdmitsOne pair e) :
    e.requestId∈both pair := by
  rcases h with h|h
  · rw [h.2]
    exact .head _
  · rw [h.2]
    exact .tail _ (.head _)

/-- A start that is the later admission. -/
structure Starts (w : World) (pair : String×String) (start : Start) : Prop where
  /-- No admission of the pair is later. -/
  bound : ∀ e∈w.history,AdmitsOne pair e → e.atMonotonicNs ≤ start.ns
  /-- It is the time of one. -/
  met : ∃ e∈w.history,AdmitsOne pair e ∧ e.atMonotonicNs=start.ns
  /-- Its number is that of one. -/
  sequence : ∀ n∈start.admissionSequence,∃ e∈w.history,AdmitsOne pair e ∧ e.sequence=n

/-- With a joint snapshot there is a start. -/
theorem exists_start {snapshots : List WorkerSnapshot} {pair : String×String}
    {s : WorkerSnapshot} (events : List QualificationModel.LifecycleEvent)
    (hs : s∈snapshots.filter (isJoint pair)) :
    ∃ st,overlapStart events (snapshots.filter (isJoint pair)) pair=some st := by
  unfold overlapStart
  dsimp only
  split
  · rename_i htwo
    cases hmax : (admissionsOf events pair).argmax (·.sequence) with
    | none =>
      rw [List.argmax_eq_none.mp hmax] at htwo
      cases htwo
    | some later => exact ⟨_,rfl⟩
  · cases hhead : (snapshots.filter (isJoint pair)).head? with
    | none =>
      rw [List.head?_eq_none_iff.mp hhead] at hs
      cases hs
    | some first => exact ⟨_,rfl⟩

section Start

variable {textDigest : String → String} {start w : World} {as : List Action}
variable {snapshots : List WorkerSnapshot} (h : Sampled textDigest start as w snapshots)
variable {pair : String×String}

include h

/-- Observed admissions are admissions of the run. -/
theorem Sampled.admission_of_mem {e : QualificationModel.LifecycleEvent}
    (he : e∈admissionsOf (eventsOf snapshots) pair) :
    ∃ event∈w.history,AdmitsOne pair event ∧ eventFromProto event=e := by
  have hmem := OrderedDict.mem_of_mem_ofList he
  rw [List.mem_filter,Bool.and_eq_true,decide_eq_true_eq,decide_eq_true_eq] at hmem
  obtain ⟨event,hevent,rfl⟩ := h.of_mem_eventsOf hmem.1
  have hkind : event.kind=.admitted := by
    cases hk : event.kind with
    | admitted => rfl
    | retired =>
      have hadmitted := hmem.2.1
      simp [eventFromProto,eventKind,hk] at hadmitted
  refine ⟨event,hevent,?_,rfl⟩
  rcases List.mem_cons.mp hmem.2.2 with hid|hid
  · exact .inl ⟨hkind,hid⟩
  · exact .inr ⟨hkind,List.mem_singleton.mp hid⟩

/-- A start from the admission events. -/
theorem Sampled.starts_of_events
    (htwo : (admissionsOf (eventsOf snapshots) pair).length=2)
    {later : QualificationModel.LifecycleEvent}
    (hlater : later∈(admissionsOf (eventsOf snapshots) pair).argmax (·.sequence)) (how : String) :
    Starts w pair ⟨later.atMonotonicNs,some later.sequence,how⟩ := by
  obtain ⟨event,hevent,hadmits,heq⟩ := h.admission_of_mem (List.argmax_mem hlater)
  have hnodup : ((admissionsOf (eventsOf snapshots) pair).map (·.requestId)).Nodup :=
    OrderedDict.nodup_ofList _
  have hmax := fun e he => List.le_of_mem_argmax (a := e) he hlater
  refine ⟨?_,⟨event,hevent,hadmits,by rw [←heq]; rfl⟩,?_⟩
  · intro e he hadmits'
    have hseen : ∃ a∈admissionsOf (eventsOf snapshots) pair,a.requestId=e.requestId := by
      have hmembers := fun a ha => @Sampled.admission_of_mem _ _ _ _ _ h pair a ha
      obtain ⟨a,b,hab⟩ := List.length_eq_two.mp htwo
      rw [hab] at hnodup hmembers ⊢
      obtain ⟨a',-,ha,rfl⟩ := hmembers a (by simp)
      obtain ⟨b',-,hb,rfl⟩ := hmembers b (by simp)
      simp only [List.map_cons,List.map_nil,List.nodup_cons,List.mem_singleton] at hnodup
      have hdifferent : a'.requestId≠b'.requestId := hnodup.1
      have hone : a'.requestId=e.requestId ∨ b'.requestId=e.requestId := by
        rcases both_cases ha.mem hb.mem (Ne.symm hdifferent) with ⟨hx,hy⟩|⟨hx,hy⟩
        · rcases hadmits' with he|he
          · exact .inl (hx.symm.trans he.2.symm)
          · exact .inr (hy.symm.trans he.2.symm)
        · rcases hadmits' with he|he
          · exact .inr (hx.symm.trans he.2.symm)
          · exact .inl (hy.symm.trans he.2.symm)
      rcases hone with hone|hone
      · exact ⟨_,.head _,hone⟩
      · exact ⟨_,.tail _ (.head _),hone⟩
    obtain ⟨a,ha,hid⟩ := hseen
    obtain ⟨event',hevent',hadmits'',rfl⟩ := h.admission_of_mem ha
    have hsame : event'=e := by
      refine recorded_unique (h.once e.requestId) hevent' he ⟨?_,hid⟩ ⟨?_,rfl⟩
      · exact hadmits''.elim (·.1) (·.1)
      · exact hadmits'.elim (·.1) (·.1)
    have hle := hmax _ ha
    rw [←heq] at hle ⊢
    exact h.dated_le he hevent (hsame ▸ hle)
  · intro n hn
    cases hn
    exact ⟨event,hevent,hadmits,by rw [←heq]; rfl⟩

/-- A start from the rows of a joint snapshot. -/
theorem Sampled.starts_of_rows {s : WorkerSnapshot} (hs : s∈snapshots)
    (hjoint : isJoint pair s=true) (how : String) :
    Starts w pair ⟨(((both pair).filterMap (allocated s)).map
      (·.admittedAtMonotonicNs)).foldr max 0,none,how⟩ := by
  obtain ⟨p,u,hu,hshows⟩ := h.shown hs
  obtain ⟨r,r',hr,hr'⟩ := isJoint_rows hjoint
  have hrows : (both pair).filterMap (allocated s)=[r,r'] := by
    rw [both,List.filterMap_cons_some hr,List.filterMap_cons_some hr',List.filterMap_nil]
  have hevent : ∀ {id : String} {r : RequestReservation},allocated s id=some r →
      ∃ e∈w.history,Is .admitted id e ∧ e.atMonotonicNs=r.admittedAtMonotonicNs := by
    intro id r hr
    obtain ⟨o,hentry,-,hadmitted⟩ := hshows.allocated hr
    obtain ⟨e,he,hkind,hid,hat⟩ := h.admission hu hentry
    exact ⟨e,(h.toEnd hu).history.subset he,⟨hkind,hid⟩,by rw [hat,hadmitted]⟩
  obtain ⟨e,he,his,hat⟩ := hevent hr
  obtain ⟨e',he',his',hat'⟩ := hevent hr'
  rw [hrows]
  simp only [List.map_cons,List.map_nil,List.foldr_cons,List.foldr_nil]
  refine ⟨fun x hx hadmits => ?_,?_,fun n hn => by cases hn⟩
  · dsimp only
    rcases hadmits with hadmits|hadmits
    · rw [recorded_unique (h.once _) hx he hadmits his]
      omega
    · rw [recorded_unique (h.once _) hx he' hadmits his']
      omega
  · dsimp only
    by_cases hle : r.admittedAtMonotonicNs ≤ r'.admittedAtMonotonicNs
    · exact ⟨e',he',.inr his',by omega⟩
    · exact ⟨e,he,.inl his,by omega⟩

/-- The derived start is the later admission. -/
theorem Sampled.starts {st : Start}
    (hst : overlapStart (eventsOf snapshots) (snapshots.filter (isJoint pair)) pair=some st) :
    Starts w pair st := by
  unfold overlapStart at hst
  dsimp only at hst
  split at hst
  · rename_i htwo
    obtain ⟨later,hlater,rfl⟩ := Option.map_eq_some_iff.mp hst
    exact h.starts_of_events htwo hlater _
  · obtain ⟨s,hs,rfl⟩ := Option.map_eq_some_iff.mp hst
    have hmem := List.mem_filter.mp (List.mem_of_head? hs)
    exact h.starts_of_rows hmem.1 hmem.2 _

/-- Both are in the table from the start on, if they are in it together. -/
theorem Sampled.joined_from {st : Start} (hst : Starts w pair st) {p : ℕ} {s : World}
    (hs : (machine textDigest).At start as p s) (hfirst : pair.1∈keys s.toControl)
    (hsecond : pair.2∈keys s.toControl) :
    ∃ i u,i ≤ p ∧ (machine textDigest).At start as i u ∧ u.steady=st.ns ∧
      ∀ k t,i ≤ k → k ≤ p → (machine textDigest).At start as k t →
        pair.1∈keys t.toControl ∧ pair.2∈keys t.toControl := by
  obtain ⟨i,u,hip,hu,⟨e,he,hadmits,hat⟩,⟨e₁,he₁,his₁⟩,⟨e₂,he₂,his₂⟩,hbetween⟩ :=
    h.joined hs hfirst hsecond
  refine ⟨i,u,hip,hu,?_,hbetween⟩
  have hhistory := (h.toEnd hu).history
  have hpast := (h.observed hu).2.1.past
  have hbound := hst.bound e (hhistory.subset he) hadmits
  obtain ⟨m,hm,hmits,hmat⟩ := hst.met
  have hmpast : m.atMonotonicNs ≤ u.steady := by
    rcases hmits with hmits|hmits
    · rw [recorded_unique (h.once _) hm (hhistory.subset he₁) hmits his₁]
      exact hpast e₁ he₁
    · rw [recorded_unique (h.once _) hm (hhistory.subset he₂) hmits his₂]
      exact hpast e₂ he₂
  omega

end Start

/-- Retirements of the pair that count for an interval. -/
theorem mem_retirementsAfter {events : List QualificationModel.LifecycleEvent}
    {pair : String×String} {st : Start} {e : QualificationModel.LifecycleEvent} :
    e∈retirementsAfter events pair st ↔ e∈events ∧ e.kind=.retired ∧ e.requestId∈both pair ∧
      st.ns ≤ e.atMonotonicNs ∧ (∀ n∈st.admissionSequence,n < e.sequence) ∧
      e.reason≠"allocation-failed" := by
  simp only [retirementsAfter,List.mem_insertionSort,List.mem_filter,Bool.and_eq_true,
    decide_eq_true_eq,Option.all_eq_true,Option.mem_def,and_assoc]

/-- The largest number of a list is one of it. -/
theorem exists_largest {numbers : List ℕ} (h : numbers≠[]) : numbers.foldr max 0∈numbers := by
  induction numbers with
  | nil => exact absurd rfl h
  | cons n numbers ih =>
    rw [List.foldr_cons]
    by_cases hnil : numbers=[]
    · subst hnil
      rw [List.foldr_nil,Nat.max_zero]
      exact .head _
    · rcases Nat.le_total n (numbers.foldr max 0) with hle|hle
      · rw [Nat.max_eq_right hle]
        exact .tail _ (ih hnil)
      · rw [Nat.max_eq_left hle]
        exact .head _

/-- How an interval ends: with a retirement that lists the other member, or
after a joint snapshot with a retirement or a joint snapshot. -/
theorem overlapOf_cases {worker : WorkerObservations} {pair : String×String} {o : OverlapInterval}
    (ho : overlapOf worker pair=some o) :
    ∃ st,overlapStart (eventsOf worker.snapshots) (worker.snapshots.filter (isJoint pair)) pair=
        some st ∧ o.workerId=worker.workerId ∧ o.requestIds=pair ∧ o.startMonotonicNs=st.ns ∧
      ((∃ e∈retirementsAfter (eventsOf worker.snapshots) pair st,isWitness pair e=true ∧
          o.endMonotonicNs=max e.atMonotonicNs st.ns) ∨
        (∀ e∈retirementsAfter (eventsOf worker.snapshots) pair st,isWitness pair e=false) ∧
          ∃ s∈worker.snapshots,isJoint pair s=true ∧
            ((∃ e∈retirementsAfter (eventsOf worker.snapshots) pair st,
                o.endMonotonicNs=max e.atMonotonicNs st.ns) ∨
              o.endMonotonicNs=max (s.observedAtMonotonicNs.getD 0) st.ns)) := by
  unfold overlapOf at ho
  obtain ⟨st,hst,hrest⟩ := Option.bind_eq_some_iff.mp ho
  dsimp only at hrest
  refine ⟨st,hst,?_⟩
  split at hrest
  · rename_i witness others hwitness
    cases hrest
    have hmem : witness∈(retirementsAfter (eventsOf worker.snapshots) pair st).filter
        (isWitness pair) := by
      rw [hwitness]
      exact .head _
    exact ⟨rfl,rfl,rfl,.inl ⟨witness,(List.mem_filter.mp hmem).1,(List.mem_filter.mp hmem).2,rfl⟩⟩
  · rename_i first others hwitness hjoint
    cases hrest
    have hnone : ∀ e∈retirementsAfter (eventsOf worker.snapshots) pair st,
        isWitness pair e=false := by
      intro e he
      by_contra hlists
      have hmem := List.mem_filter.mpr ⟨he,Bool.of_not_eq_false hlists⟩
      rw [hwitness] at hmem
      cases hmem
    have hlate : ∀ s∈first::others,s∈worker.snapshots ∧ isJoint pair s=true := by
      intro s hs
      rw [←hjoint,List.mem_filter,List.mem_filter] at hs
      exact hs.1
    refine ⟨rfl,rfl,rfl,.inr ⟨hnone,?_⟩⟩
    cases hretired : retirementsAfter (eventsOf worker.snapshots) pair st with
    | nil =>
      have hsome : (first::others).map (fun s => s.observedAtMonotonicNs.getD 0)≠[] := by simp
      obtain ⟨s,hs,hlargest⟩ := List.mem_map.mp (exists_largest hsome)
      refine ⟨s,(hlate s hs).1,(hlate s hs).2,.inr ?_⟩
      rw [hjoint,hlargest]
    | cons e rest =>
      exact ⟨first,(hlate first (.head _)).1,(hlate first (.head _)).2,.inl ⟨e,.head _,rfl⟩⟩
  · cases hrest

/-- Without a listed member, a joint snapshot and a retirement give an
interval that ends with a retirement. -/
theorem exists_overlap {worker : WorkerObservations} {pair : String×String} {st : Start}
    (hst : overlapStart (eventsOf worker.snapshots) (worker.snapshots.filter (isJoint pair)) pair=
      some st)
    (hnone : ∀ e∈retirementsAfter (eventsOf worker.snapshots) pair st,isWitness pair e=false)
    {s : WorkerSnapshot} (hs : s∈worker.snapshots) (hjoint : isJoint pair s=true)
    (hlate : st.ns ≤ s.observedAtMonotonicNs.getD 0)
    {e : QualificationModel.LifecycleEvent}
    (he : e∈retirementsAfter (eventsOf worker.snapshots) pair st) :
    ∃ o,overlapOf worker pair=some o ∧
      ∃ e∈retirementsAfter (eventsOf worker.snapshots) pair st,
        e.atMonotonicNs ≤ o.endMonotonicNs := by
  have hempty : (retirementsAfter (eventsOf worker.snapshots) pair st).filter
      (isWitness pair)=[] := by
    rw [List.filter_eq_nil_iff]
    intro e he
    rw [hnone e he]
    exact Bool.false_ne_true
  have hmem : s∈(worker.snapshots.filter (isJoint pair)).filter
      fun s => st.ns ≤ s.observedAtMonotonicNs.getD 0 := by
    rw [List.mem_filter,List.mem_filter]
    exact ⟨⟨hs,hjoint⟩,decide_eq_true hlate⟩
  unfold overlapOf
  dsimp only
  rw [hst,Option.bind_some,hempty]
  cases hlist : (worker.snapshots.filter (isJoint pair)).filter
      fun s => st.ns ≤ s.observedAtMonotonicNs.getD 0 with
  | nil =>
    rw [hlist] at hmem
    cases hmem
  | cons first others =>
    cases hretired : retirementsAfter (eventsOf worker.snapshots) pair st with
    | nil =>
      rw [hretired] at he
      cases he
    | cons e rest => exact ⟨_,rfl,e,.head _,Nat.le_max_left _ _⟩

/-- Membership in the intervals of all workers and rounds. -/
theorem mem_deriveOverlap {observations : WorkerObservations×WorkerObservations}
    {rounds : List Round} {o : OverlapInterval} :
    o∈deriveOverlap observations rounds ↔ ∃ round∈rounds,∃ pair,
      round.requests.pair=some pair ∧ ∃ worker∈both observations,overlapOf worker pair=some o := by
  unfold deriveOverlap
  rw [List.mem_flatMap]
  constructor
  · rintro ⟨round,hround,ho⟩
    split at ho
    · cases ho
    · rename_i pair hpair
      obtain ⟨worker,hworker,hsome⟩ := List.mem_filterMap.mp ho
      exact ⟨round,hround,pair,hpair,worker,hworker,hsome⟩
  · rintro ⟨round,hround,pair,hpair,worker,hworker,hsome⟩
    refine ⟨round,hround,?_⟩
    rw [hpair]
    exact List.mem_filterMap.mpr ⟨worker,hworker,hsome⟩

section Intervals

variable {textDigest : String → String} {start w : World} {as : List Action}
variable {snapshots : List WorkerSnapshot} (h : Sampled textDigest start as w snapshots)
variable {pair : String×String} {st : Start}

include h

/-- Members of a pair are in the table once its first and second are. -/
theorem Sampled.unretired {j : ℕ} {v : World} (hv : (machine textDigest).At start as j v)
    (hfirst : pair.1∈keys v.toControl) (hsecond : pair.2∈keys v.toControl) {e : LifecycleEvent}
    (he : RetiresOne pair e) : e∉v.history := by
  refine h.retired_later hv ?_ he.1
  rcases List.mem_cons.mp he.2 with hid|hid
  · rw [hid]
    exact hfirst
  · rw [List.mem_singleton.mp hid]
    exact hsecond

/-- An interval from the later admission to a state with both in the table,
across an instant with both allocated, occurred. -/
theorem Sampled.occurred (hst : Starts w pair st) {k j : ℕ} {t v : World} {c : Control}
    (hkj : k ≤ j) (ht : (machine textDigest).At start as k t)
    (hv : (machine textDigest).At start as j v) (hinstant : Instant t as[k]? c)
    (hheld : Held c pair.1 ∧ Held c pair.2)
    (hkeys : pair.1∈keys t.toControl ∧ pair.2∈keys t.toControl)
    (hkeys' : pair.1∈keys v.toControl ∧ pair.2∈keys v.toControl) {o : OverlapInterval}
    (hstart : o.startMonotonicNs=st.ns) (hend : o.endMonotonicNs=max v.steady st.ns) :
    Occurred textDigest start as w pair o := by
  obtain ⟨i,u,hik,hu,hsteady,hbefore⟩ := h.joined_from hst ht hkeys.1 hkeys.2
  have hlate := (h.grows hu hv (hik.trans hkj)).steady
  have hends : v.steady=o.endMonotonicNs := by omega
  refine ⟨⟨i,j,u,v,hik.trans hkj,hu,hv,hsteady.trans hstart.symm,hends,fun m x him hmj hx => ?_,
    k,t,c,hik,hkj,ht,hinstant,hheld⟩,fun e he hretires => ?_⟩
  · have hadmitted := fun id => (h.mem_keys_iff hu id).mp
    obtain ⟨hfirst,hsecond⟩ := hbefore i u (Nat.le_refl _) hik hu
    exact ⟨h.mem_keys_between hu hx hv him hmj (hadmitted _ hfirst).1 hkeys'.1,
      h.mem_keys_between hu hx hv him hmj (hadmitted _ hsecond).1 hkeys'.2⟩
  · rw [←hends]
    exact (h.toEnd hv).dated e he (h.unretired hv hkeys'.1 hkeys'.2 hretires)

/-- A retirement listing the other member ends a true interval. -/
theorem Sampled.occurred_of_witness (hst : Starts w pair st)
    {e : QualificationModel.LifecycleEvent} (he : e∈retirementsAfter (eventsOf snapshots) pair st)
    (hwitness : isWitness pair e=true) {o : OverlapInterval} (hstart : o.startMonotonicNs=st.ns)
    (hend : o.endMonotonicNs=max e.atMonotonicNs st.ns) :
    Occurred textDigest start as w pair o := by
  obtain ⟨hseen,hkind,hmember,-,-,hreason⟩ := mem_retirementsAfter.mp he
  obtain ⟨event,hevent,rfl⟩ := h.of_mem_eventsOf hseen
  obtain ⟨j,u,v,a,before,rest,ids,hu,-,-,haction,hdated,-,-,hlisted⟩ := h.instant hevent
  have hretired : event.kind=.retired := by
    cases hk : event.kind with
    | admitted => simp [eventFromProto,eventKind,hk] at hkind
    | retired => rfl
  obtain ⟨hkey,-,hheld⟩ := hdated.retired hretired
  simp only [isWitness,List.any_eq_true,Bool.and_eq_true,decide_eq_true_eq] at hwitness
  obtain ⟨y,hy,hne,hconcurrent⟩ := hwitness
  change y∈event.concurrentRequestIds at hconcurrent
  rw [hlisted] at hconcurrent
  obtain ⟨entry,hentry,rfl⟩ := List.mem_map.mp hconcurrent
  rw [List.mem_filter] at hentry
  simp only [Bool.and_eq_true,Bool.not_eq_true'] at hentry
  obtain ⟨c,hinstant,hheldx,hheldy⟩ := held_together (h.observed hu).1.table (hheld hreason)
    ⟨entry.2,hentry.1,hentry.2.1.2⟩
  have hkey' := mem_keys hentry.1
  rw [←haction] at hinstant
  have hends : o.endMonotonicNs=max u.steady st.ns := by
    rw [hend,←hdated.time]
    rfl
  have hboth : (Held c pair.1 ∧ Held c pair.2) ∧
      pair.1∈keys u.toControl ∧ pair.2∈keys u.toControl := by
    rcases both_cases hmember hy hne with ⟨hfirst,hsecond⟩|⟨hfirst,hsecond⟩
    · rw [hfirst,hsecond]
      exact ⟨⟨hheldx,hheldy⟩,hkey,hkey'⟩
    · rw [hfirst,hsecond]
      exact ⟨⟨hheldy,hheldx⟩,hkey',hkey⟩
  exact h.occurred hst (Nat.le_refl j) hu hu hinstant hboth.1 hboth.2 hboth.2 hstart hends

/-- A state with a held request comes before the section that retires it. -/
theorem Sampled.before_retired {p j : ℕ} {u v : World}
    (hu : (machine textDigest).At start as p u) (hv : (machine textDigest).At start as (j+1) v)
    {e : LifecycleEvent} (he : e∈v.history) (hkind : e.kind=.retired)
    (hkey : e.requestId∈keys u.toControl) : p ≤ j := by
  by_contra hlate
  exact h.retired_later hu hkey hkind ((h.grows hv hu (by omega)).history.subset he)

/-- A request that was held is not retired for a failed allocation. -/
theorem Sampled.reason_of_held {p : ℕ} {u : World} (hu : (machine textDigest).At start as p u)
    {e : LifecycleEvent} (he : e∈w.history) (hkind : e.kind=.retired)
    (hheld : Held u.toControl e.requestId) : e.reason≠"allocation-failed" := by
  obtain ⟨j,v,v',a,before,rest,ids,hv,hv',hin,-,hdated,-⟩ := h.instant he
  obtain ⟨o,hentry,-⟩ := id hheld
  obtain ⟨hkey,hfailed,-⟩ := hdated.retired hkind
  have hpj := h.before_retired hu hv' hin hkind (mem_keys hentry)
  exact fun hreason => hfailed hreason (h.held_later hu hv hpj hheld hkey)

/-- Admissions that are numbered by a start come before retirements. -/
theorem Sampled.counts (hst : Starts w pair st) {j : ℕ} {v : World}
    (hv : (machine textDigest).At start as j v)
    (hkeys : pair.1∈keys v.toControl ∧ pair.2∈keys v.toControl) {e : LifecycleEvent}
    (he : e∈w.history) (hnew : e∉v.history) :
    st.ns ≤ e.atMonotonicNs ∧ ∀ n∈st.admissionSequence,n < e.sequence := by
  have hadmitted : ∀ x∈w.history,AdmitsOne pair x → x∈v.history := by
    intro x hx hadmits
    have hsame : ∀ id,Is .admitted id x → id∈keys v.toControl → x∈v.history := by
      intro id his hkey
      obtain ⟨y,hy,hisy⟩ := recorded_pos.mp ((h.mem_keys_iff hv id).mp hkey).1
      rw [recorded_unique (h.once id) hx ((h.toEnd hv).history.subset hy) his hisy]
      exact hy
    rcases hadmits with hadmits|hadmits
    · exact hsame _ hadmits hkeys.1
    · exact hsame _ hadmits hkeys.2
  constructor
  · obtain ⟨x,hx,hadmits,hat⟩ := hst.met
    have hpast := (h.observed hv).2.1.past x (hadmitted x hx hadmits)
    have hlate := (h.toEnd hv).dated e he hnew
    omega
  · intro n hn
    obtain ⟨x,hx,hadmits,rfl⟩ := hst.sequence n hn
    exact h.sequence_lt hv (hadmitted x hx hadmits) he hnew

/-- Retirements of a pair come no earlier than its first one. -/
theorem Sampled.first_le {e₁ e : LifecycleEvent}
    (hfirst : w.history.find? (fun e => RetiresOne pair e)=some e₁) (he : e∈w.history)
    (hretires : RetiresOne pair e) : e₁.sequence ≤ e.sequence := by
  obtain ⟨-,before,after,hsplit,hnone⟩ := List.find?_eq_some_iff_append.mp hfirst
  rw [hsplit] at he
  rcases List.mem_append.mp he with hold|hlate
  · have hnot := hnone e hold
    simp [hretires] at hnot
  · rcases List.mem_cons.mp hlate with rfl|hlate
    · exact Nat.le_refl _
    · exact ((h.sequence_split hsplit).2 e hlate).le

/-- The first retirement of a pair that was seen together lists the other
member, from a state with both in the table. -/
theorem Sampled.first_retired {p : ℕ} {u : World} (hu : (machine textDigest).At start as p u)
    (hheld : Held u.toControl pair.1 ∧ Held u.toControl pair.2) (hpair : pair.1≠pair.2)
    {e₁ : LifecycleEvent} (hfirst : w.history.find? (fun e => RetiresOne pair e)=some e₁) :
    isWitness pair (eventFromProto e₁)=true ∧
      ∃ j v,p ≤ j ∧ (machine textDigest).At start as j v ∧ e₁.atMonotonicNs=v.steady ∧
        pair.1∈keys v.toControl ∧ pair.2∈keys v.toControl := by
  have hretires : RetiresOne pair e₁ := by simpa using List.find?_some hfirst
  have he₁ := List.mem_of_find?_eq_some hfirst
  obtain ⟨j,v,v',a,before,rest,ids,hv,hv',hin,-,hdated,hsplit,hreplay,hlisted⟩ := h.instant he₁
  have hkey : ∀ id∈both pair,Held u.toControl id := by
    intro id hid
    rcases List.mem_cons.mp hid with rfl|hid
    · exact hheld.1
    · rw [List.mem_singleton.mp hid]
      exact hheld.2
  have hinTable : ∀ id∈both pair,id∈keys u.toControl := by
    intro id hid
    obtain ⟨o,hentry,-⟩ := hkey id hid
    exact mem_keys hentry
  have hpj := h.before_retired hu hv' hin hretires.1 (hinTable _ hretires.2)
  have hnone : ∀ e∈v.history++before,¬RetiresOne pair e := by
    intro e he hother
    have hle := h.first_le hfirst (by rw [hsplit]; exact List.mem_append_left _ he) hother
    have hless := (h.sequence_split hsplit).1 e he
    omega
  have hzero : ∀ id∈both pair,recorded .retired id (v.history++before)=0 := by
    intro id hid
    by_contra hsome
    obtain ⟨e,he,hkind,rfl⟩ := recorded_pos.mp (Nat.pos_of_ne_zero hsome)
    exact hnone e he ⟨hkind,hid⟩
  have hkeys : ∀ id∈both pair,id∈keys v.toControl := by
    intro id hid
    have hadmitted := ((h.mem_keys_iff hu id).mp (hinTable id hid)).1
    have hlater := @recorded_mono .admitted id _ _ (h.grows hu hv hpj).history
    have hnever := hzero id hid
    rw [recorded,List.countP_append] at hnever
    refine (h.mem_keys_iff hv id).mpr ⟨by omega,?_⟩
    rw [recorded]
    omega
  refine ⟨?_,j,v,hpj,hv,hdated.time,hkeys _ (.head _),hkeys _ (.tail _ (.head _))⟩
  obtain ⟨y,hy,hne⟩ : ∃ y∈both pair,y≠e₁.requestId := by
    by_cases hid : pair.1=e₁.requestId
    · exact ⟨pair.2,.tail _ (.head _),fun hsame => hpair (hid.trans hsame.symm)⟩
    · exact ⟨pair.1,.head _,hid⟩
  have hlive : y∈ids := by
    have hcount := replay_counts hreplay y
    have hadmitted := ((h.mem_keys_iff hv y).mp (hkeys y hy)).1
    have hnever := hzero y hy
    simp only [recorded,List.countP_append,List.countP_singleton] at hcount hadmitted hnever
    have hother : (decide (e₁.kind=.retired) && decide (e₁.requestId=y))=false := by
      simp [Ne.symm hne]
    rw [hother] at hcount
    by_contra hout
    rw [if_neg hout] at hcount
    simp only [Bool.false_eq_true,if_false] at hcount
    omega
  obtain ⟨o,hentry,hdone⟩ := h.held_later hu hv hpj (hkey y hy) (hkeys y hy)
  have hconcurrent : y∈e₁.concurrentRequestIds := by
    rw [hlisted]
    refine List.mem_map.mpr ⟨(y,o),List.mem_filter.mpr ⟨hentry,?_⟩,rfl⟩
    simp [hne,hdone,hlive]
  simp only [isWitness,List.any_eq_true,Bool.and_eq_true,decide_eq_true_eq]
  exact ⟨y,hy,hne,hconcurrent⟩

/-- A retirement that some snapshot has counts after a joint snapshot. -/
theorem Sampled.mem_retirements (hst : Starts w pair st) {p : ℕ} {u : World}
    (hu : (machine textDigest).At start as p u)
    (hheld : Held u.toControl pair.1 ∧ Held u.toControl pair.2) {e : LifecycleEvent}
    (he : e∈w.history) (hretires : RetiresOne pair e) {s : WorkerSnapshot} (hs : s∈snapshots)
    (hseen : eventFromProto e∈s.events) :
    eventFromProto e∈retirementsAfter (eventsOf snapshots) pair st := by
  have hkeys : pair.1∈keys u.toControl ∧ pair.2∈keys u.toControl := by
    obtain ⟨⟨o,hentry,-⟩,o',hentry',-⟩ := hheld
    exact ⟨mem_keys hentry,mem_keys hentry'⟩
  have hown : Held u.toControl e.requestId := by
    rcases List.mem_cons.mp hretires.2 with hid|hid
    · rw [hid]
      exact hheld.1
    · rw [List.mem_singleton.mp hid]
      exact hheld.2
  obtain ⟨htime,hnumber⟩ := h.counts hst hu hkeys he (h.unretired hu hkeys.1 hkeys.2 hretires)
  refine mem_retirementsAfter.mpr ⟨h.mem_eventsOf.mpr ⟨s,hs,hseen⟩,?_,hretires.2,htime,hnumber,
    h.reason_of_held hu he hretires.1 hown⟩
  simp [eventFromProto,eventKind,hretires.1]

/-- A counted retirement is a retirement of the run that some snapshot has. -/
theorem Sampled.of_mem_retirements {e : QualificationModel.LifecycleEvent}
    (he : e∈retirementsAfter (eventsOf snapshots) pair st) :
    ∃ event∈w.history,RetiresOne pair event ∧ eventFromProto event=e ∧
      ∃ s∈snapshots,e∈s.events := by
  obtain ⟨hseen,hkind,hmember,-⟩ := mem_retirementsAfter.mp he
  obtain ⟨event,hevent,rfl⟩ := h.of_mem_eventsOf hseen
  refine ⟨event,hevent,⟨?_,hmember⟩,rfl,h.mem_eventsOf.mp hseen⟩
  cases hk : event.kind with
  | admitted => simp [eventFromProto,eventKind,hk] at hkind
  | retired => rfl

/-- A later retirement does not list the member that was retired first. -/
theorem Sampled.not_witness {e₁ e : LifecycleEvent}
    (hfirst : w.history.find? (fun e => RetiresOne pair e)=some e₁) (he : e∈w.history)
    (hretires : RetiresOne pair e) (hne : e≠e₁) : isWitness pair (eventFromProto e)=false := by
  have hretires₁ : RetiresOne pair e₁ := by simpa using List.find?_some hfirst
  have he₁ := List.mem_of_find?_eq_some hfirst
  have hids : e₁.requestId≠e.requestId := fun hsame => hne
    (recorded_unique (h.retiredOnce e.requestId) he he₁ ⟨hretires.1,rfl⟩ ⟨hretires₁.1,hsame⟩)
  obtain ⟨j,v,v',a,before,rest,ids,hv,-,-,-,-,hsplit,hreplay,hlisted⟩ := h.instant he
  by_contra hlists
  have hwitness := Bool.of_not_eq_false hlists
  simp only [isWitness,List.any_eq_true,Bool.and_eq_true,decide_eq_true_eq] at hwitness
  obtain ⟨y,hy,hother,hconcurrent⟩ := hwitness
  have hy₁ : y=e₁.requestId := by
    rcases both_cases hretires.2 hy hother with ⟨hx,hy'⟩|⟨hy',hx⟩
    · rcases both_cases hretires.2 hretires₁.2 hids with ⟨-,hz⟩|⟨hz,hx'⟩
      · rw [←hy',hz]
      · exact absurd (hz.symm.trans hx) hids
    · rcases both_cases hretires.2 hretires₁.2 hids with ⟨hx',hz⟩|⟨hz,-⟩
      · exact absurd (hz.symm.trans hx) hids
      · rw [←hy',hz]
  change y∈e.concurrentRequestIds at hconcurrent
  rw [hlisted] at hconcurrent
  obtain ⟨entry,hentry,hid⟩ := List.mem_map.mp hconcurrent
  rw [List.mem_filter] at hentry
  simp only [Bool.and_eq_true,decide_eq_true_eq] at hentry
  have hlive : e₁.requestId∈ids := by
    rw [←hy₁,←hid]
    exact hentry.2.2
  have hcount := replay_counts hreplay e₁.requestId
  rw [if_pos hlive] at hcount
  have hprefix : (v.history++before++[e])<+:w.history :=
    ⟨rest,by rw [hsplit,List.append_assoc (v.history++before)]; rfl⟩
  have hadmitted := @recorded_mono .admitted e₁.requestId _ _ hprefix
  have honce := h.once e₁.requestId
  have hbefore : e₁∈v.history++before := by
    have hle := h.first_le hfirst he hretires
    rw [hsplit] at he₁
    rcases List.mem_append.mp he₁ with hold|hlate
    · exact hold
    · rcases List.mem_cons.mp hlate with hsame|hlate
      · exact absurd hsame.symm hne
      · have hless := (h.sequence_split hsplit).2 e₁ hlate
        omega
  have hretired := recorded_pos.mpr ⟨e₁,List.mem_append_left [e] hbefore,hretires₁.1,rfl⟩
  omega

end Intervals

section Pair

variable {textDigest : String → String} {start w : World} {as : List Action}
variable {worker : WorkerObservations} {pair : String×String}
variable (h : Sampled textDigest start as w worker.snapshots) (hpair : pair.1≠pair.2)

include h hpair

/-- Derived intervals are true if no retirement was lost. -/
theorem Sampled.occurred_of_kept (hkept : ¬Lost w worker.snapshots pair) {o : OverlapInterval}
    (ho : overlapOf worker pair=some o) : Occurred textDigest start as w pair o := by
  obtain ⟨st,hst,-,-,hstart,hends⟩ := overlapOf_cases ho
  have hstarts := h.starts hst
  rcases hends with ⟨e,he,hwitness,hend⟩|⟨hnone,s,hs,hjoint,hends⟩
  · exact h.occurred_of_witness hstarts he hwitness hstart hend
  · obtain ⟨p,u,hu,hshows⟩ := h.shown hs
    have hheld := hshows.joint hjoint
    have hkeys : pair.1∈keys u.toControl ∧ pair.2∈keys u.toControl := by
      obtain ⟨⟨o,hentry,-⟩,o',hentry',-⟩ := hheld
      exact ⟨mem_keys hentry,mem_keys hentry'⟩
    rcases hends with ⟨e,he,hend⟩|hend
    · obtain ⟨event,hevent,hretires,rfl,hseen⟩ := h.of_mem_retirements he
      obtain ⟨e₁,hfirst⟩ : ∃ e₁,w.history.find? (fun e => RetiresOne pair e)=some e₁ :=
        Option.isSome_iff_exists.mp (List.find?_isSome.mpr ⟨event,hevent,by simpa using hretires⟩)
      have hretires₁ : RetiresOne pair e₁ := by simpa using List.find?_some hfirst
      have he₁ := List.mem_of_find?_eq_some hfirst
      obtain ⟨hwitness,j,v,hpj,hv,hat,hkeys'⟩ := h.first_retired hu hheld hpair hfirst
      have hunseen : ∀ t∈worker.snapshots,eventFromProto e₁∉t.events := by
        intro t ht hin
        have hcounted := hnone _ (h.mem_retirements hstarts hu hheld he₁ hretires₁ ht hin)
        rw [hwitness] at hcounted
        cases hcounted
      have hnotLater : ¬e₁.atMonotonicNs < event.atMonotonicNs := fun hlater =>
        hkept ⟨⟨s,hs,hjoint⟩,e₁,hfirst,hunseen,event,hevent,hretires,hlater,hseen⟩
      have hfirstLe := h.dated_le he₁ hevent (h.first_le hfirst hevent hretires)
      refine h.occurred hstarts hpj hu hv (.before _) hheld hkeys hkeys' hstart ?_
      rw [hend,←hat]
      change max event.atMonotonicNs st.ns=_
      omega
    · refine h.occurred hstarts (Nat.le_refl p) hu hu (.before _) hheld hkeys hkeys hstart ?_
      rw [hend,hshows.time,Option.getD_some]

/-- If a retirement was lost, an interval that is not true is derived. -/
theorem Sampled.exists_false_interval (hlost : Lost w worker.snapshots pair) :
    ∃ o,overlapOf worker pair=some o ∧
      ∃ e∈w.history,RetiresOne pair e ∧ e.atMonotonicNs < o.endMonotonicNs := by
  obtain ⟨⟨s,hs,hjoint⟩,e₁,hfirst,hunseen,e₂,he₂,hretires₂,hlater,t,ht,hseen⟩ := hlost
  obtain ⟨st,hst⟩ := exists_start (eventsOf worker.snapshots) (List.mem_filter.mpr ⟨hs,hjoint⟩)
  have hstarts := h.starts hst
  obtain ⟨p,u,hu,hshows⟩ := h.shown hs
  have hheld := hshows.joint hjoint
  have hretires₁ : RetiresOne pair e₁ := by simpa using List.find?_some hfirst
  have he₁ := List.mem_of_find?_eq_some hfirst
  have hkeys : pair.1∈keys u.toControl ∧ pair.2∈keys u.toControl := by
    obtain ⟨⟨o,hentry,-⟩,o',hentry',-⟩ := hheld
    exact ⟨mem_keys hentry,mem_keys hentry'⟩
  have hdifferent : ∀ {e : LifecycleEvent} {t : WorkerSnapshot},t∈worker.snapshots →
      eventFromProto e∈t.events → e≠e₁ := by
    intro e t ht hin hsame
    rw [hsame] at hin
    exact hunseen t ht hin
  have hnone : ∀ e∈retirementsAfter (eventsOf worker.snapshots) pair st,
      isWitness pair e=false := by
    intro e he
    obtain ⟨event,hevent,hretires,rfl,t,ht,hin⟩ := h.of_mem_retirements he
    exact h.not_witness hfirst hevent hretires (hdifferent ht hin)
  obtain ⟨i,x,hip,hx,hsteady,-⟩ := h.joined_from hstarts hu hkeys.1 hkeys.2
  have htime : st.ns ≤ s.observedAtMonotonicNs.getD 0 := by
    rw [hshows.time,Option.getD_some,←hsteady]
    exact (h.grows hx hu hip).steady
  have hcounted := h.mem_retirements hstarts hu hheld he₂ hretires₂ ht hseen
  obtain ⟨o,ho,e,he,hle⟩ := exists_overlap hst hnone hs hjoint htime hcounted
  refine ⟨o,ho,e₁,he₁,hretires₁,?_⟩
  obtain ⟨event,hevent,hretires,rfl,t',ht',hin⟩ := h.of_mem_retirements he
  have hother : ∀ {e : LifecycleEvent},e∈w.history → RetiresOne pair e → e≠e₁ →
      e₁.requestId≠e.requestId := fun he hretires hne hsame => hne
    (recorded_unique (h.retiredOnce _) he he₁ ⟨hretires.1,rfl⟩ ⟨hretires₁.1,hsame⟩)
  have hid : event.requestId=e₂.requestId := by
    rcases both_cases hretires.2 hretires₁.2 (hother hevent hretires (hdifferent ht' hin)) with
      ⟨hx,hy⟩|⟨hy,hx⟩
    · rcases both_cases hretires₂.2 hretires₁.2 (hother he₂ hretires₂ (hdifferent ht hseen)) with
        ⟨hx',-⟩|⟨hy',-⟩
      · rw [←hx,hx']
      · exact absurd (hy'.trans hy.symm) hpair
    · rcases both_cases hretires₂.2 hretires₁.2 (hother he₂ hretires₂ (hdifferent ht hseen)) with
        ⟨-,hy'⟩|⟨-,hx'⟩
      · exact absurd (hy.trans hy'.symm) hpair
      · rw [←hx,hx']
  rw [recorded_unique (h.retiredOnce _) hevent he₂ ⟨hretires.1,rfl⟩ ⟨hretires₂.1,hid.symm⟩] at hle
  exact Nat.lt_of_lt_of_le hlater hle

end Pair

/-- In every run with observations and without reused ids, whatever snapshots
were taken, the derived intervals of a worker are true of its run exactly if
no round lost the first retirement of its pair and kept the second. -/
theorem derived_overlap_true_iff {textDigest : String → String} {start w : World}
    {as : List Action} {observations : WorkerObservations×WorkerObservations}
    {worker : WorkerObservations} (hworker : worker∈both observations)
    (hworkers : observations.1.workerId≠observations.2.workerId)
    (h : Sampled textDigest start as w worker.snapshots) {rounds : List Round}
    (hpairs : ∀ round∈rounds,∀ pair,round.requests.pair=some pair → pair.1≠pair.2) :
    (∀ o∈deriveOverlap observations rounds,o.workerId=worker.workerId →
      Occurred textDigest start as w o.requestIds o) ↔
    ∀ round∈rounds,∀ pair,round.requests.pair=some pair → ¬Lost w worker.snapshots pair := by
  constructor
  · intro htrue round hround pair hpair hlost
    obtain ⟨o,ho,e,he,hretires,hlate⟩ :=
      h.exists_false_interval (hpairs round hround pair hpair) hlost
    obtain ⟨st,-,hid,hrequests,-⟩ := overlapOf_cases ho
    have hoccurred := htrue o (mem_deriveOverlap.mpr
      ⟨round,hround,pair,hpair,worker,hworker,ho⟩) hid
    rw [hrequests] at hoccurred
    have hends := hoccurred.ends e he hretires
    omega
  · intro hkept o ho hid
    obtain ⟨round,hround,pair,hpair,other,hother,hsome⟩ := mem_deriveOverlap.mp ho
    obtain ⟨st,-,hid',hrequests,-⟩ := overlapOf_cases hsome
    have hsame : other=worker := by
      simp only [both,List.mem_cons,List.not_mem_nil,or_false] at hother hworker
      rw [hid'] at hid
      rcases hother with rfl|rfl
      · rcases hworker with hworker|hworker
        · exact hworker.symm
        · rw [hworker] at hid
          exact absurd hid hworkers
      · rcases hworker with hworker|hworker
        · rw [hworker] at hid
          exact absurd hid.symm hworkers
        · exact hworker.symm
    subst hsame
    rw [hrequests]
    exact h.occurred_of_kept (hpairs round hround pair hpair) (hkept round hround pair hpair) hsome

section Sample

open ControlReservations

/-- A poll of the sample worker. -/
def samplePoll : Poll := ⟨"poll",none,1,maxAmounts [],maxAmounts [],maxAmounts [],none,none⟩

/-- Two requests are allocated, then a report is taken. -/
def jointRun : List Action := [
  .loadStage (sampleLoad "a") (fun _ => 0) (.ok (some sampleBackend)),
  .reserveRequest 0 {sampleCall "a" with requestId := "A"} (fun _ => 0) 0,
  .allocationEnds 0 .sequence 0 0,
  .reserveRequest 1 {sampleCall "a" with requestId := "B"} (fun _ => 0) 0,
  .allocationEnds 1 .sequence 0 0,.prune (fun _ => 0)]

/-- Ids of other requests. -/
def otherId (n : ℕ) : String := String.ofList [Char.ofNat (97+n/16),Char.ofNat (97+n%16)]

/-- Reservations of other ids whose allocations fail. -/
def failedRun : ℕ → List Action
  | 0 => []
  | n+1 => failedRun n++[
      .reserveRequest (n+2) {sampleCall "a" with requestId := otherId n} (fun _ => 0) 0,
      .allocationEnds (n+2) .null 0 0]

/-- The first request is cancelled, other reservations fail, the second
request is cancelled later, and a report is taken. -/
def cancelRun (n : ℕ) : List Action :=
  jointRun++(.tick 5::.cancelRequest "a" 1 "A"::failedRun n++
    [.tick 5,.cancelRequest "a" 1 "B"])++[.prune (fun _ => 0)]

/-- The end of a run and both snapshots of it. -/
def sampled (n : ℕ) : Option (World×WorkerSnapshot×WorkerSnapshot) :=
  ((machine id).run sampleStart (cancelRun n)).bind fun w =>
    ((machine id).run sampleStart jointRun).bind fun u =>
      (snapshotFromProto samplePoll u.toControl).bind fun s =>
        (snapshotFromProto samplePoll w.toControl).map fun t => (w,s,t)

/-- Ids are admitted in their order. -/
def Increasing (w : World) : Prop :=
  ((w.history.filter fun e => e.kind=.admitted).map (·.requestId)).IsChain (· < ·)

instance (w : World) : Decidable (Increasing w) := inferInstanceAs (Decidable (List.IsChain _ _))

/-- The sample runs are sampled. -/
theorem sampled_run {n : ℕ} {w : World} {s t : WorkerSnapshot} (h : sampled n=some (w,s,t))
    (hincreasing : Increasing w) : Sampled id sampleStart (cancelRun n) w [s,t] := by
  obtain ⟨w',hw,hrest⟩ := Option.bind_eq_some_iff.mp h
  obtain ⟨u,hu,hrest⟩ := Option.bind_eq_some_iff.mp hrest
  obtain ⟨s',hs,hrest⟩ := Option.bind_eq_some_iff.mp hrest
  obtain ⟨t',ht,hsame⟩ := Option.map_eq_some_iff.mp hrest
  cases hsame
  refine ⟨⟨sampleStart_initial id,rfl,hw,fun x => ?_⟩,fun snapshot hsnapshot => ?_⟩
  · have hnodup := (List.isChain_iff_pairwise.mp hincreasing).imp fun h => ne_of_lt h
    have hcount := List.nodup_iff_count_le_one.mp hnodup x
    rw [List.count_eq_countP,List.countP_map,List.countP_filter] at hcount
    refine le_trans (List.countP_mono_left fun e _ he => ?_) hcount
    simp only [Bool.and_eq_true,decide_eq_true_eq] at he
    simp [he.1,he.2]
  · rcases List.mem_cons.mp hsnapshot with rfl|hlast
    · refine ⟨5,fun _ => 0,u,samplePoll,rfl,⟨?_,?_⟩,hs⟩
      · rw [cancelRun,List.append_assoc,List.length_append]
        exact Nat.le_add_right _ _
      · rw [cancelRun,List.append_assoc]
        exact hu
    · rw [List.mem_singleton.mp hlast]
      refine ⟨(cancelRun n).length-1,fun _ => 0,w,samplePoll,?_,?_,ht⟩
      · rw [cancelRun,List.length_append,List.length_singleton,Nat.add_sub_cancel]
        exact List.getElem?_concat_length
      · have hlength : (cancelRun n).length-1+1=(cancelRun n).length := by
          rw [cancelRun,List.length_append,List.length_singleton]
          omega
        rw [hlength]
        exact Machine.at_end hw

/-- A round with the pair of the samples. -/
def sampleRound : Round := ⟨0,0,.paired "A" "B"⟩

/-- A worker with the given snapshots, and one without any. -/
def sampleObservations (s t : WorkerSnapshot) : WorkerObservations×WorkerObservations :=
  (⟨"worker",[s,t],[]⟩,⟨"other",[],[]⟩)

/-- The first retirement of a pair, if the last snapshot has it. -/
def firstSeen (w : World) (t : WorkerSnapshot) : Bool :=
  (w.history.find? fun e => RetiresOne ("A","B") e).any fun e => eventFromProto e∈t.events

/-- With few other requests the derived interval is true. -/
theorem derived_overlap_of_kept_log :
    ∃ w s t,sampled 1=some (w,s,t) ∧ ∃ o∈deriveOverlap (sampleObservations s t) [sampleRound],
      o.startMonotonicNs=0 ∧ o.endMonotonicNs=5 ∧
        Occurred id sampleStart (cancelRun 1) w ("A","B") o := by
  have hcheck : ((sampled 1).any fun x => Increasing x.1 && firstSeen x.1 x.2.2 &&
      ((deriveOverlap (sampleObservations x.2.1 x.2.2) [sampleRound]).any fun o =>
        o.workerId="worker" && o.requestIds=("A","B") && o.startMonotonicNs=0 &&
          o.endMonotonicNs=5))=true := by
    decide +kernel
  obtain ⟨⟨w,s,t⟩,hsampled,hfacts⟩ := (Option.any_eq_true _ _).mp hcheck
  simp only [Bool.and_eq_true,decide_eq_true_eq,List.any_eq_true] at hfacts
  obtain ⟨⟨hincreasing,hseen⟩,o,ho,⟨⟨hworker,hrequests⟩,hstart⟩,hend⟩ := hfacts
  have hkept : ¬Lost w [s,t] ("A","B") := by
    rintro ⟨-,e,hfirst,hunseen,-⟩
    rw [firstSeen,hfirst] at hseen
    exact hunseen t (by simp) (by simpa using hseen)
  have hrounds : ∀ round∈[sampleRound],∀ pair,round.requests.pair=some pair →
      pair=("A","B") := by
    intro round hround pair hpair
    rw [List.mem_singleton.mp hround] at hpair
    cases hpair
    rfl
  have hpairs : ∀ round∈[sampleRound],∀ pair,round.requests.pair=some pair → pair.1≠pair.2 := by
    intro round hround pair hpair
    rw [hrounds round hround pair hpair]
    decide
  have hworkers : (sampleObservations s t).1.workerId≠(sampleObservations s t).2.workerId := by
    have hnames : "worker"≠"other" := by decide
    exact hnames
  have hfirst : (sampleObservations s t).1∈both (sampleObservations s t) := .head _
  have htrue := (derived_overlap_true_iff hfirst hworkers (sampled_run hsampled hincreasing)
    hpairs).mpr (by
      intro round hround pair hpair
      rw [hrounds round hround pair hpair]
      exact hkept) o ho hworker
  rw [hrequests] at htrue
  exact ⟨w,s,t,hsampled,o,ho,hstart,hend,htrue⟩

/-- The first retirement is pushed out of the log between two reports: the
derived interval ends with the second one. -/
theorem lost_retirement_extends_overlap :
    ∃ w s t,sampled 128=some (w,s,t) ∧ Sampled id sampleStart (cancelRun 128) w [s,t] ∧
      ∃ o∈deriveOverlap (sampleObservations s t) [sampleRound],
        o.workerId="worker" ∧ o.requestIds=("A","B") ∧ o.endMonotonicNs=10 ∧
        (∃ e∈w.history,RetiresOne ("A","B") e ∧ e.atMonotonicNs=5) ∧
        ¬Occurred id sampleStart (cancelRun 128) w o.requestIds o := by
  have hcheck : ((sampled 128).any fun x => Increasing x.1 &&
      (x.1.history.any fun e => RetiresOne ("A","B") e && e.atMonotonicNs=5) &&
      ((deriveOverlap (sampleObservations x.2.1 x.2.2) [sampleRound]).any fun o =>
        o.workerId="worker" && o.requestIds=("A","B") && o.endMonotonicNs=10))=true := by
    decide +kernel
  obtain ⟨⟨w,s,t⟩,hsampled,hfacts⟩ := (Option.any_eq_true _ _).mp hcheck
  simp only [Bool.and_eq_true,decide_eq_true_eq,List.any_eq_true] at hfacts
  obtain ⟨⟨hincreasing,e,he,hretires,hat⟩,o,ho,⟨hworker,hrequests⟩,hend⟩ := hfacts
  refine ⟨w,s,t,hsampled,sampled_run hsampled hincreasing,o,ho,hworker,hrequests,hend,
    ⟨e,he,hretires,hat⟩,fun hoccurred => ?_⟩
  rw [hrequests] at hoccurred
  have hends := hoccurred.ends e he hretires
  omega

end Sample

end Hllm.QualificationOverlap
