import Hllm.WorkerModel

/-!
# No dispatch exceeds the memory budgets

Every member of a dispatch is the `execute` call of a handler whose request
is in the table, and different members belong to different requests. The
workspaces of a pass are therefore a selection from those admission reserved
for, and it is no larger than the number of rows admission counted.
-/

namespace Hllm.WorkerMemory

open LargestSums MemoryAccounting RunInvariants ControlModel ControlTransitions ControlTable
open ControlAdmission ControlReservations SchedulerTickets SchedulerFairness SchedulerBatches
open WorkerModel

variable {ι ο ε : Type}

section Scheduler

variable {s s' : SchedulerModel.World ι ο ε}

/-- Steps inside `execute` keep the configuration, and callers outside stay there. -/
theorem inside_step {a : SchedulerModel.Action ι ο ε} (h : s.step a=some s')
    (hinside : inside a=true) :
    s'.maximumDecodeBatch=s.maximumDecodeBatch ∧
      ∀ c,s.phase c=.absent → s'.phase c=.absent := by
  have hmoved : ∀ {b : ℕ} {phase : SchedulerModel.Phase ο ε},s.phase b≠.absent →
      ∀ c,s.phase c=.absent → Function.update s.phase b phase c=.absent := by
    intro b phase hb c hc
    have hne : c≠b := by
      rintro rfl
      exact hb hc
    rw [Function.update_of_ne hne]
    exact hc
  cases a with
  | configure size => cases hinside
  | enter b call => cases hinside
  | check b now recheck =>
    simp only [SchedulerModel.World.step,SchedulerModel.World.check] at h
    split at h
    · rename_i hphase
      have hb : s.phase b≠.absent := by rw [hphase]; simp
      split at h
      · cases h
        exact ⟨rfl,hmoved hb⟩
      · split at h
        · cases h
          exact ⟨by simp,hmoved hb⟩
        · split at h
          · cases h
            exact ⟨rfl,hmoved hb⟩
          · cases h
            exact ⟨rfl,hmoved hb⟩
    · cases h
  | wake b =>
    simp only [SchedulerModel.World.step,SchedulerModel.World.wake] at h
    split at h
    · rename_i hphase _
      cases h
      exact ⟨rfl,hmoved (by rw [hphase]; simp)⟩
    · cases h
  | claim b now recheck =>
    simp only [SchedulerModel.World.step,SchedulerModel.World.claim] at h
    split at h
    · rename_i hphase
      split at h
      · cases h
      · split at h
        · split at h
          · cases h
            exact ⟨by simp,fun c hc => hc⟩
          · cases h
            exact ⟨by simp,hmoved (by rw [hphase]; simp)⟩
        · cases h
    · cases h
  | dispatch b =>
    simp only [SchedulerModel.World.step,SchedulerModel.World.dispatch] at h
    split at h
    · rename_i hphase
      have hb : s.phase b≠.absent := by rw [hphase]; simp
      split at h
      · cases h
      · split at h
        · cases h
          exact ⟨rfl,hmoved hb⟩
        · cases h
          exact ⟨rfl,hmoved hb⟩
    · cases h
  | compute b answer =>
    simp only [SchedulerModel.World.step,SchedulerModel.World.compute] at h
    split at h
    · rename_i hphase
      split at h
      · cases h
      · cases h
      · cases h
        exact ⟨rfl,hmoved (by rw [hphase]; simp)⟩
    · cases h
  | deliver b =>
    simp only [SchedulerModel.World.step,SchedulerModel.World.deliver] at h
    split at h
    · rename_i hphase _
      cases h
      exact ⟨rfl,hmoved (by rw [hphase]; simp)⟩
    · cases h
  | cancel b =>
    cases h
    exact ⟨rfl,fun c hc => hc⟩

/-- A call that has started keeps its arguments. -/
theorem started_call (h : SchedulerModel.Transition s s') {c : ℕ} (hc : s.phase c≠.absent) :
    (s'.ticket c).call=(s.ticket c).call := by
  cases h with
  | entered hphase hfree =>
    have hne : c≠_ := fun he => hc ((congrArg s.phase he).trans hphase)
    rw [SchedulerModel.World.entered_ticket,Function.update_of_ne hne]
  | drop _ _ _ _ => exact update_call (by rfl) c
  | take _ _ _ _ => exact update_call (by rfl) c
  | delivered _ _ =>
    rw [SchedulerModel.World.delivered_ticket]
    split
    · exact deliver_call _ _ _
    · rfl
  | _ => rfl

/-- A call that has started is live only if it was live before. -/
theorem live_before (h : SchedulerModel.Transition s s') {c : ℕ} (hlive : live (s'.phase c)=true)
    (hc : s.phase c≠.absent) : live (s.phase c)=true := by
  cases hphase : s.phase c with
  | absent => exact absurd hphase hc
  | ended o =>
    rw [SchedulerDelivery.ended_transition hphase h] at hlive
    cases hlive
  | _ => rfl

end Scheduler

variable {w w' : Worker ι ο ε} {textDigest : String → String}

/-- How the schedulers' callers belong to the handlers of the control service. -/
structure Linked (w : Worker ι ο ε) : Prop where
  /-- Schedulers have the configured batch size, if that is a valid one. -/
  batch : ∀ d,1 ≤ w.control.config.maximumDecodeBatch → w.control.config.maximumDecodeBatch≤8 →
    (w.scheduler d).maximumDecodeBatch=w.control.config.maximumDecodeBatch
  /-- No dispatch is larger than its limit. -/
  sized : ∀ d,Sized (w.scheduler d)
  /-- A live call is the one call of a handler with a lease on that deployment. -/
  calls : ∀ d c,live ((w.scheduler d).phase c)=true → ∃ t o,
    w.control.thread t=.leased (some d) o ∧ w.call t=some c ∧
    ((w.scheduler d).ticket c).call.sequence=o ∧
    ((w.scheduler d).ticket c).call.batchSupported=
      (w.control.loaded d).backend.supportsDecodeBatch

/-- A fresh worker has no calls. -/
theorem linked_start (control : ControlModel.World) (blank : SchedulerModel.Call ι) :
    Linked (Worker.start control blank : Worker ι ο ε) := by
  have hnew : ∀ size,(newScheduler blank size : SchedulerModel.World ι ο ε).phase=
      fun _ => .absent := by
    intro size
    simp only [newScheduler,SchedulerModel.World.configure,SchedulerModel.World.start]
    split
    · rfl
    · simp
  constructor
  · intro d hpos hmax
    have hsize : ¬(control.config.maximumDecodeBatch=0 ∨
        8 < control.config.maximumDecodeBatch) := by
      intro hbad
      have : 1 ≤ control.config.maximumDecodeBatch := hpos
      have : control.config.maximumDecodeBatch≤8 := hmax
      omega
    simp [Worker.start,newScheduler,SchedulerModel.World.configure,SchedulerModel.World.start,
      SchedulerModel.kMaximumDecodeBatch,if_neg hsize]
  · intro d l
    rw [Worker.start,hnew]
    trivial
  · intro d c hlive
    rw [Worker.start,hnew] at hlive
    cases hlive

/-- A handler that is inside a call keeps its lease through control steps. -/
theorem leased_through {b : ControlModel.Action} {control : ControlModel.World} {t c o : ℕ}
    {d : Option ℕ} (hfree : w.blocked b=false) (hone : w.control.step textDigest b=some control)
    (hthread : w.control.thread t=.leased d o) (hcall : w.call t=some c) :
    control.thread t=.leased d o := by
  refine leased_stays hthread hone fun hrelease => ?_
  cases b with
  | complete t' now =>
    cases hrelease
    simp [Worker.blocked,hcall] at hfree
  | leave t' disconnected now recheck =>
    cases hrelease
    simp [Worker.blocked,hcall] at hfree
  | _ => cases hrelease

/-- Replacing one scheduler by one that is linked in the same way. -/
theorem Linked.update (h : Linked w) {d : ℕ} {s : SchedulerModel.World ι ο ε}
    {call : ℕ → Option ℕ}
    (hbatch : s.maximumDecodeBatch=(w.scheduler d).maximumDecodeBatch) (hsized : Sized s)
    (hcall : ∀ t c,w.call t=some c → call t=some c)
    (hcalls : ∀ c,live (s.phase c)=true → ∃ t o,w.control.thread t=.leased (some d) o ∧
      call t=some c ∧ (s.ticket c).call.sequence=o ∧ (s.ticket c).call.batchSupported=
        (w.control.loaded d).backend.supportsDecodeBatch) :
    Linked {w with scheduler := Function.update w.scheduler d s, call := call} where
  batch := by
    refine (Function.forall_update_iff w.scheduler fun _ s => _ → _ →
      s.maximumDecodeBatch=_).mpr ⟨fun hpos hmax => ?_,fun d' _ => h.batch d'⟩
    exact hbatch.trans (h.batch d hpos hmax)
  sized := (Function.forall_update_iff w.scheduler fun _ => Sized).mpr
    ⟨hsized,fun d' _ => h.sized d'⟩
  calls := by
    refine (Function.forall_update_iff w.scheduler fun d s => ∀ c,live (s.phase c)=true → ∃ t o,
      w.control.thread t=.leased (some d) o ∧ call t=some c ∧ (s.ticket c).call.sequence=o ∧
      (s.ticket c).call.batchSupported=
        (w.control.loaded d).backend.supportsDecodeBatch).mpr ⟨hcalls,fun d' _ c hlive => ?_⟩
    obtain ⟨t,o,hthread,ht,hrest⟩ := h.calls d' c hlive
    exact ⟨t,o,hthread,hcall t c ht,hrest⟩

/-- Handlers and calls stay linked through every step of the worker. -/
theorem Linked.step (h : Linked w) (hreach : (machine ι ο ε textDigest).Reachable w)
    (hone : Transition textDigest w w') : Linked w' := by
  have hfair : ∀ d,Fair (w.scheduler d) := fun d => fair_reachable (scheduler_reachable hreach d)
  cases hone with
  | @control b control hfree hb =>
    obtain ⟨htable,hcommitted⟩ := committed_reachable (control_reachable hreach)
    have hloads : SameLoads w.control control := .moves (htable.step hb)
    constructor
    · intro d hpos hmax
      simp only [hloads.config] at hpos hmax ⊢
      exact h.batch d hpos hmax
    · exact h.sized
    · intro d c hlive
      obtain ⟨t,o,hthread,hcall,hsequence,hsupported⟩ := h.calls d c hlive
      have hd := (htable.leasedThread t _ o hthread).2.2.2
      refine ⟨t,o,leased_through hfree hb hthread hcall,hcall,hsequence,?_⟩
      rw [hloads.loaded d (hcommitted.known d hd.symm)]
      exact hsupported
  | @scheduled d b s hinside hb =>
    obtain ⟨hbatch,habsent⟩ := inside_step hb hinside
    rcases SchedulerModel.step_transition hb with rfl|hstep
    · exact h.update rfl (h.sized d) (fun _ _ hcall => hcall) (h.calls d)
    · refine h.update hbatch ((h.sized d).transition (hfair d) hstep hbatch)
        (fun _ _ hcall => hcall) fun c hlive => ?_
      have hstarted : (w.scheduler d).phase c≠.absent := by
        intro hc
        rw [habsent c hc] at hlive
        cases hlive
      rw [started_call hstep hstarted]
      exact h.calls d c (live_before hstep hlive hstarted)
  | @entered t c d o input position prefilling hthread hcall hphase hholder =>
    refine h.update (by simp) ((h.sized d).transition (hfair d) (.entered hphase hholder) (by simp))
      (fun t' c' ht => ?_) fun c' hlive => ?_
    · rw [Function.update_of_ne]
      · exact ht
      · rintro rfl
        rw [hcall] at ht
        cases ht
    · rw [SchedulerModel.World.entered_ticket]
      by_cases he : c'=c
      · subst he
        refine ⟨t,o,hthread,Function.update_self ..,?_,?_⟩
        · rw [Function.update_self]
          rfl
        · rw [Function.update_self]
          rfl
      · rw [Function.update_of_ne he]
        rw [SchedulerModel.World.entered_phase,Function.update_of_ne he] at hlive
        obtain ⟨t',o',hthread',hcall',hrest⟩ := h.calls d c' hlive
        have hne : t'≠t := by
          rintro rfl
          rw [hcall] at hcall'
          cases hcall'
        exact ⟨t',o',hthread',by rw [Function.update_of_ne hne]; exact hcall',hrest⟩
  | @finished t c d o outcome hthread hcall hphase =>
    refine ⟨h.batch,h.sized,fun d' c' hlive => ?_⟩
    obtain ⟨t',o',hthread',hcall',hrest⟩ := h.calls d' c' hlive
    have hne : t'≠t := by
      rintro rfl
      rw [hthread] at hthread'
      rw [hcall] at hcall'
      cases hthread'
      cases hcall'
      rw [hphase] at hlive
      cases hlive
    exact ⟨t',o',hthread',(Function.update_of_ne hne ..).trans hcall',hrest⟩

/-- Handlers and calls are linked in every reachable state. -/
theorem linked_reachable (h : (machine ι ο ε textDigest).Reachable w) : Linked w := by
  have hboth := Machine.Reachable.induct
    (I:=fun w => (machine ι ο ε textDigest).Reachable w ∧ Linked w) ?_ ?_ h
  · exact hboth.2
  · rintro s hs
    refine ⟨⟨s,[],hs,.nil s⟩,?_⟩
    obtain ⟨control,blank,-,rfl⟩ := hs
    exact linked_start control blank
  · rintro s a t ⟨hreach,hlinked⟩ hone
    exact ⟨hreach.step hone,hlinked.step hreach (step_transition hone)⟩

/-- Weights of the loaded deployment in one domain. -/
def loadedWeights (c : Control) (domain : MemoryDomain) : ℕ :=
  match c.deployment with
  | some d => (c.loaded d).backend.weightMemory.total domain
  | none => 0

/-- Bytes in use in one domain while the given requests share a pass. -/
def usedBytes (c : Control) (requests : List ℕ) (domain : MemoryDomain) : ℕ :=
  loadedWeights c domain+
    (c.active.map fun entry => (c.object entry.2).memory.cache.total domain).sum+
    (requests.map fun o => (c.object o).memory.workspace.total domain).sum

/-- Requests one pass may serve: one alone, or distinct running ones up to the
configured number if the loaded backend batches. -/
structure OnePass (c : Control) (requests : List ℕ) : Prop where
  /-- No request twice. -/
  distinct : requests.Nodup
  /-- They are in the table and have an owner. -/
  running : ∀ o∈requests,o∈c.active.map Prod.snd ∧ (c.object o).running=true
  /-- There are not too many of them. -/
  size : requests.length≤1 ∨ ∃ d,c.deployment=some d ∧
    (c.loaded d).backend.supportsDecodeBatch=true ∧
    requests.length ≤ c.config.maximumDecodeBatch

/-- A pass never has more requests than admission counted rows. -/
theorem OnePass.length_le {u : ControlModel.World} (hu : Committed u) {requests : List ℕ}
    (h : OnePass u.toControl requests) {d : ℕ} (hd : u.deployment=some d) :
    requests.length ≤ u.passRows d := by
  have hpos := (hu.batch d hd).1
  unfold Control.passRows
  rcases h.size with hone|⟨d',hd',hbatch,hsize⟩
  · split
    · exact hone.trans hpos
    · exact hone
  · rw [hd] at hd'
    cases hd'
    rw [if_pos hbatch]
    exact hsize

/-- Whatever pass is formed, the bytes in use are within the budgets. -/
theorem usedBytes_le_capacity {u : ControlModel.World} (htable : Table u) (hu : Committed u)
    {requests : List ℕ} (h : OnePass u.toControl requests) (domain : MemoryDomain) :
    usedBytes u.toControl requests domain ≤ u.config.capacity.total domain := by
  cases hd : u.deployment with
  | none =>
    have hempty : u.active=[] := by
      rw [List.eq_nil_iff_forall_not_mem]
      intro entry hentry
      have hhome := htable.home entry hentry
      rw [hd] at hhome
      cases hhome
    have hnone : requests=[] := by
      rw [List.eq_nil_iff_forall_not_mem]
      intro o ho
      have hm := (h.running o ho).1
      rw [hempty] at hm
      cases hm
    simp [usedBytes,loadedWeights,hd,hempty,hnone]
  | some d =>
    have hselect : (requests.map fun o => (u.object o).memory.workspace.total domain).Subperm
        ((workspacesOf u.object u.active).map (·.total domain)) := by
      obtain ⟨chosen,hperm,hsub⟩ : requests.Subperm (u.active.map Prod.snd) :=
        h.distinct.subperm fun o ho => (h.running o ho).1
      refine ⟨_,hperm.map _,?_⟩
      have hmap := hsub.map fun o => (u.object o).memory.workspace.total domain
      rw [List.map_map] at hmap
      rw [workspacesOf,List.map_map]
      exact hmap
    have hpass := sum_le_largestSum hselect (k:=u.passRows d)
      (by rw [List.length_map]; exact h.length_le hu hd)
    have hfits := hu.fits d hd domain
    unfold usedBytes loadedWeights
    rw [hd]
    exact (Nat.add_le_add_left hpass _).trans hfits

/-- Pinned bytes in use are among the host bytes in use. -/
theorem usedBytes_pinned {u : ControlModel.World} (hu : Committed u) {requests : List ℕ}
    (h : OnePass u.toControl requests) :
    usedBytes u.toControl requests .hostPinned ≤ usedBytes u.toControl requests .host := by
  have hweights : loadedWeights u.toControl .hostPinned ≤ loadedWeights u.toControl .host := by
    unfold loadedWeights
    split
    · exact (u.loaded _).backend.weightPinned
    · exact Nat.le_refl _
  refine Nat.add_le_add (Nat.add_le_add hweights ?_) ?_
  · exact List.sum_le_sum fun entry hentry => (hu.pinned entry hentry).1
  · refine List.sum_le_sum fun o ho => ?_
    obtain ⟨entry,hentry,rfl⟩ := List.mem_map.mp (h.running o ho).1
    exact (hu.pinned entry hentry).2

/-- Requests of a dispatch, as the scheduler's tickets name them. -/
def requestsOf (s : SchedulerModel.World ι ο ε) (members : List ℕ) : List ℕ :=
  members.map fun c => (s.ticket c).call.sequence

/-- Every dispatch in a backend belongs to the loaded deployment and is one
pass over distinct running requests of the table. -/
theorem dispatch_onePass (h : (machine ι ο ε textDigest).Reachable w) {d l : ℕ}
    {members : List ℕ} (hdispatch : inBackend ((w.scheduler d).phase l)=some members) :
    w.control.deployment=some d ∧
      OnePass w.control.toControl (requestsOf (w.scheduler d) members) := by
  have hlinked := linked_reachable h
  obtain ⟨htable,hcommitted⟩ := committed_reachable (control_reachable h)
  have hown := ownership_reachable (scheduler_reachable h d)
  have hgroup : group ((w.scheduler d).phase l)=members := by
    cases hphase : (w.scheduler d).phase l <;> simp_all [inBackend,group]
  have hlead : live ((w.scheduler d).phase l)=true := by
    cases hphase : (w.scheduler d).phase l <;> simp_all [inBackend,live]
  obtain ⟨lt,lo,hlt,-,-,hsupported⟩ := hlinked.calls d l hlead
  have hd : w.control.deployment=some d := (htable.leasedThread lt _ lo hlt).2.2.2.symm
  have hcall : ∀ c∈members,∃ t,w.call t=some c ∧
      w.control.thread t=.leased (some d) ((w.scheduler d).ticket c).call.sequence := by
    intro c hc
    obtain ⟨t,o,hthread,ht,hsequence,-⟩ := hlinked.calls d c (hown.member l c (hgroup ▸ hc)).1
    exact ⟨t,ht,by rw [hsequence]; exact hthread⟩
  refine ⟨hd,⟨?_,?_,?_⟩⟩
  · refine List.Nodup.map_on (fun c hc c' hc' he => ?_) (hgroup ▸ hown.groupNodup l)
    obtain ⟨t,ht,hthread⟩ := hcall c hc
    obtain ⟨t',ht',hthread'⟩ := hcall c' hc'
    rw [←he] at hthread'
    have hsame : t=t' := htable.oneOwner t t' _ (by rw [hthread]; rfl) (by rw [hthread']; rfl)
    rw [hsame,ht'] at ht
    exact (Option.some.inj ht).symm
  · intro o ho
    obtain ⟨c,hc,rfl⟩ := List.mem_map.mp ho
    obtain ⟨t,-,hthread⟩ := hcall c hc
    obtain ⟨hentry,-,hrunning,-⟩ := htable.leasedThread t _ _ hthread
    exact ⟨List.mem_map_of_mem hentry,hrunning⟩
  · have hrows : members.length ≤ rowLimit (w.scheduler d) l := by
      have hsized := hlinked.sized d l
      cases hphase : (w.scheduler d).phase l <;> simp_all [inBackend,Within]
    rw [requestsOf,List.length_map]
    unfold rowLimit at hrows
    split at hrows
    · exact .inl hrows
    · rename_i hkind
      simp only [Bool.or_eq_true,not_or,Bool.not_eq_true,Bool.not_eq_false'] at hkind
      obtain ⟨hpos,hmax⟩ := hcommitted.batch d hd
      rw [hlinked.batch d hpos hmax] at hrows
      exact .inr ⟨d,hd,hsupported ▸ hkind.2,hrows⟩

/-- The condition under which a fresh request is admitted: the two limits, and
in every domain the unbounded sum of weights, old and new caches and the
largest workspaces of one pass. -/
def Admissible (c : Control) (d : ℕ) (tokens queryTokens : UInt64) : Prop :=
  c.active.length < c.config.maximumActiveRequests ∧
  ∃ memory,(c.loaded d).backend.sequenceMemory tokens queryTokens=.ok memory ∧
    tokens.toNat+tokenTotal c.object c.active<2^64 ∧
    (c.config.maximumCachedTokens≠0 →
      tokens.toNat+tokenTotal c.object c.active ≤ c.config.maximumCachedTokens.toNat) ∧
    ∀ domain,(c.loaded d).backend.weightMemory.total domain+
      (memory.cache.total domain+cacheTotal c.object c.active domain)+
      largestSum (c.passRows d) ((memory.workspace::workspacesOf c.object c.active).map
        (·.total domain)) ≤ c.config.capacity.total domain

/-- `reserve` admits a fresh id exactly under that condition. -/
theorem reserve_admits_iff {c : Control} {d : ℕ} {id : String} {tokens chunk : UInt64}
    {deadlineMs now deadline : ℕ} {readings : String → ℕ}
    (hpinned : TablePinned (c.pruneExpired readings)) (hid : id≠"") (hlength : id.utf8ByteSize≤256)
    (hdeadline : requestDeadline deadlineMs now=.ok deadline)
    (hfresh : (c.pruneExpired readings).find id=none) :
    (∃ o,(c.reserve d id tokens chunk deadlineMs readings now).2=.ok (.admitted o)) ↔
      Admissible (c.pruneExpired readings) d tokens (queryRows tokens chunk) := by
  have hvalid : ¬(id="" ∨ 256 < id.utf8ByteSize) := by
    rintro (hempty|hlong)
    · exact hid hempty
    · exact Nat.not_le.mpr hlong hlength
  simp only [Control.reserve,if_neg hvalid,hdeadline,hfresh,Control.enroll]
  have hiff := fun memory => admission_ok_iff (d:=d) tokens (queryRows tokens chunk) memory hpinned
  cases hadmission : (c.pruneExpired readings).admission d tokens (queryRows tokens chunk) with
  | error error =>
    constructor
    · rintro ⟨o,ho⟩
      cases ho
    · rintro ⟨hcount,memory,hrest⟩
      have hok := (hiff memory).mpr ⟨hcount,hrest⟩
      rw [hadmission] at hok
      cases hok
  | ok memory =>
    have hok := (hiff memory).mp hadmission
    exact ⟨fun _ => ⟨hok.1,memory,hok.2⟩,fun _ => ⟨_,rfl⟩⟩

/-- What admission guarantees about memory in one state of a worker. -/
structure NeverOvercommitted (w : Worker ι ο ε) : Prop where
  /-- Whatever pass is formed, every domain stays within its budget. -/
  budget : ∀ requests,OnePass w.control.toControl requests → ∀ domain,
    usedBytes w.control.toControl requests domain ≤ w.control.config.capacity.total domain
  /-- The pinned bytes in use are among the host bytes in use. -/
  pinned : ∀ requests,OnePass w.control.toControl requests →
    usedBytes w.control.toControl requests .hostPinned≤
      usedBytes w.control.toControl requests .host
  /-- The dispatches of the schedulers are such passes. -/
  dispatches : ∀ d l members,inBackend ((w.scheduler d).phase l)=some members →
    w.control.deployment=some d ∧
      OnePass w.control.toControl (requestsOf (w.scheduler d) members)
  /-- A fresh id is admitted exactly when the unbounded sums fit. -/
  exact : ∀ d id tokens chunk deadlineMs readings now deadline,
    id≠"" → id.utf8ByteSize≤256 → requestDeadline deadlineMs now=.ok deadline →
    (w.control.pruneExpired readings).find id=none →
    ((∃ o,(w.control.reserve d id tokens chunk deadlineMs readings now).2=.ok (.admitted o)) ↔
      Admissible (w.control.pruneExpired readings) d tokens (queryRows tokens chunk))

/-- Admission never commits a worker to more than its budgets. -/
theorem admission_never_overcommits (h : (machine ι ο ε textDigest).Reachable w) :
    NeverOvercommitted w := by
  have hcontrol := control_reachable h
  obtain ⟨htable,hcommitted⟩ := committed_reachable hcontrol
  constructor
  · exact fun requests hpass domain => usedBytes_le_capacity htable hcommitted hpass domain
  · exact fun requests hpass => usedBytes_pinned hcommitted hpass
  · exact fun d l members hdispatch => dispatch_onePass h hdispatch
  · intro d id tokens chunk deadlineMs readings now deadline hid hlength hdeadline hfresh
    have hpruned : (ControlModel.machine textDigest).Reachable
        (w.control.within (w.control.pruneExpired readings)) :=
      hcontrol.step (a:=.prune readings) rfl
    exact reserve_admits_iff (committed_reachable hpruned).2.pinned hid hlength hdeadline hfresh

/-- The sample worker with one request in the backend. -/
def prefillRun : List (Action Unit Unit Unit) := [
  .control (.loadStage (sampleLoad "a") (fun _ => 0) (.ok (some sampleBackend))),
  .control (.acquire 0 (sampleCall "a") 0 (fun _ => 0) 0),
  .control (.allocationEnds 0 .sequence 0 0),.execute 0 0 () 0 true,.schedule 0 (.check 0 0 0),
  .schedule 0 (.claim 0 0 0),.schedule 0 (.dispatch 0)]

/-- Weights, cache and workspace of the sample request in the backend fit. -/
theorem prefill_within_budget :
    ∃ w : Worker Unit Unit Unit,(machine Unit Unit Unit id).Reachable w ∧
      inBackend ((w.scheduler 0).phase 0)=some [0] ∧
      usedBytes w.control.toControl (requestsOf (w.scheduler 0) [0]) .host=7 ∧
      NeverOvercommitted w := by
  obtain ⟨w,hrun,hphase,hbytes⟩ : ∃ w : Worker Unit Unit Unit,
      (machine Unit Unit Unit id).run (Worker.start sampleStart ⟨(),0,0,false,0,false⟩)
        prefillRun=some w ∧ inBackend ((w.scheduler 0).phase 0)=some [0] ∧
      usedBytes w.control.toControl (requestsOf (w.scheduler 0) [0]) .host=7 :=
    ⟨_,rfl,rfl,by decide⟩
  have hreach : (machine Unit Unit Unit id).Reachable w :=
    Machine.reachable_of_run ⟨sampleStart,_,sampleStart_initial id,rfl⟩ hrun
  exact ⟨w,hreach,hphase,hbytes,admission_never_overcommits hreach⟩

end Hllm.WorkerMemory
