import Hllm.ControlTable

/-!
# Admission covers the worst pass

Workspaces are transient, so admission reserves for the most expensive pass
the scheduler may form: in each domain the largest workspaces of as many
reservations as one pass can serve. All arithmetic of the service is on
64-bit words with checked additions. The checks turn out to be exact: they
accept precisely when the sums over unbounded naturals fit the budgets.
-/

namespace Hllm.ControlAdmission

open LargestSums MemoryAccounting RunInvariants ControlModel ControlTransitions ControlTable

/-- Weights, caches and the costliest pass in one domain. -/
def committedBytes (weights : MemoryAmounts) (cache : ℕ) (workspaces : List MemoryAmounts)
    (rows : ℕ) (d : MemoryDomain) : ℕ :=
  weights.total d+cache+largestSum rows (workspaces.map (·.total d))

/-- The sums of the memory check are exact. -/
theorem memoryCheck_exact (weights cache : MemoryAmounts) (workspaces : List MemoryAmounts)
    (rows : ℕ) :
    ExactAmounts (largestWorkspaces workspaces rows >>= addMemory cache >>= addMemory weights)
      fun d => committedBytes weights (cache.total d) workspaces rows d := by
  have h := ((largestWorkspaces_exact workspaces rows).bind_addMemory cache).bind_addMemory weights
  have hsum : (fun d => weights.total d+
      (cache.total d+largestSum rows (workspaces.map (·.total d))))=
      fun d => committedBytes weights (cache.total d) workspaces rows d :=
    funext fun d => (Nat.add_assoc _ _ _).symm
  rw [hsum] at h
  exact h

/-- The memory check is those sums and a comparison. -/
theorem memoryCheck_eq (weights cache : MemoryAmounts) (workspaces : List MemoryAmounts)
    (rows : ℕ) (capacity : MemoryAmounts) :
    memoryCheck weights cache workspaces rows capacity=
      (largestWorkspaces workspaces rows >>= addMemory cache >>= addMemory weights >>=
        fun used => requireMemory used capacity) := by
  unfold memoryCheck
  simp only [bind_assoc]

/-- Pinned parts stay within host parts in every sum admission makes. -/
theorem committedBytes_pinned {weights : MemoryAmounts} {pinned host : ℕ}
    {workspaces : List MemoryAmounts} (hweights : weights.PinnedInHost) (hcache : pinned ≤ host)
    (hworkspaces : ∀ workspace∈workspaces,workspace.PinnedInHost) (rows : ℕ) :
    committedBytes weights pinned workspaces rows .hostPinned≤
      committedBytes weights host workspaces rows .host :=
  Nat.add_le_add (Nat.add_le_add hweights hcache) (largestSum_map_le hworkspaces rows)

/-- The memory check passes exactly when the unbounded sums fit. -/
theorem memoryCheck_ok_iff {weights cache : MemoryAmounts} {workspaces : List MemoryAmounts}
    (rows : ℕ) (capacity : MemoryAmounts) (hweights : weights.PinnedInHost)
    (hcache : cache.PinnedInHost)
    (hworkspaces : ∀ workspace∈workspaces,workspace.PinnedInHost) :
    memoryCheck weights cache workspaces rows capacity=.ok () ↔
      ∀ d,committedBytes weights (cache.total d) workspaces rows d ≤ capacity.total d := by
  rw [memoryCheck_eq]
  rcases memoryCheck_exact weights cache workspaces rows with
    ⟨-,used,hused,htotal⟩|⟨⟨d,hd⟩,message,herror⟩
  · rw [hused,ok_bind,requireMemory_ok_iff]
    have hpinned : used.PinnedInHost := by
      unfold MemoryAmounts.PinnedInHost
      rw [htotal,htotal]
      exact committedBytes_pinned hweights hcache hworkspaces rows
    simp only [htotal]
    exact ⟨fun h => h.2,fun h => ⟨hpinned,h⟩⟩
  · rw [herror,error_bind]
    constructor
    · intro h
      cases h
    · intro h
      have hcapacity : capacity.total d<2^64 := (capacity.bytes d).toNat_lt
      exact absurd (hd.trans (h d)) (Nat.not_le.mpr hcapacity)

/-- Workspaces of the listed reservations. -/
def workspacesOf (object : ℕ → ActiveRequest) (entries : List (String×ℕ)) : List MemoryAmounts :=
  entries.map fun entry => (object entry.2).memory.workspace

/-- Bytes committed to the whole table in one domain under a loaded deployment. -/
def tableBytes (c : Control) (d : ℕ) (domain : MemoryDomain) : ℕ :=
  committedBytes (c.loaded d).backend.weightMemory (cacheTotal c.object c.active domain)
    (workspacesOf c.object c.active) (c.passRows d) domain

/-- Every amount in the table has its pinned part in its host part. -/
def TablePinned (c : Control) : Prop :=
  ∀ entry∈c.active,(c.object entry.2).memory.cache.PinnedInHost ∧
    (c.object entry.2).memory.workspace.PinnedInHost

/-- The memory check for a new request passes exactly when the unbounded sums
over the table and the request fit. -/
theorem memoryCheck_table_iff {c : Control} {d : ℕ} {tokens queryTokens : UInt64}
    {memory : SequenceMemory} (hpinned : TablePinned c)
    (hmemory : (c.loaded d).backend.sequenceMemory tokens queryTokens=.ok memory)
    {cache : MemoryAmounts} (hcache : ∀ domain,cache.total domain=
      memory.cache.total domain+cacheTotal c.object c.active domain) :
    memoryCheck (c.loaded d).backend.weightMemory cache
        (memory.workspace::workspacesOf c.object c.active) (c.passRows d) c.config.capacity=
          .ok () ↔
      ∀ domain,committedBytes (c.loaded d).backend.weightMemory
        (memory.cache.total domain+cacheTotal c.object c.active domain)
        (memory.workspace::workspacesOf c.object c.active) (c.passRows d) domain≤
          c.config.capacity.total domain := by
  obtain ⟨hcachePinned,hworkPinned⟩ :=
    (c.loaded d).backend.sequencePinned tokens queryTokens memory hmemory
  have hworkspaces : ∀ workspace∈memory.workspace::workspacesOf c.object c.active,
      workspace.PinnedInHost := by
    intro workspace hm
    rcases List.mem_cons.mp hm with rfl|hm
    · exact hworkPinned
    · obtain ⟨entry,hentry,rfl⟩ := List.mem_map.mp hm
      exact (hpinned entry hentry).2
  have hsum : cache.PinnedInHost := by
    unfold MemoryAmounts.PinnedInHost
    rw [hcache,hcache]
    exact Nat.add_le_add hcachePinned
      (List.sum_le_sum fun entry hentry => (hpinned entry hentry).1)
  rw [memoryCheck_ok_iff _ _ (c.loaded d).backend.weightPinned hsum hworkspaces]
  simp only [hcache]

/-- Admission as a whole: the limits and the unbounded sums of all four domains
with the new request added. -/
theorem admission_ok_iff {c : Control} {d : ℕ} (tokens queryTokens : UInt64)
    (memory : SequenceMemory) (hpinned : TablePinned c) :
    c.admission d tokens queryTokens=.ok memory ↔
      c.active.length < c.config.maximumActiveRequests ∧
      (c.loaded d).backend.sequenceMemory tokens queryTokens=.ok memory ∧
      tokens.toNat+tokenTotal c.object c.active<2^64 ∧
      (c.config.maximumCachedTokens≠0 →
        tokens.toNat+tokenTotal c.object c.active ≤ c.config.maximumCachedTokens.toNat) ∧
      ∀ domain,committedBytes (c.loaded d).backend.weightMemory
        (memory.cache.total domain+cacheTotal c.object c.active domain)
        (memory.workspace::workspacesOf c.object c.active) (c.passRows d) domain≤
          c.config.capacity.total domain := by
  unfold Control.admission
  by_cases hlimit : c.config.maximumActiveRequests ≤ c.active.length
  · rw [if_pos hlimit]
    constructor
    · intro h
      cases h
    · intro h
      exact absurd h.1 (Nat.not_lt.mpr hlimit)
  rw [if_neg hlimit]
  cases hmemory : (c.loaded d).backend.sequenceMemory tokens queryTokens with
  | error error =>
    constructor
    · intro h
      cases h
    · intro h
      cases h.2.1
  | ok found =>
    simp only [ok_bind,Except.ok.injEq]
    rcases accumulate_cases c.object c.active found.cache [found.workspace] tokens with
      ⟨cache,total,hok,hcache,htokens⟩|⟨message,herror,hover⟩
    · rw [hok]
      have hword : tokens.toNat+tokenTotal c.object c.active<2^64 := htokens ▸ total.toNat_lt
      have hlist : [found.workspace]++c.active.map (fun e => (c.object e.2).memory.workspace)=
          found.workspace::workspacesOf c.object c.active := rfl
      simp only [ok_bind,hlist]
      have hcached : (c.config.maximumCachedTokens < total ↔
          c.config.maximumCachedTokens.toNat < tokens.toNat+tokenTotal c.object c.active) := by
        rw [UInt64.lt_iff_toNat_lt,htokens]
      by_cases hfull : c.config.maximumCachedTokens≠0 ∧ c.config.maximumCachedTokens < total
      · rw [if_pos hfull]
        constructor
        · intro h
          cases h
        · intro h
          exact absurd (h.2.2.2.1 hfull.1) (Nat.not_le.mpr (hcached.mp hfull.2))
      · rw [if_neg hfull]
        have hroom : c.config.maximumCachedTokens≠0 →
            tokens.toNat+tokenTotal c.object c.active ≤ c.config.maximumCachedTokens.toNat :=
          fun hne => Nat.not_lt.mp fun hlt => hfull ⟨hne,hcached.mpr hlt⟩
        cases hcheck : memoryCheck (c.loaded d).backend.weightMemory cache
            (found.workspace::workspacesOf c.object c.active) (c.passRows d)
            c.config.capacity with
        | error error =>
          rw [error_bind]
          constructor
          · intro h
            cases h
          · rintro ⟨-,rfl,-,-,hfits⟩
            rw [(memoryCheck_table_iff hpinned hmemory hcache).mpr hfits] at hcheck
            cases hcheck
        | ok u =>
          rw [ok_bind]
          constructor
          · intro h
            cases h
            exact ⟨Nat.lt_of_not_le hlimit,rfl,hword,hroom,
              (memoryCheck_table_iff hpinned hmemory hcache).mp hcheck⟩
          · rintro ⟨-,rfl,-⟩
            rfl
    · rw [herror,error_bind]
      constructor
      · intro h
        cases h
      · rintro ⟨-,rfl,hword,-,hfits⟩
        rcases hover with ⟨domain,hdomain⟩|hmany
        · have hcapacity : c.config.capacity.total domain<2^64 :=
            (c.config.capacity.bytes domain).toNat_lt
          have hcommitted := hfits domain
          unfold committedBytes at hcommitted
          omega
        · exact absurd hmany (Nat.not_le.mpr hword)

variable {w w' : World}

/-- Everything admitted fits, whatever pass is formed next. -/
structure Committed (w : World) : Prop where
  /-- Pinned parts of the table lie in host parts. -/
  pinned : TablePinned w.toControl
  /-- The scheduler of a loaded deployment has a valid batch size. -/
  batch : ∀ d,w.deployment=some d →
    1 ≤ w.config.maximumDecodeBatch ∧ w.config.maximumDecodeBatch≤8
  /-- The loaded deployment is one of those created. -/
  known : ∀ d,w.deployment=some d → d < w.deployments
  /-- The commitments of the loaded deployment fit in every domain. -/
  fits : ∀ d,w.deployment=some d → ∀ domain,
    tableBytes w.toControl d domain ≤ w.config.capacity.total domain

/-- A fresh service has committed nothing. -/
theorem committed_start (config : WorkerConfig)
    (capabilities : PlanValidation.BackendCapabilities) (blank : ActiveRequest)
    (empty : LoadedDeployment) : Committed (World.start config capabilities blank empty) := by
  constructor <;> simp [World.start,TablePinned]

/-- Fewer reservations commit no more bytes. -/
theorem tableBytes_le {c c' : Control} {d : ℕ} (hconfig : c'.config=c.config)
    (hloaded : c'.loaded d=c.loaded d) (hactive : c'.active.Sublist c.active)
    (hmemory : ∀ entry∈c'.active,(c'.object entry.2).memory=(c.object entry.2).memory)
    (domain : MemoryDomain) : tableBytes c' d domain ≤ tableBytes c d domain := by
  have hcaches : cacheTotal c'.object c'.active domain ≤ cacheTotal c.object c.active domain := by
    have hsame : cacheTotal c'.object c'.active domain=cacheTotal c.object c'.active domain := by
      unfold cacheTotal
      congr 1
      refine List.map_congr_left fun entry hentry => ?_
      rw [hmemory entry hentry]
    rw [hsame]
    exact (hactive.map _).sum_le_sum fun _ _ => Nat.zero_le _
  have hworkspaces : (workspacesOf c'.object c'.active).Sublist
      (workspacesOf c.object c.active) := by
    have hsame : workspacesOf c'.object c'.active=workspacesOf c.object c'.active := by
      unfold workspacesOf
      refine List.map_congr_left fun entry hentry => ?_
      rw [hmemory entry hentry]
    rw [hsame]
    exact hactive.map _
  have hrows : c'.passRows d=c.passRows d := by
    unfold Control.passRows
    rw [hloaded,hconfig]
  unfold tableBytes committedBytes
  rw [hloaded,hrows]
  exact Nat.add_le_add (Nat.add_le_add_left hcaches _)
    (largestSum_le_of_subperm (hworkspaces.map _).subperm _)

/-- Moves that admit and load nothing. -/
theorem Committed.shrink (h : Committed w) (hconfig : w'.config=w.config)
    (hdeployment : ∀ d,w'.deployment=some d → w.deployment=some d)
    (hdeployments : w'.deployments=w.deployments) (hloaded : w'.loaded=w.loaded)
    (hactive : w'.active.Sublist w.active)
    (hmemory : ∀ o,(w'.object o).memory=(w.object o).memory) : Committed w' where
  pinned entry hentry := by
    rw [hmemory]
    exact h.pinned entry (hactive.subset hentry)
  batch d hd := by
    rw [hconfig]
    exact h.batch d (hdeployment d hd)
  known d hd := by
    rw [hdeployments]
    exact h.known d (hdeployment d hd)
  fits d hd domain := by
    rw [hconfig]
    exact (tableBytes_le hconfig (by rw [hloaded]) hactive (fun entry _ => hmemory entry.2)
      domain).trans (h.fits d (hdeployment d hd) domain)

/-- Replacing an object keeps all memory if it keeps its own. -/
theorem memory_withObject (c : Control) {o : ℕ} {r : ActiveRequest}
    (hr : r.memory=(c.object o).memory) (x : ℕ) :
    ((c.withObject o r).object x).memory=(c.object x).memory := by
  rw [Control.withObject_object]
  by_cases hx : x=o
  · rw [hx,Function.update_self]
    exact hr
  · rw [Function.update_of_ne hx]

/-- A retirement keeps the deployment and shortens the table. -/
theorem Committed.retire (h : Committed w) {c : Control} (hconfig : c.config=w.config)
    (hdeployment : c.deployment=w.deployment) (hdeployments : c.deployments=w.deployments)
    (hloaded : c.loaded=w.loaded) (hactive : c.active=w.active)
    (hmemory : ∀ x,(c.object x).memory=(w.object x).memory)
    {u : World} {id reason : String} {o : ℕ} (hu : u.toControl=c.retire id o reason) :
    Committed u := by
  refine h.shrink ?_ (fun d hd => ?_) ?_ ?_ ?_ (fun x => ?_)
  · simp [hu,Control.retire,hconfig]
  · rw [hu] at hd
    simpa [Control.retire,hdeployment] using hd
  · simp [hu,Control.retire,hdeployments]
  · simp [hu,Control.retire,Control.erase,hloaded]
  · rw [hu,Control.retire,recordLifecycle_active,Control.erase_active,hactive]
    exact List.filter_sublist
  · simpa [hu,Control.retire,Control.erase] using hmemory x

/-- A loaded stage commits its weights, which were checked. -/
theorem Committed.installed (h : Committed w) (htable : Table w)
    {request : WireMessages.LoadStageRequest} {backend : StageBackend}
    (hnone : w.deployment=none)
    (hbatch : 1 ≤ w.config.maximumDecodeBatch ∧ w.config.maximumDecodeBatch≤8)
    (hweights : requireMemory backend.weightMemory w.config.capacity=.ok ()) :
    Committed (w.within (w.install request backend)) where
  pinned := h.pinned
  batch _ _ := hbatch
  known d hd := by
    cases hd
    exact Nat.lt_succ_self _
  fits d hd domain := by
    cases hd
    have hempty : w.active=[] := by
      rw [List.eq_nil_iff_forall_not_mem]
      intro entry hentry
      have hhome := htable.home entry hentry
      rw [hnone] at hhome
      cases hhome
    have hbytes : tableBytes (w.install request backend) w.deployments domain=
        backend.weightMemory.total domain := by
      simp [tableBytes,committedBytes,cacheTotal,workspacesOf,hempty,largestSum]
    exact hbytes.trans_le (((requireMemory_ok_iff _ _).mp hweights).2 domain)

/-- A new reservation adds its cache, and its workspace to choose from. -/
theorem tableBytes_emplace (htable : Table w) {d : ℕ} (id : String) (tokens queryTokens : UInt64)
    (deadline : ℕ) (memory : SequenceMemory) (domain : MemoryDomain) :
    tableBytes ((w.emplace (freshRequest w.toControl d id tokens queryTokens deadline
      memory)).recordLifecycle .admitted id "") d domain≤
      committedBytes (w.loaded d).backend.weightMemory
        (memory.cache.total domain+cacheTotal w.object w.active domain)
        (memory.workspace::workspacesOf w.object w.active) (w.passRows d) domain := by
  have hperm : (insertEntry (id,w.objects) w.active).Perm ((id,w.objects)::w.active) :=
    List.perm_orderedInsert _ _ _
  have hnew : ∀ {β : Type} (f : ActiveRequest → β),
      ((insertEntry (id,w.objects) w.active).map fun entry => f ((Function.update w.object
        w.objects (freshRequest w.toControl d id tokens queryTokens deadline memory)) entry.2)).Perm
      (f (freshRequest w.toControl d id tokens queryTokens deadline memory)::
        w.active.map fun entry => f (w.object entry.2)) := by
    intro β f
    refine (hperm.map _).trans (.of_eq ?_)
    rw [List.map_cons,Function.update_self]
    congr 1
    refine List.map_congr_left fun entry hentry => ?_
    rw [Function.update_of_ne (Nat.ne_of_lt (htable.fresh entry hentry))]
  have hcache := (hnew fun r => r.memory.cache.total domain).sum_eq
  have hworkspaces := (hnew fun r => r.memory.workspace).map (·.total domain)
  have hrows : Control.passRows ((w.emplace (freshRequest w.toControl d id tokens queryTokens
      deadline memory)).recordLifecycle .admitted id "") d=w.passRows d := by
    simp [Control.passRows]
  unfold tableBytes committedBytes
  simp only [hrows,recordLifecycle_loaded,recordLifecycle_active,recordLifecycle_object,
    Control.emplace_active,cacheTotal,workspacesOf]
  refine Nat.add_le_add (Nat.add_le_add_left (le_of_eq ?_) _)
    (largestSum_le_of_subperm hworkspaces.subperm _)
  exact hcache

/-- An admitted request was checked together with the whole table. -/
theorem Committed.admitted (h : Committed w) (htable : Table w) {t d : ℕ} {id : String}
    {tokens queryTokens : UInt64} {deadline : ℕ} {memory : SequenceMemory} {claims : Bool}
    (hdeployment : w.deployment=some d)
    (hmemory : w.admission d tokens queryTokens=.ok memory) :
    Committed (w.goto ((w.emplace (freshRequest w.toControl d id tokens queryTokens deadline
      memory)).recordLifecycle .admitted id "") t (.allocating w.objects d claims)) := by
  obtain ⟨-,hfound,-,-,hfits⟩ := (admission_ok_iff tokens queryTokens memory h.pinned).mp hmemory
  have hold : ∀ entry∈w.active,entry.2≠w.objects :=
    fun entry hentry => Nat.ne_of_lt (htable.fresh entry hentry)
  constructor
  · intro entry hentry
    simp only [World.goto_toControl,recordLifecycle_active,recordLifecycle_object,
      Control.emplace_active,Control.emplace_object] at hentry ⊢
    rcases (mem_insertEntry _ entry _).mp hentry with rfl|hentry
    · rw [Function.update_self]
      exact (w.loaded d).backend.sequencePinned tokens queryTokens memory hfound
    · rw [Function.update_of_ne (hold entry hentry)]
      exact h.pinned entry hentry
  · intro d' hd'
    simp only [World.goto_toControl,recordLifecycle_config,recordLifecycle_deployment] at hd' ⊢
    exact h.batch d' hd'
  · intro d' hd'
    simp only [World.goto_toControl,recordLifecycle_deployments,recordLifecycle_deployment] at hd' ⊢
    exact h.known d' hd'
  · intro d' hd' domain
    simp only [World.goto_toControl,recordLifecycle_deployment,Control.emplace_deployment,
      hdeployment,Option.some.injEq] at hd'
    subst hd'
    simp only [World.goto_toControl,recordLifecycle_config,Control.emplace_config]
    exact (tableBytes_emplace htable id tokens queryTokens deadline memory domain).trans
      (hfits domain)

/-- Every move keeps the commitments within the budgets. -/
theorem Committed.move (h : Committed w) (htable : Table w) (hmove : Move w w') :
    Committed w' := by
  have hsame : ∀ {c : Control} (u : World),u.toControl=c → c.config=w.config →
      c.deployment=w.deployment → c.deployments=w.deployments → c.loaded=w.loaded →
      c.active=w.active → (∀ x,(c.object x).memory=(w.object x).memory) → Committed u := by
    rintro c u rfl hconfig hd hn hloaded hactive hmemory
    exact h.shrink hconfig (fun d hd' => hd ▸ hd') hn hloaded (hactive ▸ List.Sublist.refl _)
      hmemory
  have hfound : ∀ {c : Control} (u : World) (id reason : String),
      u.toControl=c.retireFound id reason → c.config=w.config → c.deployment=w.deployment →
      c.deployments=w.deployments → c.loaded=w.loaded → c.active=w.active →
      (∀ x,(c.object x).memory=(w.object x).memory) → Committed u := by
    intro c u id reason hu hconfig hd hn hloaded hactive hmemory
    unfold Control.retireFound at hu
    split at hu
    · exact h.retire hconfig hd hn hloaded hactive hmemory hu
    · exact hsame u hu hconfig hd hn hloaded hactive hmemory
  have hrelease : ∀ (u : World) (o : ℕ) (outcome : RequestOutcome) (now : ℕ),
      u.toControl=w.release o outcome now → Committed u := by
    intro u o outcome now hu
    unfold Control.release at hu
    split at hu
    · exact h.retire (c:=w.withObject o {w.object o with sequence := false}) rfl rfl rfl rfl rfl
        (memory_withObject w.toControl (by rfl)) hu
    · exact hsame u hu rfl rfl rfl rfl rfl fun _ => rfl
  cases hmove with
  | stopped o cause => exact hsame _ rfl rfl rfl rfl rfl rfl (memory_withObject _ (by rfl))
  | retired reason _ _ _ => exact h.retire rfl rfl rfl rfl rfl (fun _ => rfl) rfl
  | installed hnone hbatch hweights => exact h.installed htable hnone hbatch hweights
  | unloaded _ =>
    refine h.shrink rfl (fun d hd => ?_) rfl rfl (List.Sublist.refl _) fun _ => rfl
    cases hd
  | shortened deadline _ => exact hsame _ rfl rfl rfl rfl rfl rfl (memory_withObject _ (by rfl))
  | returned _ => exact hsame _ rfl rfl rfl rfl rfl rfl fun _ => rfl
  | admitted _ hdeployment _ hmemory => exact h.admitted htable hdeployment hmemory
  | allocationFailed _ => exact hfound _ _ _ rfl rfl rfl rfl rfl rfl fun _ => rfl
  | allocationDropped reason _ =>
    exact hfound _ _ _ rfl rfl rfl rfl rfl rfl (memory_withObject w.toControl (by rfl))
  | allocationKept _ =>
    exact hsame _ rfl rfl rfl rfl rfl rfl (memory_withObject w.toControl (by rfl))
  | @allocationClaimed t o d claims _ _ =>
    refine hsame _ rfl rfl rfl rfl rfl rfl fun x => ?_
    exact (memory_withObject (w.keepAllocation o) (by rfl) x).trans
      (memory_withObject w.toControl (by rfl) x)
  | claimed _ _ _ _ => exact hsame _ rfl rfl rfl rfl rfl rfl (memory_withObject w.toControl (by rfl))
  | completed now _ => exact hrelease _ _ _ _ rfl
  | left now _ => exact hrelease _ _ _ _ rfl
  | dropped _ => exact hsame _ rfl rfl rfl rfl rfl rfl fun _ => rfl
  | ticked elapsed => exact hsame _ rfl rfl rfl rfl rfl rfl fun _ => rfl

/-- What never changes about the deployments created so far. -/
structure SameLoads (w w' : World) : Prop where
  /-- The configuration is fixed. -/
  config : w'.config=w.config
  /-- Deployments are never forgotten. -/
  deployments : w.deployments ≤ w'.deployments
  /-- Their stages are fixed. -/
  loaded : ∀ d,d < w.deployments → w'.loaded d=w.loaded d

/-- A worker has its own deployments. -/
theorem SameLoads.refl (w : World) : SameLoads w w := ⟨rfl,Nat.le_refl _,fun _ _ => rfl⟩

/-- The same deployments twice. -/
theorem SameLoads.trans {u : World} (h : SameLoads w u) (h' : SameLoads u w') :
    SameLoads w w' where
  config := h'.config.trans h.config
  deployments := h.deployments.trans h'.deployments
  loaded d hd := (h'.loaded d (Nat.lt_of_lt_of_le hd h.deployments)).trans (h.loaded d hd)

/-- Moves that load nothing. -/
theorem SameLoads.same (hconfig : w'.config=w.config) (hdeployments : w'.deployments=w.deployments)
    (hloaded : w'.loaded=w.loaded) : SameLoads w w' :=
  ⟨hconfig,hdeployments.ge,fun d _ => by rw [hloaded]⟩

/-- A retirement loads nothing. -/
theorem SameLoads.retire {c : Control} (hconfig : c.config=w.config)
    (hdeployments : c.deployments=w.deployments) (hloaded : c.loaded=w.loaded) {id reason : String}
    {o : ℕ} (hu : w'.toControl=c.retire id o reason) : SameLoads w w' := by
  refine .same ?_ ?_ ?_
  · simp [hu,Control.retire,hconfig]
  · simp [hu,Control.retire,hdeployments]
  · simp [hu,Control.retire,Control.erase,hloaded]

/-- No move changes the deployments created before it. -/
theorem SameLoads.move (hmove : Move w w') : SameLoads w w' := by
  have hfound : ∀ {c : Control} (u : World) (id reason : String),
      u.toControl=c.retireFound id reason → c.config=w.config → c.deployments=w.deployments →
      c.loaded=w.loaded → SameLoads w u := by
    intro c u id reason hu hconfig hn hloaded
    unfold Control.retireFound at hu
    split at hu
    · exact .retire hconfig hn hloaded hu
    · exact .same (hu ▸ hconfig) (hu ▸ hn) (hu ▸ hloaded)
  have hrelease : ∀ (u : World) (o : ℕ) (outcome : RequestOutcome) (now : ℕ),
      u.toControl=w.release o outcome now → SameLoads w u := by
    intro u o outcome now hu
    unfold Control.release at hu
    split at hu
    · exact .retire (c:=w.withObject o {w.object o with sequence := false}) rfl rfl rfl hu
    · exact .same (hu ▸ rfl) (hu ▸ rfl) (hu ▸ rfl)
  cases hmove with
  | retired reason _ _ _ => exact .retire (c:=w.toControl) rfl rfl rfl rfl
  | installed _ _ _ =>
    refine ⟨rfl,Nat.le_succ _,fun d hd => ?_⟩
    rw [World.within_toControl,Control.install_loaded,Function.update_of_ne (Nat.ne_of_lt hd)]
  | admitted _ _ _ _ => exact .same (by simp) (by simp) (by simp [Control.emplace])
  | allocationFailed _ => exact hfound _ _ _ rfl rfl rfl rfl
  | allocationDropped reason _ => exact hfound _ _ _ rfl rfl rfl rfl
  | completed now _ => exact hrelease _ _ _ _ rfl
  | left now _ => exact hrelease _ _ _ _ rfl
  | _ => exact .same rfl rfl rfl

/-- No sequence of moves changes the deployments created before it. -/
theorem SameLoads.moves (h : Relation.ReflTransGen Move w w') : SameLoads w w' := by
  induction h with
  | refl => exact .refl w
  | tail _ hlast ih => exact ih.trans (.move hlast)

variable {textDigest : String → String}

/-- The commitments stay within the budgets in every reachable state. -/
theorem committed_reachable (h : (machine textDigest).Reachable w) : Table w ∧ Committed w := by
  refine Machine.Reachable.induct_moves (I:=fun w => Table w ∧ Committed w) ?_
    (fun s a t hs hone => hs.1.step hone) (fun s t hs hmove => ⟨hs.1.move hmove,?_⟩) h
  · rintro s ⟨config,capabilities,blank,empty,-,rfl⟩
    exact ⟨table_start config capabilities blank empty,
      committed_start config capabilities blank empty⟩
  · exact hs.2.move hs.1 hmove

end Hllm.ControlAdmission
