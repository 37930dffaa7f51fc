import Hllm.ControlReservations
import Mathlib.Data.Finset.Basic
import Mathlib.Data.List.Range

/-!
# The lifecycle log

Every path that admits or retires a reservation writes the log, one of them
after the mutex was dropped for an allocation. The retained window is
compared with the unbounded history: numbers without gaps, replay to the
table, and for every event the table at the instant it was recorded. The
instants inside a critical section are the states between its moves.
-/

namespace Hllm.ControlHistory

open RunInvariants ControlModel ControlTransitions ControlTable Relation

/-- One event of a replay. It fails on an id admitted twice or retired
without an admission. -/
def replayEvent (known : Option (Finset String)) (event : LifecycleEvent) :
    Option (Finset String) :=
  known.bind fun ids =>
    match event.kind with
    | .admitted => if event.requestId∈ids then none else some (insert event.requestId ids)
    | .retired => if event.requestId∈ids then some (ids.erase event.requestId) else none

/-- Replay of a history. -/
def replay (events : List LifecycleEvent) : Option (Finset String) :=
  events.foldl replayEvent (some ∅)

/-- Ids of the table as a set. -/
def keys (c : Control) : Finset String := (c.active.map Prod.fst).toFinset

/-- Other ids whose allocation is completed. -/
def allocatedOthers (c : Control) (id : String) : List String :=
  (c.active.filter fun entry => entry.1≠id && !(c.object entry.2).allocating).map Prod.fst

/-- The log against the unbounded history. -/
structure Logged (c : Control) : Prop where
  /-- Events are counted. -/
  total : c.lifecycleTotal=c.history.length
  /-- Events are numbered from one. -/
  numbered : c.history.map (·.sequence)=List.range' 1 c.history.length
  /-- The window holds the last events. -/
  window : c.lifecycle=c.history.drop (c.history.length-kLifecycleHistory)

/-- The event a record appends. -/
def eventOf (c : Control) (kind : LifecycleKind) (id reason : String) : LifecycleEvent :=
  ⟨kind,id,c.lifecycleTotal+1,c.steady,allocatedOthers c id,reason⟩

section Record

variable {c : Control} (kind : LifecycleKind) (id reason : String)

/-- A record appends one event. -/
theorem recordLifecycle_history (hon : c.config.requestObservations=true) :
    (c.recordLifecycle kind id reason).history=c.history++[eventOf c kind id reason] := by
  unfold Control.recordLifecycle
  rw [if_pos hon]
  rfl

/-- The window moves on by one event. -/
theorem Logged.record (h : Logged c) (hon : c.config.requestObservations=true) :
    Logged (c.recordLifecycle kind id reason) := by
  have hhistory := recordLifecycle_history kind id reason hon
  have htotal : (c.recordLifecycle kind id reason).lifecycleTotal=c.lifecycleTotal+1 := by
    unfold Control.recordLifecycle
    rw [if_pos hon]
  have hwindow : (c.recordLifecycle kind id reason).lifecycle=
      (c.lifecycle++[eventOf c kind id reason]).drop
        (c.lifecycle.length+1-kLifecycleHistory) := by
    simp only [Control.recordLifecycle,hon,if_true,eventOf,allocatedOthers]
  refine ⟨?_,?_,?_⟩
  · rw [htotal,hhistory,List.length_append,List.length_singleton,h.total]
  · rw [hhistory,List.map_append,h.numbered,List.length_append,List.length_singleton,
      List.range'_1_concat]
    simp only [List.map_cons,List.map_nil,eventOf,h.total,Nat.add_comm]
  · have hlength : c.lifecycle.length=c.history.length-(c.history.length-kLifecycleHistory) := by
      rw [h.window,List.length_drop]
    rw [hwindow,hhistory,hlength,h.window,List.length_append,List.length_singleton]
    have hfits : c.history.length-kLifecycleHistory ≤ c.history.length := Nat.sub_le _ _
    have hsum : c.history.length-kLifecycleHistory+
        (c.history.length-(c.history.length-kLifecycleHistory)+1-kLifecycleHistory)=
        c.history.length+1-kLifecycleHistory := by omega
    rw [←List.drop_append_of_le_length hfits,List.drop_drop,hsum]

end Record

/-- Two states with the same table ids and the same log. -/
structure SameLog (c c' : Control) : Prop where
  active : c'.active=c.active
  history : c'.history=c.history
  lifecycle : c'.lifecycle=c.lifecycle
  total : c'.lifecycleTotal=c.lifecycleTotal
  config : c'.config=c.config

/-- What a move writes: nothing, or one event that replays to the new table. -/
inductive Recorded (c c' : Control) : Prop
  /-- Nothing is written. -/
  | silent (hsame : SameLog c c')
  /-- One event is written. -/
  | event (e : LifecycleEvent) (hhistory : c'.history=c.history++[e]) (hlogged : Logged c')
      (hconfig : c'.config=c.config) (hreplay : replayEvent (some (keys c)) e=some (keys c'))

section Moves

variable {c c' : Control}

/-- Retiring an entry records it. -/
theorem recorded_retire (hlogged : Logged c) (hon : c.config.requestObservations=true)
    (hsame : SameLog c c') {id : String} {o : ℕ} (reason : String) (hentry : (id,o)∈c.active) :
    Recorded c (c'.retire id o reason) := by
  have hon' : (c'.erase id o reason).config.requestObservations=true := by
    rw [Control.erase_config,hsame.config]
    exact hon
  have hlogged' : Logged (c'.erase id o reason) := by
    refine ⟨?_,?_,?_⟩
    · rw [Control.erase_lifecycleTotal,Control.erase_history,hsame.total,hsame.history,
        hlogged.total]
    · rw [Control.erase_history,hsame.history,hlogged.numbered]
    · rw [Control.erase_lifecycle,Control.erase_history,hsame.lifecycle,hsame.history]
      exact hlogged.window
  have hkeys : keys (c'.retire id o reason)=(keys c).erase id := by
    ext x
    simp only [keys,Control.retire,recordLifecycle_active,Control.erase_active,hsame.active,
      List.mem_toFinset,List.mem_map,List.mem_filter,Finset.mem_erase,decide_eq_true_eq]
    constructor
    · rintro ⟨entry,⟨hm,hne⟩,rfl⟩
      exact ⟨hne,entry,hm,rfl⟩
    · rintro ⟨hne,entry,hm,rfl⟩
      exact ⟨entry,⟨hm,hne⟩,rfl⟩
  have hknown : id∈keys c := List.mem_toFinset.mpr (List.mem_map_of_mem hentry)
  refine .event (eventOf (c'.erase id o reason) .retired id reason) ?_ (hlogged'.record _ _ _ hon')
    ?_ ?_
  · rw [Control.retire,recordLifecycle_history _ _ _ hon',Control.erase_history,hsame.history]
  · rw [Control.retire,recordLifecycle_config,Control.erase_config,hsame.config]
  · rw [hkeys]
    simp [replayEvent,eventOf,hknown]

/-- Admitting a new id records it. -/
theorem recorded_admitted (hlogged : Logged c) (hon : c.config.requestObservations=true)
    (r : ActiveRequest) (hnew : c.find r.id=none) :
    Recorded c ((c.emplace r).recordLifecycle .admitted r.id "") := by
  have hlogged' : Logged (c.emplace r) := ⟨hlogged.total,hlogged.numbered,hlogged.window⟩
  have hkeys : keys ((c.emplace r).recordLifecycle .admitted r.id "")=insert r.id (keys c) := by
    ext x
    simp only [keys,recordLifecycle_active,Control.emplace_active,List.mem_toFinset,List.mem_map,
      mem_insertEntry,Finset.mem_insert]
    constructor
    · rintro ⟨entry,rfl|hm,rfl⟩
      · exact .inl rfl
      · exact .inr ⟨entry,hm,rfl⟩
    · rintro (rfl|⟨entry,hm,rfl⟩)
      · exact ⟨_,.inl rfl,rfl⟩
      · exact ⟨entry,.inr hm,rfl⟩
  have hunknown : r.id∉keys c := by
    intro hm
    obtain ⟨entry,hentry,hid⟩ := List.mem_map.mp (List.mem_toFinset.mp hm)
    have hne := List.lookup_eq_none_iff.mp hnew entry hentry
    simp [hid] at hne
  have hon' : (c.emplace r).config.requestObservations=true := hon
  refine .event (eventOf (c.emplace r) .admitted r.id "") ?_ (hlogged'.record _ _ _ hon') ?_ ?_
  · rw [recordLifecycle_history _ _ _ hon']
    rfl
  · rw [recordLifecycle_config]
    rfl
  · rw [hkeys]
    simp [replayEvent,eventOf,hunknown]

end Moves

variable {w w' : World} {textDigest : String → String}

/-- Every move writes nothing or one event. -/
theorem recorded_move (htable : Table w) (hlogged : Logged w.toControl)
    (hon : w.config.requestObservations=true) (hmove : Move w w') :
    Recorded w.toControl w'.toControl := by
  have hfound : ∀ {c : Control} {o : ℕ} (reason : String),SameLog w.toControl c →
      ((w.object o).id,o)∈w.active →
      Recorded w.toControl (c.retireFound (w.object o).id reason) := by
    intro c o reason hsame hentry
    have hfind : c.find (w.object o).id=some o := by
      rw [Control.find,hsame.active]
      exact (htable.find_iff _ _).mpr hentry
    rw [Control.retireFound,hfind]
    exact recorded_retire hlogged hon hsame reason hentry
  have hrelease : ∀ {o : ℕ} (outcome : RequestOutcome) (now : ℕ),
      ((w.object o).id,o)∈w.active → Recorded w.toControl (w.release o outcome now) := by
    intro o outcome now hentry
    rw [htable.release_eq hentry]
    refine recorded_retire hlogged hon ?_ _ hentry
    exact ⟨rfl,rfl,rfl,rfl,rfl⟩
  cases hmove with
  | retired reason hentry => exact recorded_retire hlogged hon ⟨rfl,rfl,rfl,rfl,rfl⟩ reason hentry
  | admitted hidle hdeployment hfind hmemory => exact recorded_admitted hlogged hon _ hfind
  | allocationFailed hthread =>
    exact hfound _ ⟨rfl,rfl,rfl,rfl,rfl⟩ (htable.allocatingThread _ _ _ _ hthread).1
  | allocationDropped reason hthread =>
    exact hfound _ ⟨rfl,rfl,rfl,rfl,rfl⟩ (htable.allocatingThread _ _ _ _ hthread).1
  | completed now hthread => exact hrelease _ _ (htable.leasedThread _ _ _ hthread).1
  | left now hthread =>
    rcases hthread with hleased|hreleased
    · exact hrelease _ _ (htable.leasedThread _ _ _ hleased).1
    · rw [World.goto_toControl,htable.release_gone (htable.gone _ _ _ hreleased)]
      exact .silent ⟨rfl,rfl,rfl,rfl,rfl⟩
  | _ => exact .silent ⟨rfl,rfl,rfl,rfl,rfl⟩

/-- A log that is kept and replays to the table. -/
structure Faithful (c : Control) : Prop extends Logged c where
  /-- Observations are on. -/
  observed : c.config.requestObservations=true
  /-- The history replays to the table. -/
  replayed : replay c.history=some (keys c)

/-- A fresh service has an empty log. -/
theorem faithful_start (config : WorkerConfig) (capabilities : PlanValidation.BackendCapabilities)
    (blank : ActiveRequest) (empty : LoadedDeployment) (hon : config.requestObservations=true) :
    Faithful (World.start config capabilities blank empty).toControl where
  total := rfl
  numbered := rfl
  window := (List.drop_nil (i := _)).symm
  observed := hon
  replayed := rfl

/-- What is recorded keeps the log faithful. -/
theorem Faithful.recorded {c c' : Control} (h : Faithful c) (hrecorded : Recorded c c') :
    Faithful c' := by
  cases hrecorded with
  | silent hsame =>
    refine ⟨⟨?_,?_,?_⟩,?_,?_⟩
    · rw [hsame.total,hsame.history,h.total]
    · rw [hsame.history,h.numbered]
    · rw [hsame.lifecycle,hsame.history]
      exact h.window
    · rw [hsame.config]
      exact h.observed
    · rw [hsame.history,h.replayed,keys,keys,hsame.active]
  | event event hhistory hlogged hconfig hreplay =>
    refine ⟨hlogged,?_,?_⟩
    · rw [hconfig]
      exact h.observed
    · have hfold : replay c'.history=replayEvent (replay c.history) event := by
        rw [hhistory,replay,List.foldl_append]
        rfl
      rw [hfold,h.replayed,hreplay]

/-- A step keeps the log faithful. -/
theorem Faithful.step {a : Action} (h : Faithful w.toControl) (htable : Table w)
    (hone : w.step textDigest a=some w') : Table w' ∧ Faithful w'.toControl := by
  refine closure_preserves (I := fun w => Table w ∧ Faithful w.toControl) ?_ (htable.step hone)
    ⟨htable,h⟩
  intro u v hu huv
  exact ⟨hu.1.move huv,hu.2.recorded (recorded_move hu.1 hu.2.toLogged hu.2.observed huv)⟩

/-- Other ids whose allocation was completed when a critical section began and
that are still in the table. -/
def allocatedWithin (c : Control) (ids : Finset String) (id : String) : List String :=
  (c.active.filter fun entry =>
    entry.1≠id && !(c.object entry.2).allocating && decide (entry.1∈ids)).map Prod.fst

/-- The events of a critical section. Each lists the allocated others at its
instant, when the table held what the history up to it replays to. -/
def Instants (c c' : Control) : Prop :=
  ∃ new,c'.history=c.history++new ∧ ∀ before e after,new=before++e::after →
    ∃ ids,replay (c.history++before++[e])=some ids ∧
      e.concurrentRequestIds=allocatedWithin c ids e.requestId

/-- A critical section so far: a part of its table, with the same allocations. -/
structure Pruned (c u : Control) : Prop extends Faithful u where
  /-- Entries were only removed. -/
  table : u.active=c.active.filter fun entry => entry.1∈keys u
  /-- No allocation ended. -/
  flags : ∀ o,(u.object o).allocating=(c.object o).allocating
  /-- The events so far. -/
  instants : Instants c u

section Instants

variable {c u v : Control}

/-- Entries have their ids in the key set. -/
theorem mem_keys {entry : String×ℕ} (h : entry∈c.active) : entry.1∈keys c :=
  List.mem_toFinset.mpr (List.mem_map_of_mem h)

/-- An inserted entry that is filtered out leaves no trace. -/
theorem filter_insertEntry {entry : String×ℕ} {active : List (String×ℕ)}
    (test : String×ℕ → Bool) (h : test entry=false) :
    (insertEntry entry active).filter test=active.filter test := by
  unfold insertEntry
  induction active with
  | nil => simp [h]
  | cons head tail ih =>
    rw [List.orderedInsert_cons]
    split
    · rw [List.filter_cons_of_neg (by simp [h])]
    · rw [List.filter_cons,List.filter_cons,ih]

/-- A critical section begins with nothing removed. -/
theorem Pruned.refl (h : Faithful c) : Pruned c c where
  toFaithful := h
  table := (List.filter_eq_self.mpr fun entry hm => by simpa using mem_keys hm).symm
  flags := fun _ => rfl
  instants := ⟨[],(List.append_nil _).symm,fun before e after h => absurd h (by simp)⟩

/-- What records nothing adds no instants. -/
theorem Instants.silent (h : Instants c u) (hhistory : v.history=u.history) : Instants c v := by
  obtain ⟨new,hnew,hevents⟩ := h
  exact ⟨new,hhistory.trans hnew,hevents⟩

/-- One more record, of a table that differs only in the recorded id. -/
theorem Pruned.record (h : Pruned c u) {kind : LifecycleKind} {id reason : String}
    (hhistory : v.history=u.history) (hon : v.config.requestObservations=true)
    (hothers : allocatedOthers v id=allocatedOthers u id)
    (hkeys : ∀ x,x≠id → (x∈keys v ↔ x∈keys u))
    (hreplay : replay (v.recordLifecycle kind id reason).history=some (keys v)) :
    Instants c (v.recordLifecycle kind id reason) := by
  obtain ⟨new,hnew,hevents⟩ := h.instants
  have hrecord : (v.recordLifecycle kind id reason).history=
      c.history++(new++[eventOf v kind id reason]) := by
    rw [recordLifecycle_history kind id reason hon,hhistory,hnew,List.append_assoc]
  refine ⟨new++[eventOf v kind id reason],hrecord,fun before e after hsplit => ?_⟩
  rcases List.eq_nil_or_concat after with rfl|⟨after',last,rfl⟩
  · obtain ⟨rfl,he⟩ := List.append_inj' hsplit rfl
    cases he
    refine ⟨keys v,?_,?_⟩
    · rw [←hreplay,hrecord,List.append_assoc]
    · have hlisted : (eventOf v kind id reason).concurrentRequestIds=allocatedOthers u id :=
        hothers
      rw [hlisted]
      unfold allocatedOthers allocatedWithin
      rw [h.table,List.filter_filter]
      congr 1
      refine List.filter_congr fun entry hm => ?_
      simp only [h.flags,eventOf]
      by_cases hid : entry.1=id
      · simp [hid]
      · simp [hid,hkeys entry.1 hid]
  · have hshort : new++[eventOf v kind id reason]=(before++e::after')++[last] := by
      rw [hsplit]
      simp
    exact hevents before e after' (List.append_inj' hshort rfl).1

/-- Retiring an entry lists the others at that instant. -/
theorem Pruned.retire (h : Pruned c u) (hsame : SameLog u v) {id : String} {o : ℕ}
    (reason : String) (hentry : (id,o)∈u.active)
    (hflags : ∀ entry∈u.active,entry.1≠id →
      (v.object entry.2).allocating=(u.object entry.2).allocating) :
    Instants c (v.retire id o reason) := by
  have hfaithful := h.toFaithful.recorded
    (recorded_retire h.toLogged h.observed hsame reason hentry)
  have hactive : (v.retire id o reason).active=(v.erase id o reason).active := by
    rw [Control.retire,recordLifecycle_active]
  have hreplay := hfaithful.replayed
  rw [keys,hactive] at hreplay
  refine h.record (v := v.erase id o reason) ?_ ?_ ?_ ?_ hreplay
  · rw [Control.erase_history,hsame.history]
  · rw [Control.erase_config,hsame.config]
    exact h.observed
  · unfold allocatedOthers
    simp only [Control.erase_active,Control.erase_object,hsame.active,List.filter_filter]
    congr 1
    refine List.filter_congr fun entry hm => ?_
    by_cases hid : entry.1=id
    · simp [hid]
    · simp [hid,hflags entry hm hid]
  · intro x hx
    simp only [keys,Control.erase_active,hsame.active,List.mem_toFinset,List.mem_map,
      List.mem_filter,decide_eq_true_eq]
    constructor
    · rintro ⟨entry,⟨hm,-⟩,rfl⟩
      exact ⟨entry,hm,rfl⟩
    · rintro ⟨entry,hm,rfl⟩
      exact ⟨entry,⟨hm,hx⟩,rfl⟩

/-- Admitting an id lists the others at that instant. -/
theorem Pruned.admitted (h : Pruned c u) (r : ActiveRequest) (hnew : u.find r.id=none)
    (hfresh : ∀ entry∈u.active,entry.2 < u.objects) :
    Instants c ((u.emplace r).recordLifecycle .admitted r.id "") := by
  have hfaithful := h.toFaithful.recorded (recorded_admitted h.toLogged h.observed r hnew)
  have hreplay := hfaithful.replayed
  rw [keys,recordLifecycle_active] at hreplay
  refine h.record (v := u.emplace r) rfl h.observed ?_ ?_ hreplay
  · unfold allocatedOthers
    simp only [Control.emplace_active,Control.emplace_object]
    rw [filter_insertEntry _ (by simp)]
    congr 1
    refine List.filter_congr fun entry hm => ?_
    rw [Function.update_of_ne (Nat.ne_of_lt (hfresh entry hm))]
  · intro x hx
    simp only [keys,Control.emplace_active,List.mem_toFinset,List.mem_map,mem_insertEntry]
    constructor
    · rintro ⟨entry,rfl|hm,rfl⟩
      · exact absurd rfl hx
      · exact ⟨entry,hm,rfl⟩
    · rintro ⟨entry,hm,rfl⟩
      exact ⟨entry,.inr hm,rfl⟩

/-- A pruning visit keeps to the critical section. -/
theorem Pruned.pruneEntry (h : Pruned c u) (readings : String → ℕ) {entry : String×ℕ}
    (hentry : entry∈u.active) : Pruned c (Control.pruneEntry readings u entry) := by
  have hflags : ∀ o,((u.withObject entry.2 ((u.object entry.2).stop .expired)).object
      o).allocating=(u.object o).allocating := by
    intro o
    by_cases ho : o=entry.2
    · rw [ho,Control.withObject_object,Function.update_self]
      rfl
    · rw [Control.withObject_object,Function.update_of_ne ho]
  unfold Control.pruneEntry
  split
  · dsimp only
    split
    · have hsame : SameLog u (u.withObject entry.2 ((u.object entry.2).stop .expired)) :=
        ⟨rfl,rfl,rfl,rfl,rfl⟩
      refine ⟨h.toFaithful.recorded
        (recorded_retire h.toLogged h.observed hsame "expired" hentry),?_,?_,?_⟩
      · simp only [keys,Control.retire,recordLifecycle_active,Control.erase_active,
          Control.withObject_active]
        nth_rewrite 1 [h.table]
        rw [List.filter_filter]
        refine List.filter_congr fun x hx => ?_
        have hleft : x.1∈((u.active.filter fun other => other.1≠entry.1).map Prod.fst).toFinset ↔
            x.1≠entry.1 ∧ x.1∈keys u := by
          simp only [keys,List.mem_toFinset,List.mem_map,List.mem_filter,decide_eq_true_eq]
          constructor
          · rintro ⟨other,⟨hm,hne⟩,hx⟩
            exact ⟨hx ▸ hne,other,hm,hx⟩
          · rintro ⟨hne,other,hm,hx⟩
            exact ⟨other,⟨hm,hx ▸ hne⟩,hx⟩
        rw [decide_eq_decide.mpr hleft,Bool.decide_and]
      · intro o
        rw [Control.retire,recordLifecycle_object,Control.erase_object,hflags,h.flags]
      · exact h.retire hsame "expired" hentry fun x _ _ => hflags x.2
    · exact ⟨⟨⟨h.total,h.numbered,h.window⟩,h.observed,h.replayed⟩,h.table,
        fun o => (hflags o).trans (h.flags o),h.instants.silent rfl⟩
  · exact h

/-- A pruning pass keeps to the critical section. -/
theorem Pruned.pruneExpired (h : Faithful c) (hkeys : (c.active.map Prod.fst).Nodup)
    (readings : String → ℕ) : Pruned c (c.pruneExpired readings) := by
  have hfold : ∀ (entries : List (String×ℕ)) (u : Control),(entries.map Prod.fst).Nodup →
      (∀ entry∈entries,entry∈u.active) → Pruned c u →
      Pruned c (entries.foldl (Control.pruneEntry readings) u) := by
    intro entries
    induction entries with
    | nil => exact fun _ _ _ hu => hu
    | cons entry entries ih =>
      intro u hnodup hentries hu
      rw [List.map_cons,List.nodup_cons] at hnodup
      refine ih _ hnodup.2 ?_ (hu.pruneEntry readings (hentries entry (.head _)))
      intro other hother
      refine mem_pruneEntry readings (hentries other (.tail _ hother)) fun he => ?_
      exact hnodup.1 (he ▸ List.mem_map_of_mem hother)
  exact hfold c.active c hkeys (fun _ hm => hm) (.refl h)

end Instants

/-- Loading writes only what is deployed. -/
theorem load_frame (textDigest : String → String) (c : Control)
    (request : WireMessages.LoadStageRequest)
    (answer : Except Failure (Option StageBackend)) :
    ∃ deployment loaded deployments,(c.load textDigest request answer).1=
      {c with deployment := deployment, loaded := loaded, deployments := deployments} := by
  unfold Control.load
  split
  · split <;> exact ⟨_,_,_,rfl⟩
  · split
    · exact ⟨_,_,_,rfl⟩
    · exact ⟨_,_,_,rfl⟩
    · exact ⟨_,_,_,rfl⟩
    · split <;> exact ⟨_,_,_,rfl⟩

/-- Unloading writes only what is deployed. -/
theorem unload_frame (c : Control) (planId : String) (version : ℕ) :
    ∃ deployment,(c.unload planId version).1={c with deployment := deployment} := by
  unfold Control.unload
  split
  · exact ⟨_,rfl⟩
  · split
    · exact ⟨_,rfl⟩
    · split <;> exact ⟨_,rfl⟩

/-- A claim records nothing. -/
@[simp] theorem claim_history (w : World) (c : Control) (t o : ℕ) :
    (w.claim c t o).history=c.history := by
  unfold World.claim Control.claim
  split
  · rfl
  · rename_i hclaim
    split at hclaim
    · cases hclaim
    · cases hclaim
      rfl

/-- A reserving call records at its instants. -/
theorem reserveCall_instants (h : Faithful w.toControl) (htable : Table w) {t : ℕ}
    {call : ReserveCall} {stage : Option ℕ} {readings : String → ℕ} {now : ℕ}
    (hcall : w.reserveCall t call stage readings now=some w') :
    Instants w.toControl w'.toControl := by
  have hnone : Instants w.toControl w.toControl := (Pruned.refl h).instants
  have hpruned := Pruned.pruneExpired h htable.keys readings
  unfold World.reserveCall at hcall
  split at hcall
  · split at hcall
    · cases hcall
      exact hnone
    · rename_i d hmatching
      split at hcall
      · cases hcall
        exact hnone
      · rcases reserve_cases w.toControl d call.requestId call.tokens call.prefillChunkTokens
            call.deadlineMs readings now with
          ⟨error,hr⟩|⟨o,hfind,hallocating,hr|⟨deadline,hrunning,hr⟩⟩|
            ⟨memory,deadline,hfind,hmemory,hr⟩
        · rw [hr] at hcall
          cases hcall
          exact hpruned.instants
        · rw [hr] at hcall
          simp only at hcall
          split at hcall
          · cases hcall
            exact hpruned.instants.silent (by simp)
          · cases hcall
            exact hpruned.instants
        · rw [hr] at hcall
          simp only at hcall
          split at hcall
          · cases hcall
            exact hpruned.instants.silent (by simp)
          · cases hcall
            exact hpruned.instants
        · rw [hr] at hcall
          cases hcall
          have hmoves := pruneExpired_moves htable.keys readings
          have hfresh := (closure_preserves (fun u v hu => hu.move) hmoves htable).fresh
          exact hpruned.admitted (freshRequest _ d call.requestId call.tokens _ deadline memory)
            hfind hfresh
  · cases hcall

/-- A retirement after changes to its own request records at its instant. -/
theorem retire_instants (h : Faithful w.toControl) (htable : Table w) {id : String} {o : ℕ}
    (hentry : (id,o)∈w.active) (r : ActiveRequest) (reason : String) :
    Instants w.toControl ((w.withObject o r).retire id o reason) := by
  have hsame : SameLog w.toControl (w.withObject o r) := ⟨rfl,rfl,rfl,rfl,rfl⟩
  refine (Pruned.refl h).retire hsame reason hentry fun entry hm hne => ?_
  have hother : entry.2≠o := fun ho => hne (by rw [htable.object_unique hm hentry ho])
  rw [Control.withObject_object,Function.update_of_ne hother]

/-- The end of an allocation records at its instant. -/
theorem allocationEnds_instants (h : Faithful w.toControl) (htable : Table w) {t : ℕ}
    {answer : Allocation} {now recheck : ℕ}
    (hends : w.allocationEnds t answer now recheck=some w') :
    Instants w.toControl w'.toControl := by
  have hpruned := Pruned.refl h
  unfold World.allocationEnds at hends
  split at hends
  · rename_i o d claims hthread
    have hentry := (htable.allocatingThread _ _ _ _ hthread).1
    have hfind : w.find (w.object o).id=some o := (htable.find_iff _ _).mpr hentry
    have hfailed : Instants w.toControl (w.retireFound (w.object o).id "allocation-failed") := by
      rw [Control.retireFound,hfind]
      exact hpruned.retire ⟨rfl,rfl,rfl,rfl,rfl⟩ _ hentry fun _ _ _ => rfl
    unfold Control.allocated at hends
    cases answer with
    | null =>
      cases hends
      exact hfailed
    | failed failure =>
      cases hends
      exact hfailed
    | sequence =>
      by_cases hdropped : ((w.object o).cancelled || decide ((w.object o).deadline ≤ now))=true
      · simp only [if_pos hdropped] at hends
        cases hends
        have hfound : (w.finishAllocation o).find (w.object o).id=some o := hfind
        rw [World.goto_toControl,Control.retireFound,hfound]
        exact retire_instants h htable hentry _ _
      · simp only [if_neg hdropped] at hends
        split at hends
        · cases hends
          exact hpruned.instants.silent (by simp)
        · cases hends
          exact hpruned.instants.silent rfl
  · cases hends

/-- A release after changes to its own request records at its instant. -/
theorem release_instants (h : Faithful w.toControl) (htable : Table w) {o : ℕ} (r : ActiveRequest)
    (hid : r.id=(w.object o).id) (outcome : RequestOutcome) (now : ℕ)
    (hentry : ((w.object o).id,o)∈w.active ∨ ∀ entry∈w.active,entry.2≠o) :
    Instants w.toControl ((w.withObject o r).release o outcome now) := by
  have hobject : (w.withObject o r).object o=r := by
    rw [Control.withObject_object,Function.update_self]
  have hfind : (w.withObject o r).find r.id=w.find (w.object o).id := by
    rw [hid]
    rfl
  unfold Control.release
  rw [hobject,hfind]
  rcases hentry with hentry|hgone
  · rw [if_pos ((htable.find_iff _ _).mpr hentry),hid]
    have hretire := retire_instants h htable hentry {r with sequence := false}
      (releaseReason r outcome now)
    rwa [withObject_withObject]
  · have hmissing : w.find (w.object o).id≠some o :=
      fun hf => hgone _ ((htable.find_iff _ _).mp hf) rfl
    rw [if_neg hmissing]
    exact (Pruned.refl h).instants.silent rfl

/-- Every critical section records at its instants. -/
theorem step_instants (h : Faithful w.toControl) (htable : Table w) {a : Action}
    (hone : w.step textDigest a=some w') : Instants w.toControl w'.toControl := by
  have hnone : Instants w.toControl w.toControl := (Pruned.refl h).instants
  have hpruned := fun readings => Pruned.pruneExpired h htable.keys readings
  unfold World.step at hone
  cases a with
  | loadStage request readings answer =>
    cases hone
    obtain ⟨deployment,loaded,deployments,hload⟩ :=
      load_frame textDigest (w.pruneExpired readings) request answer
    exact (hpruned readings).instants.silent (by rw [World.within_toControl,hload])
  | unloadStage planId version readings =>
    cases hone
    obtain ⟨deployment,hunload⟩ := unload_frame (w.pruneExpired readings) planId version
    exact (hpruned readings).instants.silent (by rw [World.within_toControl,hunload])
  | reserveRequest t call readings now => exact reserveCall_instants h htable hone
  | acquire t call stage readings now => exact reserveCall_instants h htable hone
  | allocationEnds t answer now recheck => exact allocationEnds_instants h htable hone
  | cancelRequest planId version id =>
    cases hone
    rw [World.within_toControl]
    unfold Control.cancelRequest
    split
    · exact hnone
    · split
      · exact hnone
      · rename_i o hfind
        dsimp only
        split
        · exact retire_instants h htable (mem_of_find hfind) _ _
        · exact hnone.silent rfl
  | prune readings =>
    cases hone
    exact (hpruned readings).instants
  | complete t now =>
    simp only [World.complete] at hone
    split at hone
    · rename_i d o hthread
      cases hone
      have hleased := (htable.leasedThread _ _ _ hthread).1
      have hrelease := release_instants h htable (w.object o) rfl .completed now (.inl hleased)
      rwa [withObject_self] at hrelease
    · cases hone
  | leave t disconnected now recheck =>
    have hleft : ∀ o,((w.object o).id,o)∈w.active ∨ (∀ entry∈w.active,entry.2≠o) →
        Instants w.toControl ((if disconnected then w.withObject o ((w.object o).stop
          (if (w.object o).deadline ≤ now then .expired else .cancelled))
        else w.toControl).release o .failed recheck) := by
      intro o ho
      cases disconnected with
      | true =>
        have hid : ((w.object o).stop (if (w.object o).deadline ≤ now then .expired
          else .cancelled)).id=(w.object o).id := rfl
        exact release_instants h htable _ hid _ _ ho
      | false =>
        have hrelease := release_instants h htable (w.object o) rfl .failed recheck ho
        rwa [withObject_self] at hrelease
    simp only [World.leave] at hone
    split at hone
    · rename_i d o hthread
      cases hone
      exact hleft o (.inl (htable.leasedThread _ _ _ hthread).1)
    · rename_i d o hthread
      cases hone
      exact hleft o (.inr (htable.gone _ _ _ hthread))
    · cases hone
  | drop t =>
    obtain ⟨-,rfl⟩ := drop_eq hone
    exact hnone.silent rfl
  | watch t disconnected now recheck =>
    simp only [World.watch] at hone
    split at hone
    · split at hone
      · cases hone
        exact hnone.silent rfl
      · cases hone
    · cases hone
  | tick elapsed =>
    cases hone
    exact hnone.silent rfl

section Peak

variable (c : Control)

/-- Recording keeps the peak. -/
@[simp] theorem recordLifecycle_peak (kind : LifecycleKind) (id reason : String) :
    (c.recordLifecycle kind id reason).peakConcurrentRequests=c.peakConcurrentRequests := by
  unfold Control.recordLifecycle
  split <;> rfl

/-- So does retiring. -/
@[simp] theorem retire_peak (id : String) (o : ℕ) (reason : String) :
    (c.retire id o reason).peakConcurrentRequests=c.peakConcurrentRequests := by
  simp [Control.retire]

/-- So does retiring by name. -/
@[simp] theorem retireFound_peak (id reason : String) :
    (c.retireFound id reason).peakConcurrentRequests=c.peakConcurrentRequests := by
  unfold Control.retireFound
  split <;> simp

/-- So does a release. -/
@[simp] theorem release_peak (o : ℕ) (outcome : RequestOutcome) (now : ℕ) :
    (c.release o outcome now).peakConcurrentRequests=c.peakConcurrentRequests := by
  unfold Control.release
  split <;> simp

/-- So does pruning. -/
@[simp] theorem pruneExpired_peak (readings : String → ℕ) :
    (c.pruneExpired readings).peakConcurrentRequests=c.peakConcurrentRequests := by
  have hfold : ∀ (entries : List (String×ℕ)) (c : Control),
      (entries.foldl (Control.pruneEntry readings) c).peakConcurrentRequests=
        c.peakConcurrentRequests := by
    intro entries
    induction entries with
    | nil => exact fun _ => rfl
    | cons entry entries ih =>
      intro c
      rw [List.foldl_cons,ih]
      unfold Control.pruneEntry
      split
      · split <;> simp
      · rfl
  exact hfold c.active c

/-- So does a cancellation. -/
@[simp] theorem cancelRequest_peak (planId : String) (version : ℕ) (id : String) :
    (c.cancelRequest planId version id).1.peakConcurrentRequests=c.peakConcurrentRequests := by
  unfold Control.cancelRequest
  split
  · rfl
  · split
    · rfl
    · split <;> simp

/-- So does a reservation. -/
@[simp] theorem reserve_peak (d : ℕ) (id : String) (tokens chunk : UInt64) (deadlineMs : ℕ)
    (readings : String → ℕ) (now : ℕ) :
    (c.reserve d id tokens chunk deadlineMs readings now).1.peakConcurrentRequests=
      c.peakConcurrentRequests := by
  rcases reserve_cases c d id tokens chunk deadlineMs readings now with
    ⟨error,hr⟩|⟨o,-,-,hr|⟨deadline,-,hr⟩⟩|⟨memory,deadline,-,-,hr⟩
  all_goals
    rw [hr]
    simp

end Peak

/-- Fewer allocated entries count for less. -/
theorem allocatedCount_le {c c' : Control} (hkeys : (c'.active.map Prod.fst).Nodup)
    (hsub : ∀ entry∈c'.active,(c'.object entry.2).allocating=false →
      entry∈c.active ∧ (c.object entry.2).allocating=false) :
    c'.allocatedCount ≤ c.allocatedCount := by
  have hnodup : (c'.active.filter fun entry => !(c'.object entry.2).allocating).Nodup :=
    (List.Nodup.of_map _ hkeys).filter _
  refine (hnodup.subperm fun entry hentry => ?_).length_le
  rw [List.mem_filter] at hentry ⊢
  obtain ⟨hold,hdone⟩ := hsub entry hentry.1 (by simpa using hentry.2)
  exact ⟨hold,by simpa using hdone⟩

/-- The same entries count the same. -/
theorem allocatedCount_congr {c c' : Control} (hactive : c'.active=c.active)
    (hsame : ∀ o,(c'.object o).allocating=(c.object o).allocating) :
    c'.allocatedCount=c.allocatedCount := by
  unfold Control.allocatedCount
  rw [hactive]
  simp only [hsame]

/-- Getting an owner is not an allocation. -/
theorem allocatedCount_own (c : Control) (o : ℕ) : (c.own o).allocatedCount=c.allocatedCount := by
  refine allocatedCount_congr rfl fun x => ?_
  by_cases hx : x=o
  · rw [hx,Control.own,Control.withObject_object,Function.update_self]
  · rw [Control.own,Control.withObject_object,Function.update_of_ne hx]

/-- Claiming keeps the peak and the count. -/
theorem claim_peak (w : World) (c : Control) (t o : ℕ) :
    (w.claim c t o).peakConcurrentRequests=c.peakConcurrentRequests ∧
      (w.claim c t o).toControl.allocatedCount=c.allocatedCount := by
  unfold World.claim Control.claim
  split
  · exact ⟨rfl,rfl⟩
  · rename_i hclaim
    split at hclaim
    · cases hclaim
    · cases hclaim
      exact ⟨rfl,allocatedCount_own c o⟩

/-- The count never exceeds the peak. -/
def Below (w : World) : Prop := w.toControl.allocatedCount ≤ w.peakConcurrentRequests

/-- A move keeps the count below the peak. -/
theorem Below.move (h : Below w) (htable : Table w) (hmove : Move w w') : Below w' := by
  have htable' := htable.move hmove
  have hshrinks : w'.peakConcurrentRequests=w.peakConcurrentRequests →
      (∀ entry∈w'.active,(w'.object entry.2).allocating=false →
        entry∈w.active ∧ (w.object entry.2).allocating=false) → Below w' := by
    intro hpeak hsub
    unfold Below
    rw [hpeak]
    exact (allocatedCount_le htable'.keys hsub).trans h
  have hobject : ∀ {o x : ℕ} {r : ActiveRequest},
      r.allocating=(w.object o).allocating →
      (Function.update w.object o r x).allocating=(w.object x).allocating := by
    intro o x r hr
    by_cases hx : x=o
    · rw [hx,Function.update_self,hr]
    · rw [Function.update_of_ne hx]
  have hretire : ∀ {c : Control} {id : String} {o : ℕ} {reason : String},
      c.active=w.active → (∀ x,x≠o → c.object x=w.object x) → (id,o)∈w.active →
      ∀ entry∈(c.retire id o reason).active,
        ((c.retire id o reason).object entry.2).allocating=false →
        entry∈w.active ∧ (w.object entry.2).allocating=false := by
    intro c id o reason hactive hsame hentry entry hm hdone
    simp only [Control.retire,recordLifecycle_active,recordLifecycle_object,Control.erase_active,
      Control.erase_object,hactive,List.mem_filter,decide_eq_true_eq] at hm hdone
    have hne : entry.2≠o := fun he => hm.2 (by rw [htable.object_unique hm.1 hentry he])
    rw [hsame _ hne] at hdone
    exact ⟨hm.1,hdone⟩
  have hfound : ∀ {c : Control} {o : ℕ} {reason : String},c.active=w.active →
      ((w.object o).id,o)∈w.active →
      c.retireFound (w.object o).id reason=c.retire (w.object o).id o reason := by
    intro c o reason hactive hentry
    have hfind : c.find (w.object o).id=some o := by
      rw [Control.find,hactive]
      exact (htable.find_iff _ _).mpr hentry
    rw [Control.retireFound,hfind]
  have hrelease : ∀ {o : ℕ} (outcome : RequestOutcome) (now : ℕ),((w.object o).id,o)∈w.active →
      ∀ entry∈(w.release o outcome now).active,
        ((w.release o outcome now).object entry.2).allocating=false →
        entry∈w.active ∧ (w.object entry.2).allocating=false := by
    intro o outcome now hentry
    rw [htable.release_eq hentry]
    refine hretire rfl (fun x hx => ?_) hentry
    exact Function.update_of_ne hx _ _
  cases hmove with
  | stopped o cause =>
    refine hshrinks rfl fun entry hm hdone => ⟨hm,?_⟩
    have hsame := hobject (o := o) (x := entry.2) (r := (w.object o).stop cause) rfl
    rw [←hsame]
    exact hdone
  | retired reason hentry hrunning hallocating =>
    exact hshrinks (by simp) (hretire rfl (fun _ _ => rfl) hentry)
  | @shortened o deadline hrunning =>
    refine hshrinks rfl fun entry hm hdone => ⟨hm,?_⟩
    have hsame := hobject (o := o) (x := entry.2)
      (r := {w.object o with deadline := min (w.object o).deadline deadline}) rfl
    rw [←hsame]
    exact hdone
  | admitted hidle hdeployment hfind hmemory =>
    refine hshrinks (by simp) fun entry hm hdone => ?_
    simp only [World.goto_toControl,recordLifecycle_active,recordLifecycle_object,
      Control.emplace_active,Control.emplace_object,mem_insertEntry] at hm hdone
    rcases hm with rfl|hm
    · rw [Function.update_self] at hdone
      cases hdone
    · rw [Function.update_of_ne (Nat.ne_of_lt (htable.fresh entry hm))] at hdone
      exact ⟨hm,hdone⟩
  | allocationFailed hthread =>
    have hentry := (htable.allocatingThread _ _ _ _ hthread).1
    refine hshrinks (by simp) ?_
    rw [World.goto_toControl,hfound rfl hentry]
    exact hretire rfl (fun _ _ => rfl) hentry
  | @allocationDropped t o d claims reason hthread =>
    have hentry := (htable.allocatingThread _ _ _ _ hthread).1
    refine hshrinks (by simp) ?_
    have hactive : (w.finishAllocation o).active=w.active := rfl
    rw [World.goto_toControl,hfound hactive hentry]
    refine hretire hactive (fun x hx => ?_) hentry
    exact Function.update_of_ne hx _ _
  | allocationKept hthread => exact Nat.le_max_right _ _
  | allocationClaimed hthread hrunning =>
    unfold Below
    rw [World.grant_toControl,allocatedCount_own]
    exact Nat.le_max_right _ _
  | claimed hidle hentry hallocating hrunning =>
    unfold Below
    rw [World.grant_toControl,allocatedCount_own]
    exact h
  | completed now hthread =>
    exact hshrinks (by simp) (hrelease _ _ (htable.leasedThread _ _ _ hthread).1)
  | left now hthread =>
    rcases hthread with hleased|hreleased
    · exact hshrinks (by simp) (hrelease _ _ (htable.leasedThread _ _ _ hleased).1)
    · refine hshrinks (by simp) ?_
      rw [World.goto_toControl,htable.release_gone (htable.gone _ _ _ hreleased)]
      exact fun entry hm hdone => ⟨hm,hdone⟩
  | _ => exact hshrinks rfl fun entry hm hdone => ⟨hm,hdone⟩

/-- Reserving calls leave the peak. -/
theorem reserveCall_peak {t : ℕ} {call : ReserveCall} {stage : Option ℕ} {readings : String → ℕ}
    {now : ℕ} (h : w.reserveCall t call stage readings now=some w') :
    w'.peakConcurrentRequests=w.peakConcurrentRequests := by
  unfold World.reserveCall at h
  split at h
  · split at h
    · cases h
      rfl
    · rename_i d hmatching
      split at h
      · cases h
        rfl
      · have hpeak := reserve_peak w.toControl d call.requestId call.tokens
          call.prefillChunkTokens call.deadlineMs readings now
        generalize w.reserve d call.requestId call.tokens call.prefillChunkTokens
          call.deadlineMs readings now=answer at h hpeak
        split at h
        · cases h
          exact hpeak
        · cases h
          exact hpeak
        · split at h
          · cases h
            rw [(claim_peak _ _ _ _).1]
            exact hpeak
          · cases h
            exact hpeak
  · cases h

/-- A finished allocation leaves the peak or raises it to the count. -/
theorem allocationEnds_peak {t : ℕ} {answer : Allocation} {now recheck : ℕ}
    (h : w.allocationEnds t answer now recheck=some w') :
    w'.peakConcurrentRequests=w.peakConcurrentRequests ∨
      w'.peakConcurrentRequests=max w.peakConcurrentRequests w'.toControl.allocatedCount := by
  unfold World.allocationEnds at h
  split at h
  · rename_i o d claims hthread
    unfold Control.allocated at h
    cases answer with
    | null =>
      cases h
      exact .inl (by simp)
    | failed failure =>
      cases h
      exact .inl (by simp)
    | sequence =>
      by_cases hdropped : ((w.object o).cancelled || decide ((w.object o).deadline ≤ now))=true
      · simp only [if_pos hdropped] at h
        cases h
        exact .inl (by simp)
      · simp only [if_neg hdropped] at h
        refine .inr ?_
        split at h
        · cases h
          obtain ⟨hpeak,hcount⟩ := claim_peak w (w.keepAllocation o) t o
          rw [hpeak,hcount]
          rfl
        · cases h
          rfl
  · cases h

/-- Every step raises the peak to the count of its result and no further. -/
theorem step_peak {a : Action} (hbelow : Below w') (h : w.step textDigest a=some w') :
    w'.peakConcurrentRequests=max w.peakConcurrentRequests w'.toControl.allocatedCount := by
  have hcases : w'.peakConcurrentRequests=w.peakConcurrentRequests ∨
      w'.peakConcurrentRequests=max w.peakConcurrentRequests w'.toControl.allocatedCount := by
    unfold World.step at h
    cases a with
    | loadStage request readings answer =>
      cases h
      obtain ⟨deployment,loaded,deployments,hload⟩ :=
        load_frame textDigest (w.pruneExpired readings) request answer
      exact .inl (by rw [World.within_toControl,hload,pruneExpired_peak])
    | unloadStage planId version readings =>
      cases h
      obtain ⟨deployment,hunload⟩ := unload_frame (w.pruneExpired readings) planId version
      exact .inl (by rw [World.within_toControl,hunload,pruneExpired_peak])
    | reserveRequest t call readings now => exact .inl (reserveCall_peak h)
    | acquire t call stage readings now => exact .inl (reserveCall_peak h)
    | allocationEnds t answer now recheck => exact allocationEnds_peak h
    | cancelRequest planId version id =>
      cases h
      exact .inl (by simp)
    | prune readings =>
      cases h
      exact .inl (by simp)
    | complete t now =>
      simp only [World.complete] at h
      split at h
      · cases h
        exact .inl (by simp)
      · cases h
    | leave t disconnected now recheck =>
      simp only [World.leave] at h
      split at h
      · cases h
        refine .inl ?_
        rw [World.goto_toControl,release_peak]
        split <;> rfl
      · cases h
        refine .inl ?_
        rw [World.goto_toControl,release_peak]
        split <;> rfl
      · cases h
    | drop t =>
      obtain ⟨-,rfl⟩ := drop_eq h
      exact .inl rfl
    | watch t disconnected now recheck =>
      simp only [World.watch] at h
      split at h
      · split at h
        · cases h
          exact .inl rfl
        · cases h
      · cases h
    | tick elapsed =>
      cases h
      exact .inl rfl
  unfold Below at hbelow
  omega

/-- A step keeps the count below the peak. -/
theorem Below.step {a : Action} (h : Below w) (htable : Table w)
    (hone : w.step textDigest a=some w') : Table w' ∧ Below w' := by
  exact closure_preserves (I := fun w => Table w ∧ Below w)
    (fun u v hu huv => ⟨hu.1.move huv,hu.2.move hu.1 huv⟩) (htable.step hone) ⟨htable,h⟩

/-- The peak is the largest count over the states of a run. -/
theorem run_peak {start : World} (hstart : (machine textDigest).initial start) {as : List Action}
    (h : (machine textDigest).run start as=some w) :
    w.peakConcurrentRequests=
      (((machine textDigest).trace start as).map (·.toControl.allocatedCount)).foldr max 0 := by
  obtain ⟨config,capabilities,blank,empty,hvalid,rfl⟩ := hstart
  have hpeak := (machine textDigest).run_peak (I := fun w => Table w ∧ Below w)
    (f := fun w => w.toControl.allocatedCount) (g := fun w => w.peakConcurrentRequests)
    (fun s a t hs hone => hs.2.step hs.1 hone)
    (fun s a t hs hone => step_peak (hs.2.step hs.1 hone).2 hone)
    ⟨table_start config capabilities blank empty,Nat.le_refl 0⟩ (Nat.le_refl 0) h
  simpa [World.start] using hpeak

/-- Events of a kind for an id. -/
def recorded (kind : LifecycleKind) (id : String) (events : List LifecycleEvent) : ℕ :=
  events.countP fun e => e.kind=kind && e.requestId=id

/-- A history that replays has begun with one that does. -/
theorem replay_before {before after : List LifecycleEvent} {ids : Finset String}
    (h : replay (before++after)=some ids) : ∃ ids',replay before=some ids' := by
  rw [replay,List.foldl_append] at h
  cases hbefore : replay before with
  | some ids' => exact ⟨ids',rfl⟩
  | none =>
    rw [replay] at hbefore
    rw [hbefore] at h
    have hstuck : after.foldl replayEvent none=none := by
      clear h hbefore
      induction after with
      | nil => rfl
      | cons e after ih => exact ih
    rw [hstuck] at h
    cases h

/-- In a history that replays, an id was retired as often as it was admitted,
less one while it is in the table. -/
theorem replay_counts {events : List LifecycleEvent} {ids : Finset String}
    (h : replay events=some ids) (id : String) :
    recorded .admitted id events=recorded .retired id events+if id∈ids then 1 else 0 := by
  induction events using List.reverseRecOn generalizing ids with
  | nil =>
    cases h
    rfl
  | append_singleton events e ih =>
    obtain ⟨known,hknown⟩ := replay_before h
    have hcount := ih hknown
    have hlast : replayEvent (some known) e=some ids := by
      rw [←hknown]
      rw [replay,List.foldl_append] at h
      exact h
    simp only [recorded,List.countP_append,List.countP_singleton] at hcount ⊢
    simp only [replayEvent,Option.bind_some] at hlast
    cases hkind : e.kind with
    | admitted =>
      rw [hkind] at hlast
      simp only at hlast
      split at hlast
      · cases hlast
      · rename_i hnew
        cases hlast
        by_cases hid : e.requestId=id
        · subst hid
          simp [hnew] at hcount ⊢
          omega
        · have hne : ¬id=e.requestId := fun he => hid he.symm
          simp only [Finset.mem_insert,hne,false_or]
          simpa [hid] using hcount
    | retired =>
      rw [hkind] at hlast
      simp only at hlast
      split at hlast
      · rename_i hold
        cases hlast
        by_cases hid : e.requestId=id
        · subst hid
          simp [hold] at hcount ⊢
          omega
        · have hne : ¬id=e.requestId := fun he => hid he.symm
          simp only [Finset.mem_erase,ne_eq,hne,not_false_eq_true,true_and]
          simpa [hid] using hcount
      · cases hlast

/-- The lifecycle log of every run with observations: its numbers, its replay
to the table, its counts in every beginning, its window, the peak over the
states of the run, and what the next critical section records. -/
theorem lifecycle_log_faithful {start : World} (hstart : (machine textDigest).initial start)
    (hon : start.config.requestObservations=true) {as : List Action}
    (h : (machine textDigest).run start as=some w) :
    w.history.map (·.sequence)=List.range' 1 w.history.length ∧
    replay w.history=some (keys w.toControl) ∧
    (∀ id,recorded .admitted id w.history=
      recorded .retired id w.history+if id∈keys w.toControl then 1 else 0) ∧
    (∀ before after id,w.history=before++after →
      recorded .retired id before ≤ recorded .admitted id before ∧
      recorded .admitted id before ≤ recorded .retired id before+1) ∧
    w.lifecycleTotal=w.history.length ∧
    w.lifecycle=w.history.drop (w.history.length-min 256 w.lifecycleTotal) ∧
    w.peakConcurrentRequests=
      (((machine textDigest).trace start as).map (·.toControl.allocatedCount)).foldr max 0 ∧
    ∀ a w',(machine textDigest).step w a=some w' → Instants w.toControl w'.toControl := by
  have hpeak := run_peak hstart h
  obtain ⟨config,capabilities,blank,empty,hvalid,rfl⟩ := hstart
  obtain ⟨htable,hfaithful⟩ : Table w ∧ Faithful w.toControl :=
    (Machine.path_of_run h).preserves (I := fun w => Table w ∧ Faithful w.toControl)
      (fun s a t _ hs hone => hs.2.step hs.1 hone)
      ⟨table_start config capabilities blank empty,
        faithful_start config capabilities blank empty hon⟩
  refine ⟨hfaithful.numbered,hfaithful.replayed,replay_counts hfaithful.replayed,?_,
    hfaithful.total,?_,hpeak,fun a w' hone => step_instants hfaithful htable hone⟩
  · intro before after id hsplit
    have hreplayed := hfaithful.replayed
    rw [hsplit] at hreplayed
    obtain ⟨ids,hids⟩ := replay_before hreplayed
    have hcount := replay_counts hids id
    split at hcount <;> omega
  · have hwindow := hfaithful.window
    rw [hfaithful.total]
    have hsame : w.history.length-min 256 w.history.length=
        w.history.length-kLifecycleHistory := by
      have hlimit : kLifecycleHistory=256 := by rw [kLifecycleHistory]
      omega
    rw [hsame]
    exact hwindow

/-- Execute one request while another one is reserved, then complete it. -/
def overlapRun : List Action := [
  .loadStage (ControlReservations.sampleLoad "a") (fun _ => 0)
    (.ok (some ControlReservations.sampleBackend)),
  .acquire 0 (ControlReservations.sampleCall "a") 0 (fun _ => 0) 0,
  .allocationEnds 0 .sequence 0 0,
  .reserveRequest 1 {ControlReservations.sampleCall "a" with requestId := "other"} (fun _ => 1) 1,
  .allocationEnds 1 .sequence 1 1,.complete 0 2]

/-- The log of the overlapping requests. -/
theorem lifecycle_log_of_overlap :
    ∃ w,(machine id).run ControlReservations.sampleStart overlapRun=some w ∧
      w.history.map (fun e => (e.requestId,e.concurrentRequestIds))=
        [("request",[]),("other",["request"]),("request",["other"])] ∧
      w.lifecycle.length=3 ∧ w.peakConcurrentRequests=2 ∧
      replay w.history=some (keys w.toControl) ∧
      (∀ a w',(machine id).step w a=some w' → Instants w.toControl w'.toControl) := by
  obtain ⟨w,hrun,hevents,hpeak⟩ : ∃ w,
      (machine id).run ControlReservations.sampleStart overlapRun=some w ∧
      w.history.map (fun e => (e.requestId,e.concurrentRequestIds))=
        [("request",[]),("other",["request"]),("request",["other"])] ∧
      w.peakConcurrentRequests=2 := ⟨_,rfl,by decide,by decide⟩
  have hon : ControlReservations.sampleStart.config.requestObservations=true := rfl
  obtain ⟨-,hreplay,-,-,htotal,hwindow,-,hsteps⟩ :=
    lifecycle_log_faithful (ControlReservations.sampleStart_initial id) hon hrun
  have hlength : w.history.length=3 := by
    have hcount := congrArg List.length hevents
    rw [List.length_map] at hcount
    exact hcount
  refine ⟨w,hrun,hevents,?_,hpeak,hreplay,hsteps⟩
  rw [hwindow,List.length_drop,htotal,hlength]
  decide

end Hllm.ControlHistory
