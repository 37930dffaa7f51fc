import Hllm.LockstepRuns

/-!
# What becomes of a request

Every request object of a worker is in its table or was retired, and only once.
A handler that has returned, with whatever status and whatever happened in
between, has let go of its request: it has left the table for good and was
retired once, as completed if the handler returned `OK`.
-/

namespace Hllm.RequestAccounts

open RunInvariants ControlModel ControlTransitions ControlTable ControlRetirement HandlerSites
open GenerationModel GenerationEvents GenerationPipeline LockstepRuns SamplingModel

section Conservation

variable {w w' : World} {textDigest : String → String}

/-- Every request object is in the table or was retired, and only once. -/
def Conserved (c : Control) : Prop :=
  (c.active.map Prod.snd++c.retired.map Prod.fst).Perm (List.range c.objects)

/-- Changes that move no request. -/
theorem Conserved.same {c c' : Control} (h : Conserved c) (hactive : c'.active=c.active)
    (hretired : c'.retired=c.retired) (hobjects : c'.objects=c.objects) : Conserved c' := by
  unfold Conserved
  rw [hactive,hretired,hobjects]
  exact h

/-- A retirement moves a request out of the table. -/
theorem Conserved.retire {c : Control} (h : Conserved c) (hkeys : (c.active.map Prod.fst).Nodup)
    {id : String} {o : ℕ} (reason : String) (hentry : (id,o)∈c.active) :
    Conserved (c.retire id o reason) := by
  have hactive : c.active.Perm ((id,o)::c.active.filter fun entry => entry.1≠id) := by
    have herase := List.perm_cons_erase hentry
    have hfilter : c.active.erase (id,o)=c.active.filter fun entry => entry.1≠id := by
      rw [(List.Nodup.of_map _ hkeys).erase_eq_filter]
      refine List.filter_congr fun entry hmem => ?_
      rw [Bool.eq_iff_iff,bne_iff_ne,decide_eq_true_iff]
      refine ⟨fun hne hid => hne ?_,fun hne heq => hne (congrArg Prod.fst heq)⟩
      exact List.inj_on_of_nodup_map hkeys hmem hentry hid
    rw [hfilter] at herase
    exact herase
  have hmoved : ((c.active.filter fun entry => entry.1≠id).map Prod.snd++
      (c.retired.map Prod.fst++[o])).Perm (c.active.map Prod.snd++c.retired.map Prod.fst) := by
    refine List.Perm.trans ?_ ((hactive.map Prod.snd).append_right _).symm
    rw [List.map_cons,←List.append_assoc]
    exact List.perm_append_singleton _ _
  unfold Conserved
  rw [retire_retired,ControlReservations.retire_objects,Control.retire,recordLifecycle_active,
    Control.erase_active,
    List.map_append,List.map_singleton]
  exact hmoved.trans h

/-- Every move of a worker conserves its requests. -/
theorem Conserved.move (h : Conserved w.toControl) (htable : Table w) (hmove : Move w w') :
    Conserved w'.toControl := by
  have hown : ∀ {o : ℕ} {r : ActiveRequest} (reason : String),((w.object o).id,o)∈w.active →
      Conserved ((w.withObject o r).retire (w.object o).id o reason) := by
    intro o r reason hentry
    have hsame : Conserved (w.withObject o r) := h.same rfl rfl rfl
    exact hsame.retire htable.keys reason hentry
  cases hmove with
  | retired reason hentry => exact h.retire htable.keys reason hentry
  | @admitted t d id tokens queryTokens deadline memory claims =>
    unfold Conserved
    rw [World.goto_toControl,recordLifecycle_active,recordLifecycle_retired,
      recordLifecycle_objects,Control.emplace_active,Control.emplace_retired,
      Control.emplace_objects]
    have hinsert := (List.perm_orderedInsert (fun a b : String×ℕ => a.1 ≤ b.1)
      ((freshRequest w.toControl d id tokens queryTokens deadline memory).id,w.objects)
      w.active).map Prod.snd
    rw [List.range_succ]
    refine (hinsert.append_right _).trans ?_
    rw [List.map_cons,List.cons_append]
    exact (h.cons w.objects).trans (List.perm_append_singleton _ _).symm
  | allocationFailed hthread =>
    have hentry := (htable.allocatingThread _ _ _ _ hthread).1
    rw [World.goto_toControl,Control.retireFound,(htable.find_iff _ _).mpr hentry]
    exact h.retire htable.keys _ hentry
  | @allocationDropped t o d claims reason hthread =>
    have hentry := (htable.allocatingThread _ _ _ _ hthread).1
    have hfind : (w.finishAllocation o).find (w.object o).id=some o :=
      (htable.find_iff _ _).mpr hentry
    rw [World.goto_toControl,Control.retireFound,hfind]
    exact hown _ hentry
  | completed now hthread =>
    have hentry := (htable.leasedThread _ _ _ hthread).1
    rw [World.goto_toControl,htable.release_eq hentry]
    exact hown _ hentry
  | left now hthread =>
    rcases hthread with hleased|hreleased
    · have hentry := (htable.leasedThread _ _ _ hleased).1
      rw [World.goto_toControl,htable.release_eq hentry]
      exact hown _ hentry
    · rw [World.goto_toControl,htable.release_gone (htable.gone _ _ _ hreleased)]
      exact h
  | _ => exact h.same rfl rfl rfl

/-- Requests are conserved in every reachable state. -/
theorem conserved_reachable (h : (machine textDigest).Reachable w) : Conserved w.toControl := by
  have hboth : Table w ∧ Conserved w.toControl := by
    refine Machine.Reachable.induct_moves (I:=fun w => Table w ∧ Conserved w.toControl) ?_
      (fun s a t hs hone => hs.1.step hone)
      (fun s t hs hmove => ⟨hs.1.move hmove,hs.2.move hs.1 hmove⟩) h
    rintro s ⟨config,capabilities,blank,empty,-,rfl⟩
    exact ⟨table_start config capabilities blank empty,.refl _⟩
  exact hboth.2

/-- A retired request is out of the table, and there is one reason. -/
theorem Conserved.retired_once {c : Control} (h : Conserved c) {o : ℕ} {reason : String}
    (hretired : (o,reason)∈c.retired) : (∀ entry∈c.active,entry.2≠o) ∧
      ∀ reason',(o,reason')∈c.retired → reason'=reason := by
  have hnodup : (c.active.map Prod.snd++c.retired.map Prod.fst).Nodup :=
    h.nodup_iff.mpr List.nodup_range
  obtain ⟨-,honce,hapart⟩ := List.nodup_append.mp hnodup
  constructor
  · intro entry hentry heq
    exact hapart entry.2 (List.mem_map_of_mem hentry) o (List.mem_map_of_mem hretired) heq
  · intro reason' hother
    exact congrArg Prod.snd (List.inj_on_of_nodup_map honce hother hretired rfl)

end Conservation

section Handlers

variable {D H : Type} {handler : Handler D H} {textDigest : String → String}
variable {sizes : ℕ → BackendSizes} {t : ℕ} {before holds commits done succeeded : H → Prop}
variable {s s' : Site H}

/-- How a handler returns: where it never acquired its request, or when its
guard is destroyed. -/
structure Returns (handler : Handler D H) (before commits done succeeded : H → Prop) : Prop where
  /-- It does not go on. -/
  stuck : ∀ {h reply},done h → handler.resume h reply=none
  back : ∀ {h reply h'},handler.resume h reply=some h' → done h' →
    before h ∨ ∃ expired cancelled,reply=.left expired cancelled
  /-- With its request it does not return at once. -/
  acquired : ∀ {h lease h'},handler.resume h (.acquired lease)=some h' → ¬done h' ∧ ¬succeeded h'
  left : ∀ {h expired cancelled h'},handler.resume h (.left expired cancelled)=some h' → done h'
  /-- It succeeds only after it has released its request as completed. -/
  succeeds : ∀ {h reply h'},handler.resume h reply=some h' → succeeded h' →
    succeeded h ∨ commits h

/-- A thread holds its lease on a request that was retired, as completed while
it writes its last messages, for any reason once its guard released it. -/
def HoldsRetired (t : ℕ) (w : World) (d : Option ℕ) (o : ℕ) : Prop :=
  (w.thread t=.released d o ∧ (o,"completed")∈w.retired) ∨
    (w.thread t=.dropping d o ∧ ∃ reason,(o,reason)∈w.retired)

/-- A step of another thread leaves the lease where it is. -/
theorem HoldsRetired.stable {w w' : World} {d : Option ℕ} {o : ℕ} (h : HoldsRetired t w d o)
    (hthread : w'.thread t=w.thread t) (hstable : Stable w w') : HoldsRetired t w' d o := by
  rcases h with ⟨hreleased,hretired⟩|⟨hdropping,reason,hretired⟩
  · exact .inl ⟨hthread.trans hreleased,hstable.retired _ hretired⟩
  · exact .inr ⟨hthread.trans hdropping,reason,hstable.retired _ hretired⟩

variable (t done succeeded) in
/-- What a handler with a lease still has to do with its request. -/
structure Engaged (s : Site H) : Prop where
  /-- It executes the request, or has released it and holds its lease. -/
  going : ∀ o lease,s.grant=some (o,lease) → ¬done s.handler →
    ∃ d,s.world.thread t=.leased d o ∨ HoldsRetired t s.world d o
  /-- It has let go of the request. -/
  gone : ∀ o lease,s.grant=some (o,lease) → done s.handler →
    s.world.thread t=.ended ∧ ∃ reason,(o,reason)∈s.world.retired
  succeeded : ∀ o lease,s.grant=some (o,lease) → succeeded s.handler →
    (o,"completed")∈s.world.retired

/-- A step of the service on another thread changes nothing for the handler. -/
theorem Engaged.serve (h : Engaged t done succeeded s) {w : World} (hstable : Stable s.world w)
    (hthread : w.thread t=s.world.thread t) :
    Engaged t done succeeded { s with world := w } := by
  refine ⟨fun o lease hgrant hgoing => ?_,fun o lease hgrant hdone => ?_,
    fun o lease hgrant hsuccess => hstable.retired _ (h.succeeded o lease hgrant hsuccess)⟩
  · obtain ⟨d,hleased⟩ := h.going o lease hgrant hgoing
    refine ⟨d,?_⟩
    dsimp only
    rw [hthread]
    exact hleased.imp_right fun hholds => hholds.stable hthread hstable
  · obtain ⟨hended,reason,hretired⟩ := h.gone o lease hgrant hdone
    exact ⟨hthread.trans hended,reason,hstable.retired _ hretired⟩

/-- A release retires a request that is in the table. -/
theorem release_retires {c : Control} {o : ℕ} (hfind : c.find (c.object o).id=some o)
    (outcome : RequestOutcome) (now : ℕ) :
    ∃ reason,(o,reason)∈(c.release o outcome now).retired := by
  rw [Control.release,if_pos hfind,retire_retired]
  exact ⟨_,List.mem_append_right _ (List.mem_singleton.mpr rfl)⟩

/-- A handler whose guard has released the request still holds the lease. -/
theorem leave_lets_go {w w' : World} (htable : Table w) {o : ℕ} {d : Option ℕ}
    {disconnected : Bool} {now recheck : ℕ}
    (hthread : w.thread t=.leased d o ∨ HoldsRetired t w d o)
    (hone : w.leave t disconnected now recheck=some w') (hstable : Stable w w') :
    HoldsRetired t w' d o := by
  rcases hthread with hleased|⟨hreleased,hretired⟩|⟨hdropping,-⟩
  · have hfind := (htable.find_iff _ o).mpr (htable.leasedThread t d o hleased).1
    unfold World.leave at hone
    rw [hleased] at hone
    cases hone
    refine .inr ⟨by rw [World.goto_thread,Function.update_self],?_⟩
    rw [World.goto_toControl]
    refine release_retires ?_ _ _
    split
    · rw [Control.withObject_object,Function.update_self]
      exact hfind
    · exact hfind
  · unfold World.leave at hone
    rw [hreleased] at hone
    cases hone
    exact .inr ⟨by rw [World.goto_thread,Function.update_self],"completed",
      hstable.retired _ hretired⟩
  · unfold World.leave at hone
    rw [hdropping] at hone
    cases hone

/-- A handler that gave its lease back has let go of its request. -/
theorem drop_lets_go {w w' : World} {o : ℕ} {d : Option ℕ}
    (hthread : w.thread t=.leased d o ∨ HoldsRetired t w d o)
    (hone : w.drop t=some w') (hstable : Stable w w') :
    w'.thread t=.ended ∧ ∃ reason,(o,reason)∈w'.retired := by
  obtain ⟨⟨d',o',hdropping⟩,rfl⟩ := drop_eq hone
  refine ⟨by rw [World.goto_thread,Function.update_self],?_⟩
  rcases hthread with hleased|⟨hreleased,-⟩|⟨-,reason,hretired⟩
  · rw [hdropping] at hleased
    cases hleased
  · rw [hdropping] at hreleased
    cases hreleased
  · exact ⟨reason,hstable.retired _ hretired⟩

/-- An allocation ends on a thread that is allocating. -/
theorem allocation_thread {w w' : World} {answer : Allocation} {now recheck : ℕ}
    (hone : w.step textDigest (.allocationEnds t answer now recheck)=some w') :
    ∃ o d claims,w.thread t=.allocating o d claims := by
  rw [World.step,World.allocationEnds] at hone
  split at hone
  · rename_i o d claims hallocating
    exact ⟨o,d,claims,hallocating⟩
  · cases hone

/-- Every step keeps a handler engaged. -/
theorem Engaged.transition (h : Engaged t done succeeded s)
    (hsound : Sound handler textDigest t before holds commits s)
    (hlawful : Lawful handler before holds commits)
    (hreturns : Returns handler before commits done succeeded)
    (hone : Transition handler textDigest sizes t s s') : Engaged t done succeeded s' := by
  have htable := table_reachable hsound.reachable
  have hstable := hsound.stable hone
  have hgoing : ∀ {reply : Reply D} {h' : H},handler.resume s.handler reply=some h' →
      ¬done s.handler := by
    intro reply h' hresume hdone
    rw [hreturns.stuck hdone] at hresume
    cases hresume
  have hdone : ∀ {reply : Reply D} {h' : H},handler.resume s.handler reply=some h' → done h' →
      (∀ expired cancelled,reply≠.left expired cancelled) → s.grant=none := by
    intro reply h' hresume hdone hnot
    rcases hreturns.back hresume hdone with hbefore|⟨expired,cancelled,heq⟩
    · exact hsound.fresh hbefore
    · exact absurd heq (hnot expired cancelled)
  have hsucceeded : ∀ {reply : Reply D} {h' : H} {o : ℕ} {lease : Lease},
      handler.resume s.handler reply=some h' → succeeded h' → s.grant=some (o,lease) →
      (o,"completed")∈s.world.retired := by
    intro reply h' o lease hresume hsuccess hgrant
    rcases hreturns.succeeds hresume hsuccess with hbefore|hcommits
    · exact h.succeeded o lease hgrant hbefore
    · obtain ⟨o',lease',hgrant',hretired⟩ := hsound.committed hcommits
      rw [hgrant'] at hgrant
      cases hgrant
      exact hretired
  have hreply : ∀ {reply : Reply D} {h' : H},handler.resume s.handler reply=some h' →
      owning reply=false → Engaged t done succeeded ⟨s.world,h',s.grant⟩ := by
    intro reply h' hresume howning
    refine ⟨fun o lease hgrant _ => h.going o lease hgrant (hgoing hresume),
      fun o lease hgrant hended => ?_,
      fun o lease hgrant hsuccess => hsucceeded hresume hsuccess hgrant⟩
    have hnone := hdone hresume hended fun expired cancelled heq => by
      rw [heq] at howning
      cases howning
    rw [hnone] at hgrant
    cases hgrant
  cases hone with
  | served hone hmoved => exact h.serve hstable (step_thread hmoved hone)
  | called hcall hone =>
    have hnone := hsound.fresh (hlawful.asks_before hcall)
    refine ⟨fun o lease hgrant _ => ?_,fun o lease hgrant _ => ?_,fun o lease hgrant _ => ?_⟩
    all_goals
      rw [hnone] at hgrant
      cases hgrant
  | allocated hone =>
    obtain ⟨o',d',claims,hallocating⟩ := allocation_thread hone
    refine ⟨fun o lease hgrant hgoing => ?_,fun o lease hgrant hdone => ?_,
      fun o lease hgrant hsuccess => hstable.retired _ (h.succeeded o lease hgrant hsuccess)⟩
    · obtain ⟨d,hleased|⟨hreleased,-⟩|⟨hdropping,-⟩⟩ := h.going o lease hgrant hgoing
      · rw [hallocating] at hleased
        cases hleased
      · rw [hallocating] at hreleased
        cases hreleased
      · rw [hallocating] at hdropping
        cases hdropping
    · have hended := (h.gone o lease hgrant hdone).1
      rw [hallocating] at hended
      cases hended
  | @acquired d o h' hthread hresume =>
    obtain ⟨hnot,hnever⟩ := hreturns.acquired hresume
    refine ⟨fun x lease hgrant _ => ?_,fun x lease hgrant hended => absurd hended hnot,
      fun x lease hgrant hsuccess => absurd hsuccess hnever⟩
    cases hgrant
    exact ⟨some d,.inl hthread⟩
  | refused hthread hresume => exact hreply hresume rfl
  | replied hcall howning hresume => exact hreply hresume howning
  | @released now w h' hone hresume =>
    refine ⟨fun o lease hgrant _ => ?_,fun o lease hgrant hended => ?_,
      fun o lease hgrant hsuccess =>
        hstable.retired _ (hsucceeded hresume hsuccess hgrant)⟩
    · obtain ⟨d,hleased|⟨hreleased,-⟩|⟨hdropping,-⟩⟩ :=
        h.going o lease hgrant (hgoing hresume)
      · refine ⟨d,.inr (.inl ⟨?_,complete_retires htable hleased hone⟩)⟩
        rw [World.step,World.complete,hleased] at hone
        cases hone
        rw [World.goto_thread,Function.update_self]
      · rw [World.step,World.complete,hreleased] at hone
        cases hone
      · rw [World.step,World.complete,hdropping] at hone
        cases hone
    · have hnone := hdone hresume hended fun expired cancelled heq => by cases heq
      rw [hnone] at hgrant
      cases hgrant
  | @leaving disconnected now recheck w h' hleaves hone =>
    refine ⟨fun o lease hgrant hongoing => ?_,
      fun o lease hgrant hended => absurd hended (hgoing hleaves),
      fun o lease hgrant hsuccess => hstable.retired _ (h.succeeded o lease hgrant hsuccess)⟩
    obtain ⟨d,hthread⟩ := h.going o lease hgrant hongoing
    exact ⟨d,.inr (leave_lets_go htable hthread hone hstable)⟩
  | @left expired cancelled w h' hone hresume =>
    refine ⟨fun o lease hgrant hnot => absurd (hreturns.left hresume) hnot,
      fun o lease hgrant _ => ?_,fun o lease hgrant hsuccess =>
        hstable.retired _ (hsucceeded hresume hsuccess hgrant)⟩
    obtain ⟨d,hthread⟩ := h.going o lease hgrant (hgoing hresume)
    exact drop_lets_go hthread hone hstable

/-- What a handler that has returned leaves behind. -/
structure LeavesNothing (t : ℕ) (succeeded : Prop) (s : Site H) : Prop where
  /-- Its thread owns no request. -/
  unowned : owned (s.world.thread t)=none
  /-- The request it acquired has left the table, and was retired for one reason. -/
  retired : ∀ o lease,s.grant=some (o,lease) → s.world.thread t=.ended ∧
    (∀ entry∈s.world.active,entry.2≠o) ∧ ∃ reason,(o,reason)∈s.world.retired ∧
      (∀ reason',(o,reason')∈s.world.retired → reason'=reason) ∧
      (succeeded → reason="completed")

/-- A handler that has returned leaves nothing behind. -/
theorem Engaged.leavesNothing (h : Engaged t done succeeded s)
    (hsound : Sound handler textDigest t before holds commits s)
    (hcalled : handler.acquisition s.handler=none) (hdone : done s.handler) :
    LeavesNothing t (succeeded s.handler) s := by
  refine ⟨?_,fun o lease hgrant => ?_⟩
  · cases hgrant : s.grant with
    | none => exact hsound.unowned hgrant hcalled
    | some grant =>
      rw [(h.gone grant.1 grant.2 hgrant hdone).1]
      rfl
  · obtain ⟨hended,reason,hretired⟩ := h.gone o lease hgrant hdone
    obtain ⟨hgone,hone⟩ := (conserved_reachable hsound.reachable).retired_once hretired
    exact ⟨hended,hgone,reason,hretired,hone,
      fun hsuccess => (hone "completed" (h.succeeded o lease hgrant hsuccess)).symm⟩

/-- A handler that has not acquired its request owes nothing. -/
theorem Engaged.initial {w : World} {h : H} : Engaged t done succeeded ⟨w,h,none⟩ := by
  refine ⟨fun o lease hgrant _ => ?_,fun o lease hgrant _ => ?_,fun o lease hgrant _ => ?_⟩
  all_goals cases hgrant

end Handlers

section Drivers

variable {D F : Type}

/-- The driver has returned. -/
def driverDone : Generate D → Prop
  | .returned _ _ _ => True
  | _ => False

/-- The driver is about to return `OK`, or has returned it. -/
def driverSucceeded : Generate D → Prop
  | .running _ (.leaving (.ok ())) => True
  | .returned _ _ status => status.code=.ok
  | _ => False

/-- A driver that leads on has neither returned nor succeeded. -/
theorem Continues.ongoing {g : Generation D} {h : Generate D} (hg : Continues g h) :
    ¬driverDone h ∧ ¬driverSucceeded h := by
  obtain ⟨g',point,rfl,-,-,-,-,hleaving⟩ := hg
  refine ⟨id,fun hsuccess => ?_⟩
  cases point with
  | leaving result =>
    cases result with
    | ok done => exact hleaving rfl
    | error error => exact hsuccess
  | _ => exact hsuccess

/-- The guard's replies come where it is destroyed. -/
theorem left_drives {g : Generation D} {point : GeneratePoint D} {expired cancelled : Bool}
    {h : Generate D} (hone : Drives g point (.left expired cancelled) h) : driverDone h := by
  cases hone with
  | left => exact trivial
  | failed => exact trivial
  | peerFails hfails => cases hfails
  | disconnects hdisconnects => cases hdisconnects

variable [Double F D]

/-- A driver that has not acquired its request does not succeed in one step. -/
theorem driver_unacquired {h h' : Generate D} {reply : Reply D} (hbefore : driverBefore h)
    (hone : Generate.resume h reply=some h') : ¬driverSucceeded h' := by
  cases h with
  | starting request =>
    cases reply with
    | started now later contextDeadline random =>
      rw [Generate.resume] at hone
      split at hone
      · cases hone
        exact failure_code _ _ _
      · cases hone
        exact id
    | _ => cases hone
  | acquiring request sampling call =>
    cases reply with
    | threw error =>
      cases hone
      exact failure_code _ _ _
    | acquired lease =>
      cases hone
      exact (Continues.ongoing (loops_afterLease request sampling lease).continues).2
    | _ => cases hone
  | running g point => exact hbefore.elim
  | returned request events status => exact hbefore.elim

/-- How `Generate` returns. -/
theorem driver_returns :
    Returns (driver (D:=D)) driverBefore driverCommits driverDone driverSucceeded where
  stuck {h reply} hdone := by
    cases h with
    | returned request events status => rfl
    | _ => exact hdone.elim
  back {h reply h'} hone hdone := by
    by_cases hbefore : driverBefore h
    · exact .inl hbefore
    · obtain ⟨g,point,rfl,hdrives⟩ := driver_after hbefore hone
      rcases drives_cases hdrives with ⟨hcontinues,-⟩|⟨-,-,rfl⟩|⟨-,body,rfl⟩|⟨-,body,rfl⟩|
        ⟨⟨result,rfl⟩,status,rfl,-⟩
      · exact absurd hdone (Continues.ongoing hcontinues).1
      · exact hdone.elim
      · exact hdone.elim
      · exact hdone.elim
      · cases hdrives with
        | left => exact .inr ⟨_,_,rfl⟩
        | failed => exact .inr ⟨_,_,rfl⟩
  acquired {h lease h'} hone := by
    cases h with
    | acquiring request sampling call =>
      cases hone
      exact Continues.ongoing (loops_afterLease request sampling lease).continues
    | _ => cases hone
  left {h expired cancelled h'} hone := by
    cases h with
    | running g point => exact left_drives (drives_of_resume hone)
    | _ => cases hone
  succeeds {h reply h'} hone hsuccess := by
    by_cases hbefore : driverBefore h
    · exact absurd hsuccess (driver_unacquired hbefore hone)
    · obtain ⟨g,point,rfl,hdrives⟩ := driver_after hbefore hone
      rcases drives_cases hdrives with ⟨hcontinues,-⟩|⟨-,-,rfl⟩|⟨-,body,rfl⟩|⟨rfl,body,rfl⟩|
        ⟨-,status,rfl,hleaving⟩
      · exact absurd hsuccess (Continues.ongoing hcontinues).2
      · exact hsuccess.elim
      · exact hsuccess.elim
      · exact .inr trivial
      · rw [hleaving hsuccess]
        exact .inl trivial

end Drivers

section Followers

variable {D F : Type}

/-- The follower has returned. -/
def followerDone : Execute D → Prop
  | .returned _ => True
  | _ => False

/-- The follower is about to return `OK`, or has returned it. -/
def followerSucceeded : Execute D → Prop
  | .running _ (.leaving (.ok ())) => True
  | .returned status => status.code=.ok
  | _ => False

/-- A follower that leads on has neither returned nor succeeded. -/
theorem continues_ongoing {e : Execution D} {h : Execute D} (he : ExecutionSteps.Continues e h) :
    ¬followerDone h ∧ ¬followerSucceeded h := by
  obtain ⟨e',point,rfl,-,-,hleaving,-⟩ := he
  refine ⟨id,fun hsuccess => ?_⟩
  cases point with
  | leaving result =>
    cases result with
    | ok done => exact hleaving rfl
    | error error => exact hsuccess
  | _ => exact hsuccess

/-- The guard's replies come where it is destroyed. -/
theorem left_follows {e : Execution D} {point : ExecutePoint D} {expired cancelled : Bool}
    {h : Execute D} (hone : ExecutionSteps.Follows e point (.left expired cancelled) h) :
    followerDone h := by
  cases hone with
  | left => exact trivial
  | failed => exact trivial
  | loses hloses => cases hloses

variable [Double F D]

/-- A follower that has not acquired its request does not succeed in one step. -/
theorem follower_unacquired {h h' : Execute D} {reply : Reply D} (hbefore : followerBefore h)
    (hone : Execute.resume h reply=some h') : ¬followerSucceeded h' := by
  cases h with
  | starting =>
    cases reply with
    | read message =>
      cases hone
      unfold firstMessage
      split
      · exact id
      · exact failure_code _ _ _
    | _ => cases hone
  | opened opening =>
    cases reply with
    | started now later contextDeadline random =>
      rw [Execute.resume] at hone
      split at hone
      · cases hone
        exact failure_code _ _ _
      · cases hone
        exact id
    | _ => cases hone
  | acquiring opening sampling call =>
    cases reply with
    | threw error =>
      cases hone
      exact failure_code _ _ _
    | acquired lease =>
      cases hone
      exact (continues_ongoing (ExecutionSteps.continues_afterLease opening sampling lease)).2
    | _ => cases hone
  | running e point => exact hbefore.elim
  | returned status => exact hbefore.elim

/-- How `Execute` returns. -/
theorem follower_returns :
    Returns (follower (D:=D)) followerBefore followerCommits followerDone followerSucceeded where
  stuck {h reply} hdone := by
    cases h with
    | returned status => rfl
    | _ => exact hdone.elim
  back {h reply h'} hone hdone := by
    by_cases hbefore : followerBefore h
    · exact .inl hbefore
    · obtain ⟨e,point,rfl,hfollows⟩ := follower_after hbefore hone
      rcases ExecutionSteps.follows_cases hfollows with ⟨hcontinues,-⟩|⟨terminal,-,-,rfl⟩|
        ⟨terminal,-,rfl⟩|⟨⟨result,rfl⟩,status,rfl,-⟩
      · exact absurd hdone (continues_ongoing hcontinues).1
      · exact hdone.elim
      · exact hdone.elim
      · cases hfollows with
        | left => exact .inr ⟨_,_,rfl⟩
        | failed => exact .inr ⟨_,_,rfl⟩
  acquired {h lease h'} hone := by
    cases h with
    | acquiring opening sampling call =>
      cases hone
      exact continues_ongoing (ExecutionSteps.continues_afterLease opening sampling lease)
    | _ => cases hone
  left {h expired cancelled h'} hone := by
    cases h with
    | running e point =>
      change e.resume point (.left expired cancelled)=some h' at hone
      exact left_follows (ExecutionSteps.follows_of_resume hone)
    | _ => cases hone
  succeeds {h reply h'} hone hsuccess := by
    by_cases hbefore : followerBefore h
    · exact absurd hsuccess (follower_unacquired hbefore hone)
    · obtain ⟨e,point,rfl,hfollows⟩ := follower_after hbefore hone
      rcases ExecutionSteps.follows_cases hfollows with ⟨hcontinues,-⟩|⟨terminal,-,-,rfl⟩|
        ⟨terminal,rfl,rfl⟩|⟨-,status,rfl,hleaving⟩
      · exact absurd hsuccess (continues_ongoing hcontinues).2
      · exact hsuccess.elim
      · exact .inr trivial
      · rw [hleaving hsuccess]
        exact .inl trivial

end Followers

section Pipelines

variable {D F : Type} [Double F D] {setting : Setting} {s s' : Pipeline D}

/-- Both handlers of a pipeline with their requests. -/
structure Both (setting : Setting) (s : Pipeline D) : Prop where
  aligned : Aligned setting s
  upstream : Engaged setting.driverThread driverDone driverSucceeded s.upstream
  downstream : Engaged setting.followerThread followerDone followerSucceeded s.downstream

/-- A step of the driver keeps it engaged. -/
theorem Both.drive (h : Both setting s) {a : SiteAction D} {u : Site (Generate D)}
    (hone : s.upstream.step driver setting.textDigest setting.driverSizes setting.driverThread
      a=some u) : Engaged setting.driverThread driverDone driverSucceeded u :=
  h.upstream.transition h.aligned.upstream driver_lawful driver_returns
    (step_transition driver_lawful hone)

/-- A step of the follower keeps it engaged. -/
theorem Both.follow (h : Both setting s) {a : SiteAction D} {d : Site (Execute D)}
    (hone : s.downstream.step follower setting.textDigest setting.followerSizes
      setting.followerThread a=some d) :
    Engaged setting.followerThread followerDone followerSucceeded d :=
  h.downstream.transition h.aligned.downstream follower_lawful follower_returns
    (step_transition follower_lawful hone)

/-- Every step of a pipeline keeps both handlers engaged. -/
theorem Both.step (h : Both setting s) {a : PipelineAction D}
    (hone : s.step setting a=some s') : Both setting s' := by
  have haligned := h.aligned.step hone
  cases a with
  | driver a =>
    obtain ⟨u,hu,-,rfl⟩ := step_driver hone
    exact ⟨haligned,h.drive hu,h.downstream⟩
  | driverReads =>
    obtain ⟨message,rest,u,-,hu,rfl⟩ := step_driverReads hone
    exact ⟨haligned,h.drive hu,h.downstream⟩
  | follower a =>
    obtain ⟨d,hd,-,rfl⟩ := step_follower hone
    exact ⟨haligned,h.upstream,h.follow hd⟩
  | followerReads =>
    obtain ⟨message,rest,d,-,hd,rfl⟩ := step_followerReads hone
    exact ⟨haligned,h.upstream,h.follow hd⟩

/-- Both handlers are engaged in every reachable state. -/
theorem both_reachable (h : (pipeline setting).Reachable s) : Both setting s := by
  refine Machine.Reachable.induct (I:=Both setting) (fun s hinitial => ?_)
    (fun s a s' hs hone => hs.step hone) h
  have haligned := aligned_reachable ⟨s,[],hinitial,.nil s⟩
  obtain ⟨w,w',request,-,-,rfl⟩ := hinitial
  exact ⟨haligned,.initial,.initial⟩

/-- What becomes of the requests of a pipeline. -/
structure Accounted (setting : Setting) (s : Pipeline D) : Prop where
  /-- Each worker has every request it created in its table or retired it once. -/
  conserved : Conserved s.upstream.world.toControl ∧ Conserved s.downstream.world.toControl
  /-- `Generate` leaves nothing behind, whatever its status. -/
  driver : ∀ request events status,s.upstream.handler=.returned request events status →
    LeavesNothing setting.driverThread (status.code=.ok) s.upstream
  /-- `Execute` leaves nothing behind, whatever its status. -/
  follower : ∀ status,s.downstream.handler=.returned status →
    LeavesNothing setting.followerThread (status.code=.ok) s.downstream

/-- In any run of the two workers, wherever calls fail, the stream breaks or the
control services interfere, no request is lost or retired twice, and a handler
that has returned has let go of its request for one reason, which is its
completion if the status is `OK`. -/
theorem requests_accounted (h : (pipeline setting).Reachable s) : Accounted setting s := by
  obtain ⟨haligned,hupstream,hdownstream⟩ := both_reachable h
  refine ⟨⟨conserved_reachable haligned.upstream.reachable,
    conserved_reachable haligned.downstream.reachable⟩,fun request events status hhandler => ?_,
    fun status hhandler => ?_⟩
  · have hleaves := hupstream.leavesNothing haligned.upstream (by rw [hhandler]; rfl)
      (by rw [hhandler]; exact trivial)
    rw [hhandler] at hleaves
    exact hleaves
  · have hleaves := hdownstream.leavesNothing haligned.downstream (by rw [hhandler]; rfl)
      (by rw [hhandler]; exact trivial)
    rw [hhandler] at hleaves
    exact hleaves

/-- Both workers of a split request have retired it as completed. -/
theorem requests_accounted_of_split_request :
    ∃ s,(pipeline splitSetting).run splitPipeline splitRun=some s ∧
      s.upstream.handler=.returned sampleRequest
        (stream sampleRequest [⟨4,none,[]⟩,⟨7,none,[]⟩]) .ok ∧
      s.downstream.handler=.returned .ok ∧ s.upstream.world.retired=[(0,"completed")] ∧
      s.downstream.world.retired=[(0,"completed")] ∧ Accounted splitSetting s := by
  obtain ⟨s,hrun,hupstream,hdownstream,hretired,hretired'⟩ : ∃ s,
      (pipeline splitSetting).run splitPipeline splitRun=some s ∧
      s.upstream.handler=.returned sampleRequest
        (stream sampleRequest [⟨4,none,[]⟩,⟨7,none,[]⟩]) .ok ∧
      s.downstream.handler=.returned .ok ∧ s.upstream.world.retired=[(0,"completed")] ∧
      s.downstream.world.retired=[(0,"completed")] := ⟨_,rfl,rfl,rfl,rfl,rfl⟩
  have hinitial : (pipeline splitSetting).initial splitPipeline :=
    ⟨_,_,_,splitStart_initial "upper",splitStart_initial "lower",rfl⟩
  exact ⟨s,hrun,hupstream,hdownstream,hretired,hretired',
    requests_accounted (Machine.reachable_of_run hinitial hrun)⟩

end Pipelines

end Hllm.RequestAccounts
