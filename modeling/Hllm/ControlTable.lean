import Hllm.ControlTransitions
import Mathlib.Data.List.Perm.Basic
import Mathlib.Algebra.BigOperators.Group.List.Basic

/-!
# The reservation table

Invariants of the table of active requests under every interleaving of the
RPCs, the reaper, allocations and handlers. `reserve` drops the mutex in the
middle of an admission and three paths remove entries, so the invariant
records who may still refer to an entry: the thread that allocates it, or
the handler whose lease made it running.
-/

namespace Hllm.ControlTable

open MemoryAccounting RunInvariants ControlModel ControlTransitions Relation

/-- The request a thread allocates or executes. -/
def owned : Thread → Option ℕ
  | .allocating object _ _ => some object
  | .leased _ object => some object
  | _ => none

/-- Invariants of the table and of the threads that refer to it. -/
structure Table (w : World) : Prop where
  /-- Ids are unique. -/
  keys : (w.active.map Prod.fst).Nodup
  /-- Entries are filed under their own id. -/
  ids : ∀ entry∈w.active,(w.object entry.2).id=entry.1
  /-- Entries refer to objects that were created. -/
  fresh : ∀ entry∈w.active,entry.2 < w.objects
  /-- Every entry was admitted under the deployment that is loaded. -/
  home : ∀ entry∈w.active,w.deployment=some (w.object entry.2).admittedUnder
  /-- The number of reservations is limited. -/
  limit : w.active.length ≤ w.config.maximumActiveRequests
  /-- The reserved tokens are limited if a limit is configured. -/
  tokens : w.config.maximumCachedTokens≠0 →
    tokenTotal w.object w.active ≤ w.config.maximumCachedTokens.toNat
  /-- An allocating thread's request is in the table and marked. -/
  allocatingThread : ∀ t o d claims,w.thread t=.allocating o d claims →
    ((w.object o).id,o)∈w.active ∧ (w.object o).allocating=true ∧
      (w.object o).running=false ∧ w.deployment=some d
  /-- A leased request is in the table, running and allocated. -/
  leasedThread : ∀ t d o,w.thread t=.leased d o →
    ((w.object o).id,o)∈w.active ∧ (w.object o).allocating=false ∧
      (w.object o).running=true ∧ d=w.deployment
  /-- No request is allocated or executed by two threads. -/
  oneOwner : ∀ t t' o,owned (w.thread t)=some o → owned (w.thread t')=some o → t=t'
  /-- A request that is no longer being allocated has its sequence. -/
  ready : ∀ entry∈w.active,(w.object entry.2).allocating=false →
    (w.object entry.2).sequence=true
  /-- Each request object is leased at most once. -/
  grantedOnce : w.granted.Nodup
  /-- Leased objects stay marked as running. -/
  grantedRunning : ∀ o∈w.granted,o < w.objects ∧ (w.object o).running=true
  /-- Leases in handlers' hands were granted. -/
  held : ∀ t d o,w.thread t=.leased d o ∨ w.thread t=.released d o → o∈w.granted
  /-- A released request has left the table. -/
  gone : ∀ t d o,w.thread t=.released d o → ∀ entry∈w.active,entry.2≠o

variable {w w' : World}

/-- A fresh service has an empty table. -/
theorem table_start (config : WorkerConfig) (capabilities : PlanValidation.BackendCapabilities)
    (blank : ActiveRequest) (empty : LoadedDeployment) :
    Table (World.start config capabilities blank empty) := by
  constructor <;> simp [World.start,tokenTotal,owned]

/-- Entries are determined by their id. -/
theorem Table.entry_unique (h : Table w) {a b : String×ℕ} (ha : a∈w.active) (hb : b∈w.active)
    (hid : a.1=b.1) : a=b :=
  List.inj_on_of_nodup_map h.keys ha hb hid

/-- Entries are determined by their object. -/
theorem Table.object_unique (h : Table w) {a b : String×ℕ} (ha : a∈w.active) (hb : b∈w.active)
    (ho : a.2=b.2) : a=b := by
  refine h.entry_unique ha hb ?_
  rw [←h.ids a ha,←h.ids b hb,ho]

/-- The table finds exactly its entries. -/
theorem Table.find_iff (h : Table w) (id : String) (o : ℕ) :
    w.find id=some o ↔ (id,o)∈w.active := by
  constructor
  · exact mem_of_find
  · intro hm
    cases hf : w.find id with
    | none =>
      unfold Control.find at hf
      have hne := List.lookup_eq_none_iff.mp hf (id,o) hm
      simp at hne
    | some o' =>
      have he := h.entry_unique (mem_of_find hf) hm rfl
      rw [(Prod.mk.inj he).2]

/-- An owner's request is marked as allocating or running. -/
theorem Table.owned_marked (h : Table w) {t o : ℕ} (ho : owned (w.thread t)=some o) :
    ((w.object o).id,o)∈w.active ∧
      ((w.object o).allocating=true ∨ (w.object o).running=true) := by
  cases hthread : w.thread t with
  | allocating o' d claims =>
    rw [hthread] at ho
    cases ho
    obtain ⟨hm,ha,-⟩ := h.allocatingThread t o d claims hthread
    exact ⟨hm,.inl ha⟩
  | leased d o' =>
    rw [hthread] at ho
    cases ho
    obtain ⟨hm,-,hr,-⟩ := h.leasedThread t d o hthread
    exact ⟨hm,.inr hr⟩
  | _ =>
    rw [hthread] at ho
    cases ho

/-- Two values of a request agree in the fields the invariants read. -/
structure SameCore (r r' : ActiveRequest) : Prop where
  id : r.id=r'.id
  tokens : r.maximumTokens=r'.maximumTokens
  under : r.admittedUnder=r'.admittedUnder
  sequence : r.sequence=r'.sequence
  allocating : r.allocating=r'.allocating
  running : r.running=r'.running

/-- A state agrees with itself. -/
theorem SameCore.refl (r : ActiveRequest) : SameCore r r := ⟨rfl,rfl,rfl,rfl,rfl,rfl⟩

/-- A thread that has nothing more to do with its request. -/
def quit : Thread → Prop
  | .dropping _ _ => True
  | .ended => True
  | _ => False

/-- A thread that has quit owns nothing. -/
theorem owned_quit {thread : Thread} (h : quit thread) : owned thread=none := by
  cases thread with
  | dropping d o => rfl
  | ended => rfl
  | _ => exact h.elim

/-- Moves that keep the table and the core of every request. Threads stay
where they are or quit. -/
theorem Table.frame (h : Table w) (hconfig : w'.config=w.config)
    (hdeployment : w'.deployment=w.deployment) (hactive : w'.active=w.active)
    (hobjects : w'.objects=w.objects) (hcore : ∀ o,SameCore (w'.object o) (w.object o))
    (hthread : ∀ t,w'.thread t=w.thread t ∨ quit (w'.thread t))
    (hgranted : w'.granted=w.granted) : Table w' := by
  have hsame : ∀ t,¬quit (w'.thread t) → w'.thread t=w.thread t :=
    fun t ht => (hthread t).resolve_right ht
  have howned : ∀ t o,owned (w'.thread t)=some o → owned (w.thread t)=some o := by
    intro t o ho
    rw [←hsame t fun hquit => by rw [owned_quit hquit] at ho; cases ho]
    exact ho
  constructor
  case allocatingThread =>
    intro t o d claims ht
    rw [hactive,hdeployment,(hcore o).id,(hcore o).allocating,(hcore o).running]
    exact h.allocatingThread t o d claims (by rw [←hsame t (by rw [ht]; exact id),ht])
  case leasedThread =>
    intro t d o ht
    rw [hactive,hdeployment,(hcore o).id,(hcore o).allocating,(hcore o).running]
    exact h.leasedThread t d o (by rw [←hsame t (by rw [ht]; exact id),ht])
  case oneOwner => exact fun t t' o ht ht' => h.oneOwner t t' o (howned t o ht) (howned t' o ht')
  case held =>
    intro t d o ht
    rw [hgranted]
    rw [hsame t (by rcases ht with ht|ht <;> rw [ht] <;> exact id)] at ht
    exact h.held t d o ht
  case gone =>
    intro t d o ht
    rw [hactive]
    exact h.gone t d o (by rw [←hsame t (by rw [ht]; exact id),ht])
  all_goals
    simp only [tokenTotal,hconfig,hdeployment,hactive,hobjects,(hcore _).id,(hcore _).tokens,
      (hcore _).under,(hcore _).sequence,(hcore _).allocating,(hcore _).running,hgranted]
  · exact h.keys
  · exact h.ids
  · exact h.fresh
  · exact h.home
  · exact h.limit
  · exact h.tokens
  · exact h.ready
  · exact h.grantedOnce
  · exact h.grantedRunning

/-- A thread that has nothing more to do changes nothing else. -/
theorem Table.finish (h : Table w) (t : ℕ) {thread : Thread} (hquit : quit thread) :
    Table (w.goto w.toControl t thread) := by
  refine h.frame rfl rfl rfl rfl (fun _ => .refl _) (fun t' => ?_) rfl
  by_cases he : t'=t
  · right
    rw [World.goto_thread,he,Function.update_self]
    exact hquit
  · exact .inl (by rw [World.goto_thread,Function.update_of_ne he])

/-- Changing one request object within its core. -/
theorem Table.withObject (h : Table w) (o : ℕ) {r : ActiveRequest}
    (hr : SameCore r (w.object o)) : Table (w.within (w.withObject o r)) := by
  refine h.frame rfl rfl rfl rfl (fun x => ?_) (fun _ => .inl rfl) rfl
  simp only [World.within_toControl,Control.withObject_object]
  by_cases hx : x=o
  · rw [hx,Function.update_self]
    exact hr
  · rw [Function.update_of_ne hx]
    exact .refl _

/-- How a thread may change when request `o` leaves the table: not at all if
it does not own it, or by quitting, or by turning its lease into a released one. -/
def Departs (w w' : World) (o t : ℕ) : Prop :=
  (w'.thread t=w.thread t ∧ owned (w.thread t)≠some o) ∨ quit (w'.thread t) ∨
    ∃ d,w.thread t=.leased d o ∧ w'.thread t=.released d o

/-- Removing the entry of a request whose owner, if any, lets go of it. -/
theorem Table.remove (h : Table w) {id : String} {o : ℕ} (hentry : (id,o)∈w.active)
    (hconfig : w'.config=w.config) (hdeployment : w'.deployment=w.deployment)
    (hactive : w'.active=w.active.filter fun entry => entry.1≠id)
    (hobjects : w'.objects=w.objects) (hcore : ∀ x,x≠o → SameCore (w'.object x) (w.object x))
    (hrunning : (w'.object o).running=(w.object o).running)
    (hthread : ∀ t,Departs w w' o t) (hgranted : w'.granted=w.granted) : Table w' := by
  have hmem : ∀ e,e∈w'.active ↔ e∈w.active ∧ e.2≠o := by
    intro e
    rw [hactive,List.mem_filter,decide_eq_true_eq]
    refine and_congr_right fun he => not_congr ⟨fun hid => ?_,fun ho => ?_⟩
    · exact congrArg Prod.snd (h.entry_unique he hentry hid)
    · exact congrArg Prod.fst (h.object_unique he hentry ho)
  have hsame : ∀ t x,owned (w'.thread t)=some x → w'.thread t=w.thread t ∧ x≠o := by
    intro t x hx
    rcases hthread t with ⟨ht,ho⟩|ht|⟨d,-,ht⟩
    · rw [ht] at hx
      exact ⟨ht,fun he => ho (he ▸ hx)⟩
    · rw [owned_quit ht] at hx
      cases hx
    · rw [ht] at hx
      cases hx
  have hall : ∀ x,(w'.object x).running=(w.object x).running := by
    intro x
    by_cases hx : x=o
    · rw [hx,hrunning]
    · exact (hcore x hx).running
  constructor
  case keys =>
    rw [hactive]
    exact h.keys.sublist (List.filter_sublist.map _)
  case ids =>
    intro e he
    obtain ⟨he,ho⟩ := (hmem e).mp he
    rw [(hcore e.2 ho).id]
    exact h.ids e he
  case fresh =>
    intro e he
    rw [hobjects]
    exact h.fresh e ((hmem e).mp he).1
  case home =>
    intro e he
    obtain ⟨he,ho⟩ := (hmem e).mp he
    rw [hdeployment,(hcore e.2 ho).under]
    exact h.home e he
  case limit =>
    rw [hconfig,hactive]
    exact (List.length_filter_le _ _).trans h.limit
  case tokens =>
    rw [hconfig]
    intro hlimit
    refine le_trans ?_ (h.tokens hlimit)
    have hmap : (w'.active.map fun entry => (w'.object entry.2).maximumTokens.toNat)=
        w'.active.map fun entry => (w.object entry.2).maximumTokens.toNat := by
      refine List.map_congr_left fun e he => ?_
      rw [(hcore e.2 ((hmem e).mp he).2).tokens]
    rw [tokenTotal,hmap,hactive]
    exact (List.filter_sublist.map _).sum_le_sum fun _ _ => Nat.zero_le _
  case allocatingThread =>
    intro t x d claims ht
    obtain ⟨hold,hx⟩ := hsame t x (by rw [ht]; rfl)
    rw [ht] at hold
    obtain ⟨hm,ha,hr,hd⟩ := h.allocatingThread t x d claims hold.symm
    rw [hdeployment,hall,(hcore x hx).id,(hcore x hx).allocating]
    exact ⟨(hmem _).mpr ⟨hm,hx⟩,ha,hr,hd⟩
  case leasedThread =>
    intro t d x ht
    obtain ⟨hold,hx⟩ := hsame t x (by rw [ht]; rfl)
    rw [ht] at hold
    obtain ⟨hm,ha,hr,hd⟩ := h.leasedThread t d x hold.symm
    rw [hdeployment,hall,(hcore x hx).id,(hcore x hx).allocating]
    exact ⟨(hmem _).mpr ⟨hm,hx⟩,ha,hr,hd⟩
  case oneOwner =>
    intro t t' x ht ht'
    rw [(hsame t x ht).1] at ht
    rw [(hsame t' x ht').1] at ht'
    exact h.oneOwner t t' x ht ht'
  case ready =>
    intro e he ha
    obtain ⟨he,ho⟩ := (hmem e).mp he
    rw [(hcore e.2 ho).allocating] at ha
    rw [(hcore e.2 ho).sequence]
    exact h.ready e he ha
  case grantedOnce =>
    rw [hgranted]
    exact h.grantedOnce
  case grantedRunning =>
    intro x hx
    rw [hgranted] at hx
    rw [hobjects,hall]
    exact h.grantedRunning x hx
  case held =>
    intro t d x ht
    rw [hgranted]
    rcases hthread t with ⟨hold,-⟩|hend|⟨d',hold,hnew⟩
    · rw [hold] at ht
      exact h.held t d x ht
    · rcases ht with ht|ht
      · rw [ht] at hend
        exact hend.elim
      · rw [ht] at hend
        exact hend.elim
    · rw [hnew] at ht
      rcases ht with ht|ht
      · cases ht
      · cases ht
        exact h.held t d _ (.inl hold)
  case gone =>
    intro t d x ht e he
    obtain ⟨he,ho⟩ := (hmem e).mp he
    rcases hthread t with ⟨hold,-⟩|hend|⟨d',hold,hnew⟩
    · rw [hold] at ht
      exact h.gone t d x ht e he
    · rw [ht] at hend
      exact hend.elim
    · rw [hnew] at ht
      cases ht
      exact ho

/-- Retiring a reservation nobody owns. -/
theorem Table.retired (h : Table w) {id : String} {o : ℕ} (reason : String)
    (hentry : (id,o)∈w.active) (hrunning : (w.object o).running=false)
    (hallocating : (w.object o).allocating=false) :
    Table (w.within (w.retire id o reason)) := by
  refine h.remove hentry (by simp [Control.retire]) (by simp [Control.retire])
    (by simp [Control.retire]) (by simp [Control.retire]) (fun x _ => ?_)
    (by simp [Control.retire]) (fun t => .inl ⟨rfl,fun ho => ?_⟩) rfl
  · simpa [Control.retire] using SameCore.refl _
  · have hmarked := (h.owned_marked ho).2
    rw [hrunning,hallocating] at hmarked
    simp at hmarked

/-- A thread other than the owner does not own the request. -/
theorem Table.not_owned (h : Table w) {t t' o : ℕ} (ht : owned (w.thread t)=some o)
    (hne : t'≠t) : owned (w.thread t')≠some o :=
  fun ht' => hne (h.oneOwner t' t o ht' ht)

/-- The owner's request leaves the table when its thread lets go of it. -/
theorem Table.letGo (h : Table w) {t o : ℕ} {c : Control} {thread : Thread} (reason : String)
    (howned : owned (w.thread t)=some o)
    (hthread : quit thread ∨ ∃ d,w.thread t=.leased d o ∧ thread=.released d o)
    (hconfig : c.config=w.config) (hdeployment : c.deployment=w.deployment)
    (hactive : c.active=w.active) (hobjects : c.objects=w.objects)
    (hcore : ∀ x,x≠o → SameCore (c.object x) (w.object x))
    (hrunning : (c.object o).running=(w.object o).running) :
    Table (w.goto (c.retire (w.object o).id o reason) t thread) := by
  refine h.remove (h.owned_marked howned).1 (by simp [Control.retire,hconfig])
    (by simp [Control.retire,hdeployment]) (by simp [Control.retire,hactive])
    (by simp [Control.retire,hobjects]) (by simpa [Control.retire] using hcore)
    (by simpa [Control.retire] using hrunning) (fun t' => ?_) rfl
  by_cases he : t'=t
  · rw [Departs,World.goto_thread,he,Function.update_self]
    exact .inr hthread
  · rw [Departs,World.goto_thread,Function.update_of_ne he]
    exact .inl ⟨rfl,h.not_owned howned he⟩

/-- With an empty table no thread allocates or executes. -/
theorem Table.no_owner (h : Table w) (hempty : w.active=[]) (t o : ℕ) :
    owned (w.thread t)≠some o := by
  intro ho
  have hm := (h.owned_marked ho).1
  rw [hempty] at hm
  cases hm

/-- Loading and unloading happen with an empty table. -/
theorem Table.redeploy (h : Table w) {c : Control} (hempty : w.active=[])
    (hactive : c.active=w.active) (hobjects : c.objects=w.objects)
    (hobject : c.object=w.object) : Table (w.within c) := by
  have hactive' : c.active=[] := hactive.trans hempty
  constructor
  case allocatingThread =>
    intro t o d claims ht
    rw [World.within_thread] at ht
    exact absurd (by rw [ht]; rfl) (h.no_owner hempty t o)
  case leasedThread =>
    intro t d o ht
    rw [World.within_thread] at ht
    exact absurd (by rw [ht]; rfl) (h.no_owner hempty t o)
  case oneOwner => exact h.oneOwner
  case grantedOnce => exact h.grantedOnce
  case grantedRunning =>
    intro o ho
    rw [World.within_toControl,hobjects,hobject]
    exact h.grantedRunning o ho
  case held => exact h.held
  all_goals simp [hactive',tokenTotal]

/-- A finished allocation marks its request as ready; its thread goes on. -/
theorem Table.allocationKept (h : Table w) {t o d : ℕ} {claims : Bool}
    (hthread : w.thread t=.allocating o d claims) :
    Table (w.goto (w.keepAllocation o) t .ended) := by
  have howned : owned (w.thread t)=some o := by
    rw [hthread]
    rfl
  have hobject : ∀ x,x≠o → (w.keepAllocation o).object x=w.object x := by
    intro x hx
    simp [hx]
  have hid : ∀ x,((w.keepAllocation o).object x).id=(w.object x).id := by
    intro x
    by_cases hx : x=o
    · simp [hx]
    · rw [hobject x hx]
  have hrunning : ∀ x,((w.keepAllocation o).object x).running=(w.object x).running := by
    intro x
    by_cases hx : x=o
    · simp [hx]
    · rw [hobject x hx]
  have hother : ∀ t' x,owned ((w.goto (w.keepAllocation o) t .ended).thread t')=some x →
      t'≠t ∧ x≠o ∧ owned (w.thread t')=some x := by
    intro t' x hx
    rw [World.goto_thread] at hx
    by_cases he : t'=t
    · rw [he,Function.update_self] at hx
      cases hx
    · rw [Function.update_of_ne he] at hx
      exact ⟨he,fun ho => h.not_owned howned he (ho ▸ hx),hx⟩
  constructor
  case keys => exact h.keys
  case ids => exact fun e he => (hid e.2).trans (h.ids e he)
  case fresh => exact h.fresh
  case limit => exact h.limit
  case grantedOnce => exact h.grantedOnce
  case home =>
    intro e he
    have hunder : ((w.keepAllocation o).object e.2).admittedUnder=
        (w.object e.2).admittedUnder := by
      by_cases hx : e.2=o
      · simp [hx]
      · rw [hobject e.2 hx]
    rw [World.goto_toControl,hunder]
    exact h.home e he
  case tokens =>
    intro hlimit
    have hsum : tokenTotal (w.keepAllocation o).object w.active=tokenTotal w.object w.active := by
      unfold tokenTotal
      congr 1
      refine List.map_congr_left fun e _ => ?_
      by_cases hx : e.2=o
      · simp [hx]
      · rw [hobject e.2 hx]
    rw [World.goto_toControl,Control.keepAllocation_active,hsum]
    exact h.tokens hlimit
  case allocatingThread =>
    intro t' x d' claims' ht
    obtain ⟨hne,hx,-⟩ := hother t' x (by rw [ht]; rfl)
    rw [World.goto_thread,Function.update_of_ne hne] at ht
    rw [World.goto_toControl,hobject x hx]
    exact h.allocatingThread t' x d' claims' ht
  case leasedThread =>
    intro t' d' x ht
    obtain ⟨hne,hx,-⟩ := hother t' x (by rw [ht]; rfl)
    rw [World.goto_thread,Function.update_of_ne hne] at ht
    rw [World.goto_toControl,hobject x hx]
    exact h.leasedThread t' d' x ht
  case oneOwner =>
    exact fun t₁ t₂ x h₁ h₂ => h.oneOwner t₁ t₂ x (hother t₁ x h₁).2.2 (hother t₂ x h₂).2.2
  case ready =>
    intro e he ha
    by_cases hx : e.2=o
    · simp [hx]
    · rw [World.goto_toControl,hobject e.2 hx] at ha ⊢
      exact h.ready e he ha
  case grantedRunning =>
    intro x hx
    rw [World.goto_toControl,hrunning x]
    exact h.grantedRunning x hx
  case held =>
    intro t' d' x ht
    by_cases he : t'=t
    · rw [World.goto_thread,he,Function.update_self] at ht
      simp at ht
    · rw [World.goto_thread,Function.update_of_ne he] at ht
      exact h.held t' d' x ht
  case gone =>
    intro t' d' x ht
    by_cases he : t'=t
    · rw [World.goto_thread,he,Function.update_self] at ht
      cases ht
    · rw [World.goto_thread,Function.update_of_ne he] at ht
      exact h.gone t' d' x ht

/-- A free and allocated reservation gets its one owner. -/
theorem Table.granted (h : Table w) {t o : ℕ} (hentry : ((w.object o).id,o)∈w.active)
    (hthread : owned (w.thread t)=none) (hnot : ∀ d x,w.thread t≠.released d x)
    (hallocating : (w.object o).allocating=false) (hrunning : (w.object o).running=false) :
    Table (w.grant (w.own o) t o) := by
  have hfree : ∀ t',owned (w.thread t')≠some o := by
    intro t' ho
    have hmarked := (h.owned_marked ho).2
    rw [hrunning,hallocating] at hmarked
    simp at hmarked
  have hobject : ∀ x,x≠o → (w.own o).object x=w.object x := by
    intro x hx
    simp [hx]
  have hnew : o∉w.granted := by
    intro ho
    have hr := (h.grantedRunning o ho).2
    rw [hrunning] at hr
    cases hr
  have hid : ∀ x,((w.own o).object x).id=(w.object x).id := by
    intro x
    by_cases hx : x=o
    · simp [hx]
    · rw [hobject x hx]
  have hkeep : ∀ t',t'≠t → (w.grant (w.own o) t o).thread t'=w.thread t' := by
    intro t' he
    rw [World.grant_thread,Function.update_of_ne he]
  have hself : (w.grant (w.own o) t o).thread t=.leased w.deployment o := by
    rw [World.grant_thread,Function.update_self]
    rfl
  constructor
  case keys => exact h.keys
  case ids => exact fun e he => (hid e.2).trans (h.ids e he)
  case fresh => exact h.fresh
  case limit => exact h.limit
  case home =>
    intro e he
    have hunder : ((w.own o).object e.2).admittedUnder=(w.object e.2).admittedUnder := by
      by_cases hx : e.2=o
      · simp [hx]
      · rw [hobject e.2 hx]
    rw [World.grant_toControl,hunder]
    exact h.home e he
  case tokens =>
    intro hlimit
    have hsum : tokenTotal (w.own o).object w.active=tokenTotal w.object w.active := by
      unfold tokenTotal
      congr 1
      refine List.map_congr_left fun e _ => ?_
      by_cases hx : e.2=o
      · simp [hx]
      · rw [hobject e.2 hx]
    rw [World.grant_toControl,Control.own_active,hsum]
    exact h.tokens hlimit
  case allocatingThread =>
    intro t' x d claims ht
    have he : t'≠t := by
      rintro rfl
      rw [hself] at ht
      cases ht
    rw [hkeep t' he] at ht
    have hx : x≠o := fun hx => hfree t' (by rw [ht,←hx]; rfl)
    rw [World.grant_toControl,hobject x hx]
    exact h.allocatingThread t' x d claims ht
  case leasedThread =>
    intro t' d x ht
    by_cases he : t'=t
    · rw [he,hself] at ht
      cases ht
      refine ⟨?_,by simpa using hallocating,by simp,rfl⟩
      rw [World.grant_toControl,hid]
      exact hentry
    · rw [hkeep t' he] at ht
      have hx : x≠o := fun hx => hfree t' (by rw [ht,←hx]; rfl)
      rw [World.grant_toControl,hobject x hx]
      exact h.leasedThread t' d x ht
  case oneOwner =>
    intro t₁ t₂ x h₁ h₂
    by_cases he₁ : t₁=t
    · by_cases he₂ : t₂=t
      · rw [he₁,he₂]
      · rw [he₁,hself] at h₁
        rw [hkeep t₂ he₂] at h₂
        cases h₁
        exact absurd h₂ (hfree t₂)
    · by_cases he₂ : t₂=t
      · rw [he₂,hself] at h₂
        rw [hkeep t₁ he₁] at h₁
        cases h₂
        exact absurd h₁ (hfree t₁)
      · rw [hkeep t₁ he₁] at h₁
        rw [hkeep t₂ he₂] at h₂
        exact h.oneOwner t₁ t₂ x h₁ h₂
  case ready =>
    intro e he ha
    by_cases hx : e.2=o
    · have hseq := h.ready e he (by rw [hx]; exact hallocating)
      rw [hx] at hseq
      simpa [hx] using hseq
    · rw [World.grant_toControl,hobject e.2 hx] at ha ⊢
      exact h.ready e he ha
  case grantedOnce =>
    rw [World.grant_granted]
    refine List.nodup_append.mpr ⟨h.grantedOnce,List.nodup_singleton o,?_⟩
    intro a ha b hb he
    rw [List.mem_singleton.mp hb] at he
    exact hnew (he ▸ ha)
  case grantedRunning =>
    intro x hx
    rw [World.grant_granted,List.mem_append,List.mem_singleton] at hx
    rcases hx with hx|hx
    · have hne : x≠o := fun he => hnew (he ▸ hx)
      rw [World.grant_toControl,hobject x hne]
      exact h.grantedRunning x hx
    · rw [hx]
      exact ⟨h.fresh _ hentry,by simp⟩
  case held =>
    intro t' d x ht
    rw [World.grant_granted,List.mem_append,List.mem_singleton]
    by_cases he : t'=t
    · rw [he,hself] at ht
      rcases ht with ht|ht
      · cases ht
        exact .inr rfl
      · cases ht
    · rw [hkeep t' he] at ht
      exact .inl (h.held t' d x ht)
  case gone =>
    intro t' d x ht
    have he : t'≠t := by
      rintro rfl
      rw [hself] at ht
      cases ht
    rw [hkeep t' he] at ht
    exact h.gone t' d x ht

/-- Granting a lease overwrites the thread's program point. -/
theorem goto_grant (w : World) (c c' : Control) (t o : ℕ) (thread : Thread) :
    (w.goto c t thread).grant c' t o=w.grant c' t o := by
  simp only [World.grant,World.goto,Function.update_idem]

/-- The table after an admission is the old table and the new entry. -/
theorem mem_insertEntry (entry other : String×ℕ) (active : List (String×ℕ)) :
    other∈insertEntry entry active ↔ other=entry ∨ other∈active := by
  rw [insertEntry,List.mem_orderedInsert]

/-- An admission adds one entry, marked as allocating, for the admitting thread. -/
theorem Table.admitted (h : Table w) {t d : ℕ} {id : String} {tokens queryTokens : UInt64}
    {deadline : ℕ} {memory : SequenceMemory} {claims : Bool} (hidle : w.thread t=.idle)
    (hdeployment : w.deployment=some d) (hfind : w.find id=none)
    (hmemory : w.admission d tokens queryTokens=.ok memory) :
    Table (w.goto ((w.emplace (freshRequest w.toControl d id tokens queryTokens deadline
      memory)).recordLifecycle .admitted id "") t (.allocating w.objects d claims)) := by
  obtain ⟨hcount,-,htokens,-⟩ := admission_ok hmemory
  have hperm : (insertEntry (id,w.objects) w.active).Perm ((id,w.objects)::w.active) :=
    List.perm_orderedInsert _ _ _
  have hnone : ∀ e∈w.active,e.1≠id := by
    intro e he hid
    have hf := (h.find_iff e.1 e.2).mpr he
    rw [hid,hfind] at hf
    cases hf
  have hold : ∀ e∈w.active,e.2≠w.objects := fun e he => Nat.ne_of_lt (h.fresh e he)
  have howned : ∀ t' x,owned (w.thread t')=some x → x≠w.objects :=
    fun t' x hx => hold _ (h.owned_marked hx).1
  have hkeep : ∀ t',t'≠t → Function.update w.thread t (.allocating w.objects d claims) t'=
      w.thread t' := fun t' he => Function.update_of_ne he ..
  constructor <;> simp only [World.goto_toControl,World.goto_thread,World.goto_granted,
    recordLifecycle_config,recordLifecycle_deployment,recordLifecycle_active,
    recordLifecycle_object,recordLifecycle_objects,Control.emplace_active,
    Control.emplace_object,Control.emplace_objects,freshRequest]
  case keys =>
    have hkeys : ((id,w.objects)::w.active).map Prod.fst=id::w.active.map Prod.fst := rfl
    refine (hperm.map Prod.fst).nodup_iff.mpr ?_
    rw [hkeys,List.nodup_cons]
    refine ⟨fun hm => ?_,h.keys⟩
    obtain ⟨e,he,hid⟩ := List.mem_map.mp hm
    exact hnone e he hid
  case ids =>
    intro e he
    rcases (mem_insertEntry _ e _).mp he with rfl|he
    · simp
    · rw [Function.update_of_ne (hold e he)]
      exact h.ids e he
  case fresh =>
    intro e he
    rcases (mem_insertEntry _ e _).mp he with rfl|he
    · exact Nat.lt_succ_self _
    · exact Nat.lt_succ_of_lt (h.fresh e he)
  case home =>
    intro e he
    rcases (mem_insertEntry _ e _).mp he with rfl|he
    · simp [hdeployment]
    · rw [Function.update_of_ne (hold e he)]
      exact h.home e he
  case limit =>
    have hlen := hperm.length_eq
    rw [List.length_cons] at hlen
    have hlen' : (insertEntry (id,w.objects) w.active).length=w.active.length+1 := hlen
    exact hlen'.trans_le hcount
  case tokens =>
    intro hlimit
    have hsum := (hperm.map fun e => ((Function.update w.object w.objects (freshRequest
      w.toControl d id tokens queryTokens deadline memory)) e.2).maximumTokens.toNat).sum_eq
    have hmap : (w.active.map fun e => ((Function.update w.object w.objects (freshRequest
        w.toControl d id tokens queryTokens deadline memory)) e.2).maximumTokens.toNat)=
        w.active.map fun e => (w.object e.2).maximumTokens.toNat := by
      refine List.map_congr_left fun e he => ?_
      rw [Function.update_of_ne (hold e he)]
    rw [List.map_cons,hmap,List.sum_cons,Function.update_self] at hsum
    exact (show tokenTotal _ _=_ from hsum).trans_le (htokens hlimit)
  case allocatingThread =>
    intro t' x d' claims' ht
    by_cases he : t'=t
    · rw [he,Function.update_self] at ht
      cases ht
      simp only [Function.update_self]
      exact ⟨(mem_insertEntry _ _ _).mpr (.inl rfl),trivial,trivial,hdeployment⟩
    · rw [hkeep t' he] at ht
      rw [Function.update_of_ne (howned t' x (by rw [ht]; rfl))]
      obtain ⟨hm,hrest⟩ := h.allocatingThread t' x d' claims' ht
      exact ⟨(mem_insertEntry _ _ _).mpr (.inr hm),hrest⟩
  case leasedThread =>
    intro t' d' x ht
    have he : t'≠t := by
      rintro rfl
      rw [Function.update_self] at ht
      cases ht
    rw [hkeep t' he] at ht
    rw [Function.update_of_ne (howned t' x (by rw [ht]; rfl))]
    obtain ⟨hm,hrest⟩ := h.leasedThread t' d' x ht
    exact ⟨(mem_insertEntry _ _ _).mpr (.inr hm),hrest⟩
  case oneOwner =>
    intro t₁ t₂ x h₁ h₂
    by_cases he₁ : t₁=t
    · by_cases he₂ : t₂=t
      · rw [he₁,he₂]
      · rw [he₁,Function.update_self] at h₁
        rw [hkeep t₂ he₂] at h₂
        cases h₁
        exact absurd rfl (howned t₂ _ h₂)
    · by_cases he₂ : t₂=t
      · rw [he₂,Function.update_self] at h₂
        rw [hkeep t₁ he₁] at h₁
        cases h₂
        exact absurd rfl (howned t₁ _ h₁)
      · rw [hkeep t₁ he₁] at h₁
        rw [hkeep t₂ he₂] at h₂
        exact h.oneOwner t₁ t₂ x h₁ h₂
  case ready =>
    intro e he ha
    rcases (mem_insertEntry _ e _).mp he with rfl|he
    · simp at ha
    · rw [Function.update_of_ne (hold e he)] at ha ⊢
      exact h.ready e he ha
  case grantedOnce => exact h.grantedOnce
  case grantedRunning =>
    intro x hx
    obtain ⟨hlt,hr⟩ := h.grantedRunning x hx
    rw [Function.update_of_ne (Nat.ne_of_lt hlt)]
    exact ⟨Nat.lt_succ_of_lt hlt,hr⟩
  case held =>
    intro t' d' x ht
    by_cases he : t'=t
    · rw [he,Function.update_self] at ht
      simp at ht
    · rw [hkeep t' he] at ht
      exact h.held t' d' x ht
  case gone =>
    intro t' d' x ht e hm
    have he : t'≠t := by
      rintro rfl
      rw [Function.update_self] at ht
      cases ht
    rw [hkeep t' he] at ht
    rcases (mem_insertEntry _ e _).mp hm with rfl|hm
    · exact Nat.ne_of_gt (h.grantedRunning x (h.held t' d' x (.inr ht))).1
    · exact h.gone t' d' x ht e hm

/-- `release` of a request that is in the table retires it. -/
theorem Table.release_eq (h : Table w) {o : ℕ} (hentry : ((w.object o).id,o)∈w.active)
    (outcome : RequestOutcome) (now : ℕ) :
    w.release o outcome now=(w.withObject o {w.object o with sequence := false}).retire
      (w.object o).id o (releaseReason (w.object o) outcome now) := by
  rw [Control.release,if_pos ((h.find_iff _ _).mpr hentry)]

/-- `release` of a request that has left the table does nothing. -/
theorem Table.release_gone (h : Table w) {o : ℕ} (hgone : ∀ entry∈w.active,entry.2≠o)
    (outcome : RequestOutcome) (now : ℕ) : w.release o outcome now=w.toControl := by
  rw [Control.release,if_neg]
  intro hf
  exact hgone _ ((h.find_iff _ _).mp hf) rfl

/-- The owner of a leased request releases it. -/
theorem Table.releaseLeased (h : Table w) {t o : ℕ} {d : Option ℕ} {thread : Thread}
    (outcome : RequestOutcome) (now : ℕ) (hthread : w.thread t=.leased d o)
    (hnext : quit thread ∨ thread=.released d o) :
    Table (w.goto (w.release o outcome now) t thread) := by
  have howned : owned (w.thread t)=some o := by
    rw [hthread]
    rfl
  rw [h.release_eq (h.owned_marked howned).1]
  refine h.letGo _ howned (hnext.imp_right fun he => ⟨d,hthread,he⟩) rfl rfl rfl rfl ?_ ?_
  · intro x hx
    rw [Control.withObject_object,Function.update_of_ne hx]
    exact .refl _
  · simp

/-- The thread of a failed or dropped allocation lets go of its request. -/
theorem Table.allocationLost (h : Table w) {t o d : ℕ} {claims : Bool} {c : Control}
    (reason : String) (hthread : w.thread t=.allocating o d claims)
    (hc : c=w.toControl ∨ c=w.finishAllocation o) :
    Table (w.goto (c.retireFound (w.object o).id reason) t .ended) := by
  have howned : owned (w.thread t)=some o := by
    rw [hthread]
    rfl
  have hfind : c.find (w.object o).id=some o := by
    have hold := (h.find_iff _ _).mpr (h.owned_marked howned).1
    rcases hc with rfl|rfl <;> exact hold
  rw [Control.retireFound,hfind]
  rcases hc with rfl|rfl
  · exact h.letGo reason howned (.inl trivial) rfl rfl rfl rfl (fun x _ => .refl _) rfl
  · refine h.letGo reason howned (.inl trivial) rfl rfl rfl rfl (fun x hx => ?_) (by simp)
    rw [Control.finishAllocation_object,Function.update_of_ne hx]
    exact .refl _

/-- Every move keeps the table. -/
theorem Table.move (h : Table w) (hmove : Move w w') : Table w' := by
  cases hmove with
  | stopped o cause => exact h.withObject o ⟨rfl,rfl,rfl,rfl,rfl,rfl⟩
  | retired reason hentry hrunning hallocating => exact h.retired reason hentry hrunning hallocating
  | installed hnone =>
    refine h.redeploy ?_ rfl rfl rfl
    cases hactive : w.active with
    | nil => rfl
    | cons entry entries =>
      have hhome := h.home entry (by rw [hactive]; exact .head _)
      rw [hnone] at hhome
      cases hhome
  | unloaded hempty => exact h.redeploy hempty rfl rfl rfl
  | shortened => exact h.withObject _ ⟨rfl,rfl,rfl,rfl,rfl,rfl⟩
  | returned hidle => exact h.finish _ trivial
  | admitted hidle hdeployment hfind hmemory => exact h.admitted hidle hdeployment hfind hmemory
  | allocationFailed hthread => exact h.allocationLost _ hthread (.inl rfl)
  | allocationDropped reason hthread => exact h.allocationLost _ hthread (.inr rfl)
  | allocationKept hthread => exact h.allocationKept hthread
  | @allocationClaimed t o d claims hthread hrunning =>
    have hkept := h.allocationKept hthread
    have hentry : (((w.goto (w.keepAllocation o) t .ended).object o).id,o)∈
        (w.goto (w.keepAllocation o) t .ended).active := by
      simpa using (h.allocatingThread t o d claims hthread).1
    have hgrant := hkept.granted (t:=t) hentry (by simp [owned]) (by simp) (by simp)
      (by simpa using hrunning)
    rw [goto_grant] at hgrant
    exact hgrant
  | @claimed t o id hidle hentry hallocating hrunning =>
    refine h.granted ?_ (by rw [hidle]; rfl) (by rw [hidle]; simp) hallocating hrunning
    rw [h.ids _ hentry]
    exact hentry
  | completed now hthread => exact h.releaseLeased .completed now hthread (.inr rfl)
  | @left t o d now hthread =>
    rcases hthread with hthread|hthread
    · exact h.releaseLeased .failed now hthread (.inl trivial)
    · rw [h.release_gone (h.gone t d o hthread)]
      exact h.finish t trivial
  | dropped hthread => exact h.finish _ trivial
  | ticked => exact h.frame rfl rfl rfl rfl (fun _ => .refl _) (fun _ => .inl rfl) rfl

variable {textDigest : String → String}

/-- Every step from a good table is a sequence of moves. -/
theorem Table.step (h : Table w) {a : Action} (hone : (machine textDigest).step w a=some w') :
    ReflTransGen Move w w' :=
  step_moves h.keys (fun t o d claims ht => (h.allocatingThread t o d claims ht).2.2.1) hone

/-- The table's invariants hold in every reachable state. -/
theorem table_reachable (h : (machine textDigest).Reachable w) : Table w := by
  refine Machine.Reachable.induct_moves ?_ (fun s a t hs hone => hs.step hone)
    (fun s t hs hmove => hs.move hmove) h
  rintro s ⟨config,capabilities,blank,empty,-,rfl⟩
  exact table_start config capabilities blank empty

end Hllm.ControlTable
