import Hllm.SweepVerdicts

/-!
# Resuming a sweep

A sweep runs its jobs in order and keeps every result in a directory. A later
run of the same directory replays what is saved and executes the rest. The two
loops of `run` are one list of steps here. JSON values are a parameter, with
reading back what was written.
-/

namespace Hllm.SweepResume

open PlannerModels PlannerPlacement SweepModel SweepVerdicts
open MemoryAccounting (call_bind)
open PlannerModels (DeploymentPlan)

/-- Writing and reading JSON values, and `digest`. -/
structure Codec (J : Type) where
  encodeResult : JobResult → J
  decodeResult : J → Except Raised JobResult
  encodeContent : SweepContent → J
  encodeSpec : SweepSpec → J
  decodeSpec : J → Except Raised SweepSpec
  digest : J → String
  /-- A written result is read back. -/
  result_read : ∀ result,decodeResult (encodeResult result)=.ok result
  /-- A written sweep is read back. -/
  spec_read : ∀ spec,decodeSpec (encodeSpec spec)=.ok spec

/-- `result.json` -/
structure Saved (J : Type) where
  result : J
  digest : String

/-- The directory of a sweep. -/
structure Directory (J : Type) where
  /-- `sweep.json` -/
  sweep : Option J := none
  /-- `result.json` of a job. -/
  saved : String → Option (Saved J) := fun _ => none
  /-- `evidence.json` of a job. -/
  evidence : String → Option J := fun _ => none
  /-- `summary.json` -/
  summary : Option Summary := none

/-- An executor: the evidence it writes for a job, and what it returns. -/
abbrev Executor (J : Type) := SweepSpec → String → DeploymentPlan → Option J×Except Raised JobResult

/-- Variables of a run, with the jobs it has executed. -/
structure RunState (J : Type) where
  directory : Directory J
  results : List JobResult := []
  launched : ℕ := 0
  executed : List String := []

/-- Why a run returned. -/
inductive Stop
  | limit
  | interrupted
  | decided
  | exhausted
  deriving DecidableEq

/-- How a run ended. -/
inductive Outcome (J : Type)
  | returned (stop : Stop) (summary : Summary) (state : RunState J)
  | raised (e : Raised) (state : RunState J)

/-- The variables in the end. -/
def Outcome.state {J : Type} : Outcome J → RunState J
  | .returned _ _ state => state
  | .raised _ state => state

/-- One step of the loops. -/
inductive Step
  | job (name : String) (plan : DeploymentPlan)
  | endRound (round : ℕ)
  | raise (e : Raised)

/-- The detail of a result reports an interruption. -/
def isInterrupted (result : JobResult) : Bool :=
  "interrupted".toList.isPrefixOf result.detail.toList

section Runs

variable {J : Type} (codec : Codec J)

/-- A sweep with its digest. -/
def sealed (content : SweepContent) : SweepSpec :=
  {content with sweepDigest := codec.digest (codec.encodeContent content)}

/-- `freeze` -/
def freeze (content : SweepContent) (directory : Directory J) :
    Except Raised SweepSpec×Directory J :=
  let spec := sealed codec content
  match directory.sweep with
  | some text =>
    match codec.decodeSpec text with
    | .error e => (.error e,directory)
    | .ok frozen =>
      if frozen≠spec then (.error (.value "resume inputs differ from frozen sweep"),directory)
      else (.ok spec,directory)
  | none => (.ok spec,{directory with sweep := some (codec.encodeSpec spec)})

/-- The checks of a result before it counts. -/
def accept (spec : SweepSpec) (directory : Directory J) (name : String) (plan : DeploymentPlan)
    (result : JobResult) : Except Raised Unit := do
  validateResult spec result name plan
  match directory.evidence name with
  | none => .error (.evaluation "FileNotFoundError")
  | some evidence =>
    check (codec.digest evidence=result.evidenceDigest) "raw sweep evidence was changed"

/-- A saved result. -/
def replay (spec : SweepSpec) (directory : Directory J) (name : String) (plan : DeploymentPlan)
    (saved : Saved J) : Except Raised JobResult := do
  check (saved.digest=codec.digest saved.result) "saved sweep result digest mismatch"
  let result ← codec.decodeResult saved.result
  accept codec spec directory name plan result
  pure result

/-- The directory after an executor has written its evidence. -/
def Directory.withEvidence (directory : Directory J) (name : String) (evidence : Option J) :
    Directory J :=
  match evidence with
  | none => directory
  | some evidence =>
    {directory with evidence := Function.update directory.evidence name (some evidence)}

/-- The directory with a result. -/
def Directory.withResult (directory : Directory J) (name : String) (result : JobResult) :
    Directory J :=
  {directory with
    saved := Function.update directory.saved name
      (some ⟨codec.encodeResult result,codec.digest (codec.encodeResult result)⟩)}

variable (planHash : DeploymentPlan → String) (random : Randomness) (spec : SweepSpec)

/-- The variables after a summary was written. -/
def RunState.summarized (state : RunState J) (summary : Summary) : RunState J :=
  {state with directory := {state.directory with summary := some summary}}

/-- The variables with one more result. -/
def RunState.count (state : RunState J) (result : JobResult) : RunState J :=
  {state with results := state.results++[result]}

/-- Summarize, write the summary and return. -/
def finish (stop : Stop) (state : RunState J) : Outcome J :=
  match summarize planHash random spec state.results with
  | .error e => .raised e state
  | .ok summary => .returned stop summary (state.summarized summary)

/-- The steps of the two loops. -/
def program : List Step :=
  (List.range spec.maximumRepetitions).flatMap fun round =>
    match schedule planHash random spec round with
    | .error e => [.raise e]
    | .ok jobs => jobs.map (fun job => .job job.1 job.2)++[.endRound round]

variable (execute : Executor J)

/-- The variables after a job was executed. -/
def RunState.executing (state : RunState J) (name : String) (evidence : Option J) : RunState J :=
  {state with
    directory := state.directory.withEvidence name evidence
    executed := state.executed++[name]}

/-- The variables after its result was saved. -/
def RunState.saving (state : RunState J) (name : String) (result : JobResult) : RunState J :=
  {state with
    directory := state.directory.withResult codec name result
    launched := state.launched+1}

/-- Execute a job and save its result. -/
def launch (state : RunState J) (name : String) (plan : DeploymentPlan) :
    Except Raised JobResult×RunState J :=
  let state := state.executing name (execute spec name plan).1
  match (execute spec name plan).2 with
  | .error e => (.error e,state)
  | .ok result =>
    match validateResult spec result name plan with
    | .error e => (.error e,state)
    | .ok () =>
      let state := state.saving codec name result
      ((accept codec spec state.directory name plan result).map fun _ => result,state)

/-- `run` from some step on. -/
def runSteps (limit : Option ℕ) : List Step → RunState J → Outcome J
  | [],state =>
    match summarize planHash random spec state.results with
    | .error e => .raised e state
    | .ok summary => .returned .exhausted summary state
  | .raise e::_,state => .raised e state
  | .endRound round::steps,state =>
    match summarize planHash random spec state.results with
    | .error e => .raised e state
    | .ok summary =>
      if spec.repetitions ≤ round+1 ∧ summary.decision≠.inconclusive then
        .returned .decided summary (state.summarized summary)
      else runSteps limit steps (state.summarized summary)
  | .job name plan::steps,state =>
    match state.directory.saved name with
    | some saved =>
      match replay codec spec state.directory name plan saved with
      | .error e => .raised e state
      | .ok result => runSteps limit steps (state.count result)
    | none =>
      if limit.any (fun l => decide (l ≤ state.launched))=true then
        finish planHash random spec .limit state
      else
        match launch codec spec execute state name plan with
        | (.error e,state) => .raised e state
        | (.ok result,state) =>
          if isInterrupted result=true then
            finish planHash random spec .interrupted (state.count result)
          else runSteps limit steps (state.count result)

/-- `run` -/
def run (limit : Option ℕ) (directory : Directory J) : Outcome J :=
  runSteps codec planHash random spec execute limit (program planHash random spec)
    {directory := directory}

/-- Runs of one directory, all but the last stopped by their limits: the jobs
executed and how the last run returned. -/
inductive Sessions : Directory J → List String → Stop → Summary → RunState J → Prop
  | last (directory : Directory J) (limit : Option ℕ) (stop : Stop) (summary : Summary)
      (state : RunState J)
      (hrun : run codec planHash random spec execute limit directory=.returned stop summary state)
      (hstop : stop≠.limit) : Sessions directory state.executed stop summary state
  | resume (directory : Directory J) (limit : ℕ) (early summary : Summary)
      (state final : RunState J) (executed : List String) (stop : Stop)
      (hrun : run codec planHash random spec execute (some limit) directory=
        .returned .limit early state)
      (hrest : Sessions state.directory executed stop summary final) :
      Sessions directory (state.executed++executed) stop summary final

/-- Directories that limited runs lead to. -/
inductive Reached (start : Directory J) : Directory J → Prop
  | start : Reached start start
  | run (directory : Directory J) (limit : ℕ) (summary : Summary) (state : RunState J)
      (h : Reached start directory)
      (hrun : run codec planHash random spec execute (some limit) directory=
        .returned .limit summary state) : Reached start state.directory

end Runs

section Limits

variable {J : Type} {codec : Codec J} {planHash : DeploymentPlan → String} {random : Randomness}
variable {spec : SweepSpec} {execute : Executor J} {limit : Option ℕ} {steps : List Step}
variable {state final : RunState J} {stop other : Stop} {summary : Summary}

/-- How a run can finish early. -/
theorem finish_returned
    (h : finish planHash random spec stop state=.returned other summary final) :
    other=stop ∧ summarize planHash random spec state.results=.ok summary ∧
      final=state.summarized summary := by
  unfold finish at h
  cases hsummary : summarize planHash random spec state.results with
  | error e =>
    rw [hsummary] at h
    cases h
  | ok made =>
    rw [hsummary] at h
    cases h
    exact ⟨rfl,rfl,rfl⟩

/-- A run that does not stop at its limit runs as without one. -/
theorem runSteps_unlimited
    (h : runSteps codec planHash random spec execute limit steps state=
      .returned stop summary final) (hstop : stop≠.limit) :
    runSteps codec planHash random spec execute none steps state=
      .returned stop summary final := by
  induction steps generalizing state with
  | nil => exact h
  | cons step steps ih =>
    cases step with
    | raise e => exact h
    | endRound round =>
      rw [runSteps] at h ⊢
      cases hsummary : summarize planHash random spec state.results with
      | error e =>
        rw [hsummary] at h
        cases h
      | ok made =>
        rw [hsummary] at h
        simp only at h ⊢
        split at h
        · rename_i hdecided
          rw [if_pos hdecided]
          exact h
        · rename_i hdecided
          rw [if_neg hdecided]
          exact ih h
    | job name plan =>
      rw [runSteps] at h ⊢
      cases hsaved : state.directory.saved name with
      | some saved =>
        rw [hsaved] at h
        simp only at h ⊢
        cases hreplay : replay codec spec state.directory name plan saved with
        | error e =>
          rw [hreplay] at h
          cases h
        | ok result =>
          rw [hreplay] at h
          exact ih h
      | none =>
        rw [hsaved] at h
        simp only at h ⊢
        split at h
        · exact absurd (finish_returned h).1 hstop
        · rw [Option.any_none,if_neg Bool.false_ne_true]
          cases hlaunch : launch codec spec execute state name plan with
          | mk answer next =>
            rw [hlaunch] at h
            cases answer with
            | error e => cases h
            | ok result =>
              simp only at h ⊢
              split at h
              · rename_i hinterrupted
                rw [if_pos hinterrupted]
                exact h
              · rename_i hinterrupted
                rw [if_neg hinterrupted]
                exact ih h

end Limits

section Kept

variable {J : Type} {codec : Codec J} {planHash : DeploymentPlan → String} {random : Randomness}
variable {spec : SweepSpec} {execute : Executor J} {limit : Option ℕ} {steps : List Step}
variable {state next final : RunState J} {name : String} {plan : DeploymentPlan}

/-- What is saved stays, and what was executed was not saved before. -/
structure Kept (before after : RunState J) (jobs : List String) : Prop where
  /-- These jobs were executed. -/
  executed : after.executed=before.executed++jobs
  /-- Each of them once. -/
  once : jobs.Nodup
  /-- None of them was saved. -/
  unsaved : ∀ job∈jobs,before.directory.saved job=none
  /-- Saved results are left alone. -/
  saved : ∀ job saved,before.directory.saved job=some saved →
    after.directory.saved job=some saved ∧
      after.directory.evidence job=before.directory.evidence job

/-- Everything that was executed is saved. -/
def AllSaved (after : RunState J) (jobs : List String) : Prop :=
  ∀ job∈jobs,after.directory.saved job≠none

/-- Nothing happened to the files but for the summary. -/
theorem kept_refl {before after : RunState J} (hexecuted : after.executed=before.executed)
    (hsaved : after.directory.saved=before.directory.saved)
    (hevidence : after.directory.evidence=before.directory.evidence) : Kept before after [] where
  executed := by rw [List.append_nil,hexecuted]
  once := List.nodup_nil
  unsaved := fun _ h => absurd h List.not_mem_nil
  saved := fun job saved h => ⟨by rw [hsaved]; exact h,by rw [hevidence]⟩

/-- One after the other. -/
theorem Kept.trans {jobs more : List String} (h : Kept state next jobs)
    (hall : AllSaved next jobs) (hnext : Kept next final more) :
    Kept state final (jobs++more) where
  executed := by rw [hnext.executed,h.executed,List.append_assoc]
  once := by
    refine List.nodup_append.mpr ⟨h.once,hnext.once,?_⟩
    rintro job hjob other hother rfl
    exact hall job hjob (hnext.unsaved job hother)
  unsaved := by
    intro job hjob
    rcases List.mem_append.mp hjob with hjob|hjob
    · exact h.unsaved job hjob
    · cases hsaved : state.directory.saved job with
      | none => rfl
      | some saved =>
        have hnone := hnext.unsaved job hjob
        rw [(h.saved job saved hsaved).1] at hnone
        cases hnone
  saved := by
    intro job saved hsaved
    obtain ⟨hmiddle,hevidence⟩ := h.saved job saved hsaved
    obtain ⟨hafter,hlast⟩ := hnext.saved job saved hmiddle
    exact ⟨hafter,hlast.trans hevidence⟩

/-- Saved afterwards as well. -/
theorem AllSaved.trans {jobs more : List String} (hall : AllSaved next jobs)
    (hnext : Kept next final more) (hmore : AllSaved final more) :
    AllSaved final (jobs++more) := by
  intro job hjob
  rcases List.mem_append.mp hjob with hjob|hjob
  · cases hsaved : next.directory.saved job with
    | none => exact absurd hsaved (hall job hjob)
    | some saved =>
      rw [(hnext.saved job saved hsaved).1]
      exact Option.some_ne_none _
  · exact hmore job hjob

/-- Writing evidence touches one job. -/
theorem withEvidence_other (directory : Directory J) {job : String} (hne : job≠name)
    (evidence : Option J) :
    (directory.withEvidence name evidence).evidence job=directory.evidence job := by
  cases evidence with
  | none => rfl
  | some evidence => exact Function.update_of_ne hne _ _

/-- Writing evidence saves nothing. -/
theorem withEvidence_saved (directory : Directory J) (evidence : Option J) :
    (directory.withEvidence name evidence).saved=directory.saved := by
  cases evidence with
  | none => rfl
  | some evidence => rfl

/-- A launched job was executed, and its result saved if it is valid. -/
theorem launch_cases (codec : Codec J) (spec : SweepSpec) (execute : Executor J)
    (state : RunState J) (name : String) (plan : DeploymentPlan) :
    (∃ e,launch codec spec execute state name plan=
      (.error e,state.executing name (execute spec name plan).1)) ∨
    ∃ result,(execute spec name plan).2=.ok result ∧
      launch codec spec execute state name plan=
        ((accept codec spec ((state.executing name (execute spec name plan).1).saving codec name
            result).directory name plan result).map fun _ => result,
          (state.executing name (execute spec name plan).1).saving codec name result) := by
  unfold launch
  cases hanswer : (execute spec name plan).2 with
  | error e => exact .inl ⟨e,rfl⟩
  | ok result =>
    cases hvalid : validateResult spec result name plan with
    | error e =>
      refine .inl ⟨e,?_⟩
      simp only [hvalid]
    | ok u =>
      refine .inr ⟨result,rfl,?_⟩
      simp only [hvalid]

/-- Execution keeps what is saved. -/
theorem executing_kept (h : state.directory.saved name=none) (evidence : Option J) :
    Kept state (state.executing name evidence) [name] where
  executed := rfl
  once := List.nodup_singleton _
  unsaved := fun job hjob => by rw [List.mem_singleton.mp hjob,h]
  saved := by
    intro job saved hsaved
    have hne : job≠name := by
      rintro rfl
      rw [h] at hsaved
      cases hsaved
    refine ⟨?_,withEvidence_other _ hne _⟩
    rw [←hsaved]
    exact congrFun (withEvidence_saved _ _) job

/-- So does saving the result. -/
theorem saving_kept (h : state.directory.saved name=none) (evidence : Option J)
    (result : JobResult) :
    Kept state ((state.executing name evidence).saving codec name result) [name] ∧
      AllSaved ((state.executing name evidence).saving codec name result) [name] := by
  have hexecuting := executing_kept h evidence
  refine ⟨⟨hexecuting.executed,hexecuting.once,hexecuting.unsaved,?_⟩,?_⟩
  · intro job saved hsaved
    have hne : job≠name := by
      rintro rfl
      rw [h] at hsaved
      cases hsaved
    obtain ⟨hsame,hevidence⟩ := hexecuting.saved job saved hsaved
    exact ⟨(Function.update_of_ne hne _ _).trans hsame,hevidence⟩
  · intro job hjob
    rw [List.mem_singleton.mp hjob]
    change Function.update (state.executing name evidence).directory.saved name _ name≠none
    rw [Function.update_self]
    exact Option.some_ne_none _

/-- Finishing early leaves results and evidence alone. -/
theorem finish_kept (stop : Stop) : Kept state (finish planHash random spec stop state).state [] := by
  unfold finish
  cases summarize planHash random spec state.results with
  | error e => exact kept_refl rfl rfl rfl
  | ok summary => exact kept_refl rfl rfl rfl

/-- A whole run keeps what is saved, and executes each unsaved job at most once. If
it returns, everything it executed is saved. -/
theorem runSteps_kept :
    ∃ jobs,Kept state (runSteps codec planHash random spec execute limit steps state).state jobs ∧
      ∀ stop summary,runSteps codec planHash random spec execute limit steps state=
        .returned stop summary final → AllSaved final jobs := by
  induction steps generalizing state with
  | nil =>
    refine ⟨[],?_,fun _ _ _ job hjob => absurd hjob List.not_mem_nil⟩
    rw [runSteps]
    cases summarize planHash random spec state.results with
    | error e => exact kept_refl rfl rfl rfl
    | ok summary => exact kept_refl rfl rfl rfl
  | cons step steps ih =>
    cases step with
    | raise e =>
      exact ⟨[],kept_refl rfl rfl rfl,fun _ _ _ job hjob => absurd hjob List.not_mem_nil⟩
    | endRound round =>
      rw [runSteps]
      cases summarize planHash random spec state.results with
      | error e =>
        exact ⟨[],kept_refl rfl rfl rfl,fun _ _ _ job hjob => absurd hjob List.not_mem_nil⟩
      | ok summary =>
        simp only
        split
        · exact ⟨[],kept_refl rfl rfl rfl,fun _ _ _ job hjob => absurd hjob List.not_mem_nil⟩
        · obtain ⟨jobs,hkept,hall⟩ := @ih (state.summarized summary)
          exact ⟨jobs,⟨hkept.executed,hkept.once,hkept.unsaved,hkept.saved⟩,hall⟩
    | job name plan =>
      rw [runSteps]
      cases hsaved : state.directory.saved name with
      | some saved =>
        simp only
        cases replay codec spec state.directory name plan saved with
        | error e =>
          exact ⟨[],kept_refl rfl rfl rfl,fun _ _ _ job hjob => absurd hjob List.not_mem_nil⟩
        | ok result =>
          obtain ⟨jobs,hkept,hall⟩ := @ih (state.count result)
          exact ⟨jobs,⟨hkept.executed,hkept.once,hkept.unsaved,hkept.saved⟩,hall⟩
      | none =>
        simp only
        split
        · refine ⟨[],finish_kept _,fun _ _ _ job hjob => absurd hjob List.not_mem_nil⟩
        · rcases launch_cases codec spec execute state name plan with
            ⟨e,hlaunch⟩|⟨result,-,hlaunch⟩
          · rw [hlaunch]
            exact ⟨[name],executing_kept hsaved _,fun _ _ h => nomatch h⟩
          · rw [hlaunch]
            generalize hnext : (state.executing name (execute spec name plan).1).saving codec name
              result=next
            have hkept : Kept state next [name] ∧ AllSaved next [name] := by
              rw [←hnext]
              exact saving_kept hsaved _ result
            cases accept codec spec next.directory name plan result with
            | error e => exact ⟨[name],hkept.1,fun _ _ h => nomatch h⟩
            | ok u =>
              simp only [Except.map]
              have hcounted : Kept state (next.count result) [name] :=
                ⟨hkept.1.executed,hkept.1.once,hkept.1.unsaved,hkept.1.saved⟩
              have hname : AllSaved (next.count result) [name] := hkept.2
              split
              · refine ⟨[name]++[],hcounted.trans hname (finish_kept _),fun stop summary h => ?_⟩
                obtain ⟨-,-,heq⟩ := finish_returned h
                rw [List.append_nil,heq]
                exact hname
              · obtain ⟨jobs,hrest,hall⟩ := @ih (next.count result)
                refine ⟨[name]++jobs,hcounted.trans hname hrest,fun stop summary h => ?_⟩
                have hfinal := hall stop summary h
                rw [h] at hrest
                exact hname.trans hrest hfinal

end Kept

/-- Variables that lead to the same results: the number of launches and the
summary file do not matter. -/
structure Alike {J : Type} (state other : RunState J) : Prop where
  /-- The results so far. -/
  results : other.results=state.results
  /-- The saved results. -/
  saved : other.directory.saved=state.directory.saved
  /-- Their evidence. -/
  evidence : other.directory.evidence=state.directory.evidence

/-- Two runs ended in the same way, having executed the same jobs since then. -/
def Agrees {J : Type} (before before' : List String) : Outcome J → Outcome J → Prop
  | .returned stop summary state,.returned stop' summary' state' =>
    stop'=stop ∧ summary'=summary ∧ Alike state state' ∧
      ∃ jobs,state.executed=before++jobs ∧ state'.executed=before'++jobs
  | .raised e state,.raised e' state' =>
    e'=e ∧ Alike state state' ∧ ∃ jobs,state.executed=before++jobs ∧ state'.executed=before'++jobs
  | _,_ => False

section Simulation

variable {J : Type} {codec : Codec J} {planHash : DeploymentPlan → String} {random : Randomness}
variable {spec : SweepSpec} {execute : Executor J} {limit : ℕ} {steps : List Step}
variable {state other final : RunState J} {name : String} {plan : DeploymentPlan}
variable {before before' : List String} {result : JobResult}

/-- Agreement since then. -/
theorem Agrees.since {jobs : List String} {o o' : Outcome J}
    (h : Agrees (before++jobs) (before'++jobs) o o') : Agrees before before' o o' := by
  cases o with
  | returned stop summary state =>
    cases o' with
    | returned stop' summary' state' =>
      obtain ⟨hstop,hsummary,halike,more,hexecuted,hexecuted'⟩ := h
      refine ⟨hstop,hsummary,halike,jobs++more,?_,?_⟩
      · rw [hexecuted,List.append_assoc]
      · rw [hexecuted',List.append_assoc]
    | raised e' state' => exact h
  | raised e state =>
    cases o' with
    | returned stop' summary' state' => exact h
    | raised e' state' =>
      obtain ⟨he,halike,more,hexecuted,hexecuted'⟩ := h
      refine ⟨he,halike,jobs++more,?_,?_⟩
      · rw [hexecuted,List.append_assoc]
      · rw [hexecuted',List.append_assoc]

/-- Raising at once. -/
theorem agrees_raised (h : Alike state other) (e : Raised) :
    Agrees state.executed other.executed (.raised e state) (.raised e other) :=
  ⟨rfl,h,[],(List.append_nil _).symm,(List.append_nil _).symm⟩

/-- Returning at once. -/
theorem agrees_returned (h : Alike state other) (stop : Stop) (summary : Summary) :
    Agrees state.executed other.executed (.returned stop summary state)
      (.returned stop summary other) :=
  ⟨rfl,rfl,h,[],(List.append_nil _).symm,(List.append_nil _).symm⟩

/-- They are summarized alike. -/
theorem Alike.summarize_eq (h : Alike state other) :
    summarize planHash random spec other.results=summarize planHash random spec state.results := by
  rw [h.results]

/-- A written summary. -/
theorem Alike.summarized (h : Alike state other) (summary : Summary) :
    Alike (state.summarized summary) (other.summarized summary) :=
  ⟨h.results,h.saved,h.evidence⟩

/-- A counted result. -/
theorem Alike.counted (h : Alike state other) (result : JobResult) :
    Alike (state.count result) (other.count result) :=
  ⟨congrArg (·++[result]) h.results,h.saved,h.evidence⟩

/-- An executed job. -/
theorem Alike.executing (h : Alike state other) (evidence : Option J) :
    Alike (state.executing name evidence) (other.executing name evidence) := by
  refine ⟨h.results,?_,?_⟩
  · change (other.directory.withEvidence name evidence).saved=
      (state.directory.withEvidence name evidence).saved
    rw [withEvidence_saved,withEvidence_saved,h.saved]
  · cases evidence with
    | none => exact h.evidence
    | some evidence =>
      change Function.update other.directory.evidence name _=
        Function.update state.directory.evidence name _
      rw [h.evidence]

/-- A saved result. -/
theorem Alike.saving (h : Alike state other) :
    Alike (state.saving codec name result) (other.saving codec name result) := by
  refine ⟨h.results,?_,h.evidence⟩
  change Function.update other.directory.saved name _=Function.update state.directory.saved name _
  rw [h.saved]

/-- Acceptance reads the evidence of its job. -/
theorem accept_congr {directory directory' : Directory J}
    (h : directory'.evidence name=directory.evidence name) :
    accept codec spec directory' name plan result=accept codec spec directory name plan result := by
  unfold accept
  rw [h]

/-- So does replaying. -/
theorem replay_congr {directory directory' : Directory J}
    (h : directory'.evidence name=directory.evidence name) (saved : Saved J) :
    replay codec spec directory' name plan saved=replay codec spec directory name plan saved := by
  unfold replay
  simp only [accept_congr h]

/-- A result that was saved and accepted is replayed. -/
theorem replay_saved {directory : Directory J}
    (h : accept codec spec directory name plan result=.ok ()) :
    replay codec spec directory name plan
      ⟨codec.encodeResult result,codec.digest (codec.encodeResult result)⟩=.ok result := by
  unfold replay
  rw [check_bind]
  refine ⟨rfl,?_⟩
  rw [codec.result_read]
  change (accept codec spec directory name plan result >>= fun _ => pure result)=.ok result
  rw [h]
  rfl

/-- Finishing early agrees. -/
theorem finish_agrees (h : Alike state other) (stop : Stop) :
    Agrees state.executed other.executed (finish planHash random spec stop state)
      (finish planHash random spec stop other) := by
  unfold finish
  rw [h.summarize_eq]
  cases summarize planHash random spec state.results with
  | error e => exact agrees_raised h e
  | ok summary => exact agrees_returned (h.summarized summary) stop summary

/-- Runs without a limit from such variables agree. -/
theorem runSteps_alike (h : Alike state other) :
    Agrees state.executed other.executed
      (runSteps codec planHash random spec execute none steps state)
      (runSteps codec planHash random spec execute none steps other) := by
  induction steps generalizing state other with
  | nil =>
    rw [runSteps,runSteps,h.summarize_eq]
    cases summarize planHash random spec state.results with
    | error e => exact agrees_raised h e
    | ok summary => exact agrees_returned h .exhausted summary
  | cons step steps ih =>
    cases step with
    | raise e => exact agrees_raised h e
    | endRound round =>
      rw [runSteps,runSteps,h.summarize_eq]
      cases summarize planHash random spec state.results with
      | error e => exact agrees_raised h e
      | ok summary =>
        simp only
        split
        · exact agrees_returned (h.summarized summary) .decided summary
        · exact ih (h.summarized summary)
    | job name plan =>
      rw [runSteps,runSteps,h.saved]
      cases state.directory.saved name with
      | some saved =>
        simp only
        rw [replay_congr (congrFun h.evidence name)]
        cases replay codec spec state.directory name plan saved with
        | error e => exact agrees_raised h e
        | ok result => exact ih (h.counted result)
      | none =>
        simp only [Option.any_none,Bool.false_eq_true,if_false]
        have hexecuting : Alike (state.executing name (execute spec name plan).1)
            (other.executing name (execute spec name plan).1) := h.executing _
        unfold launch
        cases (execute spec name plan).2 with
        | error e => exact (agrees_raised hexecuting e).since
        | ok result =>
          simp only
          cases validateResult spec result name plan with
          | error e => exact (agrees_raised hexecuting e).since
          | ok u =>
            have hsaving : Alike
                ((state.executing name (execute spec name plan).1).saving codec name result)
                ((other.executing name (execute spec name plan).1).saving codec name result) :=
              hexecuting.saving
            simp only
            rw [accept_congr (congrFun hsaving.evidence name)]
            cases accept codec spec ((state.executing name (execute spec name plan).1).saving codec
              name result).directory name plan result with
            | error e => exact (agrees_raised hsaving e).since
            | ok u =>
              simp only [Except.map]
              split
              · exact (finish_agrees (hsaving.counted result) .interrupted).since
              · exact (ih (hsaving.counted result)).since

/-- After a run that stopped at its limit, its directory leads on to where the run
would have led without the limit. -/
theorem runSteps_resume {summary : Summary}
    (h : runSteps codec planHash random spec execute (some limit) steps state=
      .returned .limit summary final)
    (hresults : other.results=state.results)
    (hsaved : other.directory.saved=final.directory.saved)
    (hevidence : other.directory.evidence=final.directory.evidence) :
    Agrees final.executed other.executed
      (runSteps codec planHash random spec execute none steps state)
      (runSteps codec planHash random spec execute none steps other) := by
  induction steps generalizing state other with
  | nil =>
    rw [runSteps] at h
    cases hsummary : summarize planHash random spec state.results with
    | error e =>
      rw [hsummary] at h
      cases h
    | ok made =>
      rw [hsummary] at h
      cases h
  | cons step steps ih =>
    cases step with
    | raise e => cases h
    | endRound round =>
      rw [runSteps] at h
      rw [runSteps,runSteps,hresults]
      cases hsummary : summarize planHash random spec state.results with
      | error e =>
        rw [hsummary] at h
        cases h
      | ok made =>
        rw [hsummary] at h
        simp only at h ⊢
        split at h
        · cases h
        · rename_i hdecided
          rw [if_neg hdecided,if_neg hdecided]
          exact ih h hresults hsaved hevidence
    | job name plan =>
      obtain ⟨jobs,hkept,-⟩ := @runSteps_kept J codec planHash random spec execute (some limit)
        (.job name plan::steps) state final
      rw [h] at hkept
      rw [runSteps] at h
      rw [runSteps,runSteps]
      cases hmine : state.directory.saved name with
      | some saved =>
        obtain ⟨hlast,hsame⟩ := hkept.saved name saved hmine
        have hother : other.directory.saved name=some saved := by
          rw [hsaved]
          exact hlast
        have hread : other.directory.evidence name=state.directory.evidence name := by
          rw [hevidence]
          exact hsame
        rw [hmine] at h
        rw [hother]
        simp only at h ⊢
        rw [replay_congr hread]
        cases hreplay : replay codec spec state.directory name plan saved with
        | error e =>
          rw [hreplay] at h
          cases h
        | ok result =>
          rw [hreplay] at h
          exact ih h (congrArg (·++[result]) hresults) hsaved hevidence
      | none =>
        rw [hmine] at h
        simp only at h ⊢
        split at h
        · obtain ⟨-,-,hfinal⟩ := finish_returned h
          rw [hfinal] at hsaved hevidence ⊢
          have halike : Alike state other := ⟨hresults,hsaved,hevidence⟩
          have hrest := @runSteps_alike J codec planHash random spec execute
            (.job name plan::steps) state other halike
          rw [runSteps,runSteps,hmine] at hrest
          exact hrest
        · rcases launch_cases codec spec execute state name plan with
            ⟨e,hlaunch⟩|⟨result,-,hlaunch⟩
          · rw [hlaunch] at h
            cases h
          · rw [hlaunch] at h ⊢
            generalize hnext : (state.executing name (execute spec name plan).1).saving codec name
              result=next at h ⊢
            have hentry : next.directory.saved name=
                some ⟨codec.encodeResult result,codec.digest (codec.encodeResult result)⟩ := by
              rw [←hnext]
              exact Function.update_self ..
            cases haccept : accept codec spec next.directory name plan result with
            | error e =>
              rw [haccept] at h
              cases h
            | ok u =>
              rw [haccept] at h
              simp only [Except.map,Option.any_none,Bool.false_eq_true,if_false] at h ⊢
              split at h
              · obtain ⟨hstop,-⟩ := finish_returned h
                cases hstop
              · rename_i hinterrupted
                obtain ⟨more,hrest,-⟩ := @runSteps_kept J codec planHash random spec execute
                  (some limit) steps (next.count result) final
                rw [h] at hrest
                obtain ⟨hlast,hsame⟩ := hrest.saved name _ hentry
                have hother : other.directory.saved name=
                    some ⟨codec.encodeResult result,codec.digest (codec.encodeResult result)⟩ := by
                  rw [hsaved]
                  exact hlast
                have hread : other.directory.evidence name=next.directory.evidence name := by
                  rw [hevidence]
                  exact hsame
                have hadmitted : accept codec spec other.directory name plan result=.ok () := by
                  rw [accept_congr hread]
                  exact haccept
                rw [hother]
                simp only [replay_saved hadmitted,if_neg hinterrupted]
                have hcount : next.results=state.results := by
                  rw [←hnext]
                  rfl
                refine ih h ?_ hsaved hevidence
                change other.results++[result]=next.results++[result]
                rw [hresults,hcount]

end Simulation

section Returns

variable {J : Type} {codec : Codec J} {planHash : DeploymentPlan → String} {random : Randomness}
variable {spec : SweepSpec} {execute : Executor J} {limit : Option ℕ} {steps : List Step}
variable {results : List JobResult} {result : JobResult}

/-- The selected candidate is a placement. -/
def Schedulable (planHash : DeploymentPlan → String) (spec : SweepSpec) : Prop :=
  ∃ plan∈placements planHash spec,
    plan.selectedCandidateId=spec.selectedPlan.selectedCandidateId

/-- A result that counts for the sweep. -/
def Valid (planHash : DeploymentPlan → String) (random : Randomness) (spec : SweepSpec)
    (result : JobResult) : Prop :=
  ∃ round < spec.maximumRepetitions,∃ jobs plan,schedule planHash random spec round=.ok jobs ∧
    (result.jobId,plan)∈jobs ∧ validateResult spec result result.jobId plan=.ok ()

/-- A condition that holds is passed. -/
theorem check_bind_of {α : Type} {condition : Prop} [Decidable condition] {message : String}
    {rest : Unit → Except Raised α} (h : condition) :
    (check condition message >>= rest)=rest () := by
  rw [check_ok_iff.mpr h]
  rfl

/-- A valid result of a new job is covered. -/
theorem coverResult_returns {coverage : Coverage}
    (h : Covers planHash random spec coverage results) (hnew : result.jobId∉coverage.seen)
    (hvalid : Valid planHash random spec result) :
    ∃ next,coverResult planHash random spec coverage result=.ok next := by
  obtain ⟨round,hbound,jobs,plan,hschedule,hmem,hresult⟩ := hvalid
  have hround : roundOf result.jobId=.ok round := schedule_round hschedule
    (lt_of_lt_of_le hbound spec.maximumRepetitions_le) (List.mem_map_of_mem hmem)
  have hplan : jobs.lookup result.jobId=some plan :=
    OrderedMap.lookup_of_mem (schedule_nodup hschedule) hmem
  unfold coverResult
  rw [check_bind_of hnew,hround]
  change ∃ next,(check (round < spec.maximumRepetitions) _ >>= _)=.ok next
  rw [check_bind_of hbound]
  cases hknown : coverage.rounds.lookup round with
  | some other =>
    have hother := (h.scheduled round other (OrderedMap.mem_of_lookup hknown)).1
    rw [hschedule] at hother
    have heq : jobs=other := Except.ok.inj hother
    refine ⟨⟨coverage.rounds,result.jobId::coverage.seen⟩,?_⟩
    simp only [bind,Except.bind,hknown,Option.bind_some,←heq,hplan]
    rw [hresult]
    rfl
  | none =>
    refine ⟨⟨coverage.rounds++[(round,jobs)],result.jobId::coverage.seen⟩,?_⟩
    have hfound : (coverage.rounds++[(round,jobs)]).lookup round=some jobs := by
      rw [List.lookup_append,hknown,Option.none_or,List.lookup_cons_self]
    rw [hschedule]
    simp only [bind,Except.bind,Except.map,hfound,Option.bind_some,hplan]
    rw [hresult]
    rfl

/-- Valid results of distinct jobs are all covered. -/
theorem cover_returns {coverage : Coverage} {more : List JobResult}
    (h : Covers planHash random spec coverage results)
    (hnodup : ((results++more).map (·.jobId)).Nodup)
    (hvalid : ∀ r∈more,Valid planHash random spec r) :
    ∃ next,more.foldlM (coverResult planHash random spec) coverage=.ok next := by
  induction more generalizing coverage results with
  | nil => exact ⟨coverage,rfl⟩
  | cons r more ih =>
    have hnew : r.jobId∉coverage.seen := by
      rw [h.seen,List.mem_reverse]
      rw [List.map_append,List.map_cons] at hnodup
      exact fun hmem => (List.nodup_append.mp hnodup).2.2 _ hmem _ (.head _) rfl
    obtain ⟨next,hnext⟩ := coverResult_returns h hnew (hvalid r (.head _))
    obtain ⟨last,hlast⟩ := ih (h.step hnext)
      (by rw [List.append_assoc,List.singleton_append]; exact hnodup)
      fun other hother => hvalid other (.tail _ hother)
    refine ⟨last,?_⟩
    rw [List.foldlM_cons,hnext]
    exact hlast

/-- Valid results of distinct jobs are summarized. -/
theorem summarize_returns (hnodup : (results.map (·.jobId)).Nodup)
    (hvalid : ∀ r∈results,Valid planHash random spec r) :
    ∃ summary,summarize planHash random spec results=.ok summary := by
  obtain ⟨coverage,hcoverage⟩ := cover_returns covers_nil hnodup hvalid
  have hforeign : ∀ r∈results,
      r.candidateId∈(placements planHash spec).map (·.selectedCandidateId) ∧
        r.sweepDigest=spec.sweepDigest := by
    intro r hr
    obtain ⟨round,-,jobs,plan,hschedule,hmem,hresult⟩ := hvalid r hr
    obtain ⟨hdigest,-,hcandidate⟩ := validateResult_scope hresult
    refine ⟨?_,hdigest⟩
    rw [hcandidate]
    exact List.mem_map_of_mem (schedule_placed hschedule hmem)
  refine ⟨summaryOf planHash random spec coverage results,?_⟩
  unfold summarize
  rw [hcoverage]
  change (check _ _ >>= _)=_
  rw [check_bind_of hforeign]
  rfl

/-- An executor is a function of the job that writes the evidence it digests,
returns valid results and reports no interruption. -/
def Conforms (codec : Codec J) (planHash : DeploymentPlan → String) (random : Randomness)
    (spec : SweepSpec) (execute : Executor J) : Prop :=
  ∀ round < spec.maximumRepetitions,∀ name plan,(name,plan)∈jobsOf planHash random spec round →
    ∃ evidence result,execute spec name plan=(some evidence,.ok result) ∧
      codec.digest evidence=result.evidenceDigest ∧
      validateResult spec result name plan=.ok () ∧ isInterrupted result=false

/-- A job is not saved, or with a result that is accepted. -/
def Faithful (codec : Codec J) (spec : SweepSpec) (directory : Directory J)
    (job : String×DeploymentPlan) : Prop :=
  directory.saved job.1=none ∨ ∃ result,
    directory.saved job.1=
      some ⟨codec.encodeResult result,codec.digest (codec.encodeResult result)⟩ ∧
    accept codec spec directory job.1 job.2 result=.ok ()

/-- A job of the sweep that its executor can do. -/
def Doable (codec : Codec J) (planHash : DeploymentPlan → String) (random : Randomness)
    (spec : SweepSpec) (execute : Executor J) (job : String×DeploymentPlan) : Prop :=
  (∃ round < spec.maximumRepetitions,∃ jobs,schedule planHash random spec round=.ok jobs ∧
    job∈jobs) ∧
  ∃ evidence result,execute spec job.1 job.2=(some evidence,.ok result) ∧
    codec.digest evidence=result.evidenceDigest ∧
    validateResult spec result job.1 job.2=.ok () ∧ isInterrupted result=false

/-- Jobs among the steps. -/
def jobsIn (steps : List Step) : List (String×DeploymentPlan) :=
  steps.filterMap fun step =>
    match step with
    | .job name plan => some (name,plan)
    | _ => none

/-- An accepted result of a job of the sweep is valid, and about the job. -/
theorem valid_of_accepted {directory : Directory J} {job : String×DeploymentPlan}
    (hdoable : Doable codec planHash random spec execute job)
    (h : accept codec spec directory job.1 job.2 result=.ok ()) :
    Valid planHash random spec result ∧ result.jobId=job.1 := by
  unfold accept at h
  rw [call_bind] at h
  obtain ⟨_,hresult,-⟩ := h
  obtain ⟨⟨round,hround,jobs,hschedule,hmem⟩,-⟩ := hdoable
  have hid : result.jobId=job.1 := (validateResult_scope hresult).2.1
  refine ⟨⟨round,hround,jobs,job.2,hschedule,?_,?_⟩,hid⟩
  · rw [hid]
    exact hmem
  · rw [hid]
    exact hresult

/-- What holds before the remaining steps of a run. -/
structure Ready (codec : Codec J) (planHash : DeploymentPlan → String) (random : Randomness)
    (spec : SweepSpec) (execute : Executor J) (all : List (String×DeploymentPlan))
    (steps : List Step) (state : RunState J) : Prop where
  /-- Past and remaining jobs are distinct. -/
  distinct : (state.results.map (·.jobId)++(jobsIn steps).map Prod.fst).Nodup
  /-- Results are valid. -/
  valid : ∀ r∈state.results,Valid planHash random spec r
  /-- Remaining jobs are among all of them. -/
  among : ∀ job∈jobsIn steps,job∈all
  /-- The files are in order. -/
  faithful : ∀ job∈all,Faithful codec spec state.directory job
  /-- No step raises. -/
  calm : ∀ e,Step.raise e∉steps

variable {all : List (String×DeploymentPlan)} {state : RunState J}

/-- Results of a ready run are summarized. -/
theorem Ready.summarized (h : Ready codec planHash random spec execute all steps state) :
    ∃ summary,summarize planHash random spec state.results=.ok summary :=
  summarize_returns (List.nodup_append.mp h.distinct).1 h.valid

/-- Files stay in order when a job that is executed gets its result. -/
theorem faithful_saving {job other : String×DeploymentPlan} {evidence : J}
    (hall : ∀ a∈all,∀ b∈all,a.1=b.1 → a=b) (hjob : job∈all) (hother : other∈all)
    (h : Faithful codec spec state.directory other)
    (haccept : accept codec spec ((state.executing job.1 (some evidence)).saving codec job.1
      result).directory job.1 job.2 result=.ok ()) :
    Faithful codec spec
      ((state.executing job.1 (some evidence)).saving codec job.1 result).directory other := by
  by_cases hsame : other.1=job.1
  · rw [hall other hother job hjob hsame]
    exact .inr ⟨result,Function.update_self ..,haccept⟩
  · have hsaved : ((state.executing job.1 (some evidence)).saving codec job.1
        result).directory.saved other.1=state.directory.saved other.1 :=
      Function.update_of_ne hsame _ _
    have hevidence : ((state.executing job.1 (some evidence)).saving codec job.1
        result).directory.evidence other.1=state.directory.evidence other.1 :=
      Function.update_of_ne hsame _ _
    rcases h with hnone|⟨kept,hkept,hadmitted⟩
    · exact .inl (hsaved.trans hnone)
    · refine .inr ⟨kept,hsaved.trans hkept,?_⟩
      rw [accept_congr hevidence]
      exact hadmitted

/-- A ready run returns, with its files in order. -/
theorem runSteps_returns (hall : ∀ a∈all,∀ b∈all,a.1=b.1 → a=b)
    (hdoable : ∀ job∈all,Doable codec planHash random spec execute job)
    (h : Ready codec planHash random spec execute all steps state) :
    ∃ stop summary final,
      runSteps codec planHash random spec execute limit steps state=
        .returned stop summary final ∧ stop≠.interrupted ∧ (limit=none → stop≠.limit) ∧
      ∀ job∈all,Faithful codec spec final.directory job := by
  induction steps generalizing state with
  | nil =>
    obtain ⟨summary,hsummary⟩ := h.summarized
    refine ⟨.exhausted,summary,state,?_,by decide,fun _ => by decide,h.faithful⟩
    rw [runSteps,hsummary]
  | cons step steps ih =>
    obtain ⟨summary,hsummary⟩ := h.summarized
    cases step with
    | raise e => exact absurd (.head _) (h.calm e)
    | endRound round =>
      rw [runSteps,hsummary]
      simp only
      split
      · exact ⟨.decided,summary,_,rfl,by decide,fun _ => by decide,h.faithful⟩
      · exact ih ⟨h.distinct,h.valid,h.among,h.faithful,fun e he => h.calm e (.tail _ he)⟩
    | job name plan =>
      have hmem : (name,plan)∈all := h.among _ (.head _)
      have hready : ∀ {result : JobResult} {next : RunState J},
          accept codec spec next.directory name plan result=.ok () → next.results=state.results →
          (∀ job∈all,Faithful codec spec next.directory job) →
          Ready codec planHash random spec execute all steps (next.count result) := by
        intro result next haccept hresults hfaithful
        obtain ⟨hvalid,hid⟩ :=
          @valid_of_accepted J codec planHash random spec execute result next.directory (name,plan)
            (hdoable _ hmem) haccept
        refine ⟨?_,?_,fun job hjob => h.among job (.tail _ hjob),hfaithful,
          fun e he => h.calm e (.tail _ he)⟩
        · have hdistinct := h.distinct
          change ((next.results++[result]).map (·.jobId)++(jobsIn steps).map Prod.fst).Nodup
          rw [hresults,List.map_append,List.map_singleton,hid,List.append_assoc,
            List.singleton_append]
          exact hdistinct
        · intro r hr
          change r∈next.results++[result] at hr
          rw [hresults] at hr
          rcases List.mem_append.mp hr with hold|hlast
          · exact h.valid r hold
          · rw [List.mem_singleton.mp hlast]
            exact hvalid
      rw [runSteps]
      rcases h.faithful _ hmem with hnone|⟨result,hsaved,haccept⟩
      · change state.directory.saved name=none at hnone
        rw [hnone]
        simp only
        split
        · rename_i hlimit
          refine ⟨.limit,summary,state.summarized summary,?_,by decide,?_,h.faithful⟩
          · rw [finish,hsummary]
          · intro hlimited
            rw [hlimited] at hlimit
            cases hlimit
        · obtain ⟨-,evidence,result,hexecute,hdigest,hvalid,hcalm⟩ := hdoable _ hmem
          have haccept : accept codec spec ((state.executing name (some evidence)).saving codec name
              result).directory name plan result=.ok () := by
            unfold accept
            rw [hvalid]
            have hread : ((state.executing name (some evidence)).saving codec name
                result).directory.evidence name=some evidence := Function.update_self ..
            rw [hread]
            exact check_ok_iff.mpr hdigest
          have hlaunch : launch codec spec execute state name plan=
              (.ok result,(state.executing name (some evidence)).saving codec name result) := by
            unfold launch
            change execute spec name plan=_ at hexecute
            change validateResult spec result name plan=.ok () at hvalid
            simp only [hexecute,hvalid,haccept]
            rfl
          rw [hlaunch]
          simp only
          rw [if_neg (by rw [hcalm]; decide)]
          exact ih (hready haccept rfl fun other hother =>
            @faithful_saving J codec spec result all state (name,plan) other evidence hall hmem
              hother (h.faithful other hother) haccept)
      · change state.directory.saved name=_ at hsaved
        rw [hsaved]
        simp only [replay_saved haccept]
        exact ih (hready haccept rfl h.faithful)

end Returns

section Programs

variable {J : Type} {codec : Codec J} {planHash : DeploymentPlan → String} {random : Randomness}
variable {spec : SweepSpec} {execute : Executor J} {limit : Option ℕ} {directory : Directory J}

/-- Whether a round can be scheduled does not depend on the round. -/
theorem schedule_returns (h : Schedulable planHash spec) (round : ℕ) :
    schedule planHash random spec round=.ok (jobsOf planHash random spec round) := by
  obtain ⟨plan,hplan,hid⟩ := h
  rw [jobsOf]
  cases hschedule : schedule planHash random spec round with
  | ok jobs => rfl
  | error e =>
    unfold schedule at hschedule
    split at hschedule
    · rename_i hnone
      rw [List.find?_eq_none] at hnone
      have hmem := (random.shuffle_perm (spec.seed+round) _).mem_iff.mpr hplan
      exact absurd (decide_eq_true hid) (hnone plan hmem)
    · cases hschedule

/-- Without the selected placement nothing can be scheduled. -/
theorem schedule_raises (h : ¬Schedulable planHash spec) (round : ℕ) :
    schedule planHash random spec round=.error (.evaluation "StopIteration") := by
  unfold schedule
  split
  · rfl
  · rename_i plan hfound
    have hid := List.find?_some hfound
    refine absurd ⟨plan,?_,of_decide_eq_true hid⟩ h
    exact (random.shuffle_perm _ _).mem_iff.mp (List.mem_of_find?_eq_some hfound)

/-- The steps of a sweep that can be scheduled. -/
theorem program_eq (h : Schedulable planHash spec) :
    program planHash random spec=(List.range spec.maximumRepetitions).flatMap fun round =>
      (jobsOf planHash random spec round).map (fun job => .job job.1 job.2)++
        [.endRound round] := by
  unfold program
  congr 1
  funext round
  rw [schedule_returns h round]

/-- The jobs of a sweep. -/
def allJobs (planHash : DeploymentPlan → String) (random : Randomness) (spec : SweepSpec) :
    List (String×DeploymentPlan) :=
  (List.range spec.maximumRepetitions).flatMap (jobsOf planHash random spec)

/-- The jobs among its steps. -/
theorem jobsIn_program (h : Schedulable planHash spec) :
    jobsIn (program planHash random spec)=allJobs planHash random spec := by
  rw [program_eq h,jobsIn,List.filterMap_flatMap,allJobs]
  congr 1
  funext round
  rw [List.filterMap_append,List.filterMap_map]
  change (jobsOf planHash random spec round).filterMap some++[]=_
  rw [List.filterMap_some,List.append_nil]

/-- Jobs of a sweep have distinct ids. -/
theorem allJobs_nodup (h : Schedulable planHash spec) :
    ((allJobs planHash random spec).map Prod.fst).Nodup := by
  rw [allJobs,List.map_flatMap,List.nodup_flatMap]
  refine ⟨fun k _ => schedule_nodup (schedule_returns h k),?_⟩
  refine List.Pairwise.imp_of_mem ?_ List.nodup_range
  intro k k' hk hk' hne job hjob hjob'
  rw [List.mem_range] at hk hk'
  have hround := schedule_round (schedule_returns h k)
    (lt_of_lt_of_le hk spec.maximumRepetitions_le) hjob
  rw [schedule_round (schedule_returns h k')
    (lt_of_lt_of_le hk' spec.maximumRepetitions_le) hjob'] at hround
  exact hne (Except.ok.inj hround).symm

/-- A run of a directory in order returns, and leaves it in order. -/
theorem run_returns (hschedulable : Schedulable planHash spec)
    (hconforms : Conforms codec planHash random spec execute)
    (hfaithful : ∀ job∈allJobs planHash random spec,Faithful codec spec directory job) :
    ∃ stop summary final,
      run codec planHash random spec execute limit directory=.returned stop summary final ∧
      stop≠.interrupted ∧ (limit=none → stop≠.limit) ∧
      ∀ job∈allJobs planHash random spec,Faithful codec spec final.directory job := by
  have hinj : ∀ a∈allJobs planHash random spec,∀ b∈allJobs planHash random spec,a.1=b.1 → a=b :=
    fun a ha b hb => List.inj_on_of_nodup_map (allJobs_nodup hschedulable) ha hb
  refine runSteps_returns hinj ?_ ⟨?_,?_,?_,hfaithful,?_⟩
  · intro job hjob
    obtain ⟨round,hround,hmem⟩ := List.mem_flatMap.mp hjob
    rw [List.mem_range] at hround
    exact ⟨⟨round,hround,_,schedule_returns hschedulable round,hmem⟩,
      hconforms round hround job.1 job.2 hmem⟩
  · rw [jobsIn_program hschedulable]
    exact allJobs_nodup hschedulable
  · exact fun r hr => absurd hr List.not_mem_nil
  · rw [jobsIn_program hschedulable]
    exact fun job hjob => hjob
  · intro e he
    rw [program_eq hschedulable] at he
    obtain ⟨round,-,hmem⟩ := List.mem_flatMap.mp he
    rcases List.mem_append.mp hmem with hjob|hend
    · obtain ⟨job,-,heq⟩ := List.mem_map.mp hjob
      cases heq
    · cases List.mem_singleton.mp hend

/-- Without the selected placement a run raises at once. -/
theorem run_raises (h : ¬Schedulable planHash spec) :
    run codec planHash random spec execute limit directory=
      .raised (.evaluation "StopIteration") {directory := directory} := by
  have hpositive : 0 < spec.maximumRepetitions := by
    have henough := spec.repetitions_ge
    have hrepetitions := spec.repetitions_le
    omega
  obtain ⟨rest,hrest⟩ := Nat.exists_eq_succ_of_ne_zero (Nat.pos_iff_ne_zero.mp hpositive)
  have hprogram : ∃ steps,program planHash random spec=
      .raise (.evaluation "StopIteration")::steps := by
    unfold program
    rw [hrest,List.range_succ_eq_map,List.flatMap_cons,schedule_raises h]
    exact ⟨_,rfl⟩
  obtain ⟨steps,hsteps⟩ := hprogram
  rw [run,hsteps,runSteps]

/-- Directories that limited runs of a fresh directory lead to are in order. -/
theorem reached_faithful (hschedulable : Schedulable planHash spec)
    (hconforms : Conforms codec planHash random spec execute) {start : Directory J}
    (hfresh : ∀ job,start.saved job=none)
    (h : Reached codec planHash random spec execute start directory) :
    ∀ job∈allJobs planHash random spec,Faithful codec spec directory job := by
  induction h with
  | start => exact fun job _ => .inl (hfresh job.1)
  | run directory limit summary state _ hrun ih =>
    obtain ⟨stop,made,final,hmade,-,-,hfaithful⟩ :=
      @run_returns J codec planHash random spec execute (some limit) directory hschedulable
        hconforms ih
    rw [hrun] at hmade
    cases hmade
    exact hfaithful

/-- Sessions end as one run without a limit does, having executed the same jobs. -/
theorem sessions_agree {executed : List String} {stop : Stop} {summary : Summary}
    {state : RunState J}
    (h : Sessions codec planHash random spec execute directory executed stop summary state) :
    ∃ final,run codec planHash random spec execute none directory=.returned stop summary final ∧
      final.executed=executed ∧ Alike state final := by
  induction h with
  | last directory limit stop summary state hrun hstop =>
    cases limit with
    | none => exact ⟨state,hrun,rfl,rfl,rfl,rfl⟩
    | some limit => exact ⟨state,runSteps_unlimited hrun hstop,rfl,rfl,rfl,rfl⟩
  | resume directory limit early summary state final executed stop hrun _ ih =>
    obtain ⟨last,hlast,hexecuted,halike⟩ := ih
    have hagrees := @runSteps_resume J codec planHash random spec execute limit
      (program planHash random spec) {directory := directory} {directory := state.directory}
      state early hrun rfl rfl rfl
    change Agrees state.executed [] (run codec planHash random spec execute none directory)
      (run codec planHash random spec execute none state.directory) at hagrees
    rw [hlast] at hagrees
    cases hwhole : run codec planHash random spec execute none directory with
    | raised e whole =>
      rw [hwhole] at hagrees
      exact False.elim hagrees
    | returned stop' summary' whole =>
      rw [hwhole] at hagrees
      obtain ⟨hstop,hsummary,hsame,jobs,hwholeJobs,hlastJobs⟩ := hagrees
      rw [List.nil_append] at hlastJobs
      refine ⟨whole,by rw [hstop,hsummary],?_,?_⟩
      · rw [hwholeJobs,←hlastJobs,hexecuted]
      · exact ⟨hsame.results.symm.trans halike.results,hsame.saved.symm.trans halike.saved,
          hsame.evidence.symm.trans halike.evidence⟩

/-- What a directory holds after its sweep was frozen. -/
theorem freeze_ok {content : SweepContent} {frozen : SweepSpec} {after : Directory J}
    (h : freeze codec content directory=(.ok frozen,after)) :
    frozen=sealed codec content ∧
      ∃ text,after.sweep=some text ∧ codec.decodeSpec text=.ok frozen := by
  unfold freeze at h
  cases hsweep : directory.sweep with
  | none =>
    rw [hsweep] at h
    obtain ⟨hfrozen,hafter⟩ := Prod.mk.inj h
    have hspec : sealed codec content=frozen := Except.ok.inj hfrozen
    refine ⟨hspec.symm,codec.encodeSpec (sealed codec content),?_,?_⟩
    · rw [←hafter]
    · rw [codec.spec_read,hspec]
  | some text =>
    rw [hsweep] at h
    simp only at h
    cases hread : codec.decodeSpec text with
    | error e =>
      rw [hread] at h
      cases h
    | ok found =>
      rw [hread] at h
      simp only at h
      split at h
      · cases h
      · rename_i hsame
        obtain ⟨hfrozen,hafter⟩ := Prod.mk.inj h
        have hspec : sealed codec content=frozen := Except.ok.inj hfrozen
        refine ⟨hspec.symm,text,?_,?_⟩
        · rw [←hafter,hsweep]
        · rw [hread,not_ne_iff.mp hsame,hspec]

/-- A frozen sweep is kept, and other inputs are refused. -/
theorem freeze_once {content : SweepContent} {frozen : SweepSpec} {after : Directory J}
    (h : freeze codec content directory=(.ok frozen,after)) :
    freeze codec content after=(.ok frozen,after) ∧
      ∀ other,other≠content → ∃ e,freeze codec other after=(.error e,after) := by
  obtain ⟨hspec,text,htext,hread⟩ := freeze_ok h
  constructor
  · unfold freeze
    rw [htext]
    simp only [hread]
    rw [if_neg (not_not_intro hspec),hspec]
  · intro other hother
    have hne : frozen≠sealed codec other := by
      rw [hspec]
      exact fun heq => hother (congrArg SweepSpec.toSweepContent heq).symm
    refine ⟨.value "resume inputs differ from frozen sweep",?_⟩
    unfold freeze
    rw [htext]
    simp only [hread]
    rw [if_pos hne]

/-- With an executor that is a function of the job, writes the evidence it digests,
returns valid results and reports no interruption, a sweep that is resumed after
any limits ends as one run of it does. Every run of it returns, unless the
selected candidate is no placement, when every run raises at once. Whatever the
executor, saved results are kept and not executed again, and a frozen sweep
refuses other inputs. -/
theorem resumed_sweep_agrees (start : Directory J) (hfresh : ∀ job,start.saved job=none)
    (hconforms : Conforms codec planHash random spec execute) :
    (∀ executed stop summary state,
      Sessions codec planHash random spec execute start executed stop summary state →
      executed.Nodup ∧ ∃ final,
        run codec planHash random spec execute none start=.returned stop summary final ∧
        final.executed=executed ∧ final.results=state.results ∧
        final.directory.saved=state.directory.saved ∧
        final.directory.evidence=state.directory.evidence) ∧
    (Schedulable planHash spec → ∀ directory,
      Reached codec planHash random spec execute start directory → ∀ limit,
        ∃ stop summary final,
          run codec planHash random spec execute limit directory=.returned stop summary final ∧
          stop≠.interrupted ∧ (limit=none → stop≠.limit)) ∧
    (¬Schedulable planHash spec → ∀ directory limit,
      run codec planHash random spec execute limit directory=
        .raised (.evaluation "StopIteration") {directory := directory}) ∧
    (∀ (other : Executor J) directory limit job saved,directory.saved job=some saved →
      let state := (run codec planHash random spec other limit directory).state
      state.directory.saved job=some saved ∧ job∉state.executed) ∧
    ∀ content frozen before after,freeze codec content before=(.ok frozen,after) →
      freeze codec content after=(.ok frozen,after) ∧
        ∀ other,other≠content → ∃ e,freeze codec other after=(.error e,after) := by
  refine ⟨?_,?_,fun h directory limit => run_raises h,?_,fun _ _ _ _ h => freeze_once h⟩
  · intro executed stop summary state h
    obtain ⟨final,hrun,hexecuted,halike⟩ := sessions_agree h
    refine ⟨?_,final,hrun,hexecuted,halike.results,halike.saved,halike.evidence⟩
    obtain ⟨jobs,hkept,-⟩ := @runSteps_kept J codec planHash random spec execute none
      (program planHash random spec) {directory := start} final
    change Kept _ (run codec planHash random spec execute none start).state jobs at hkept
    rw [hrun] at hkept
    have hjobs : final.executed=jobs := hkept.executed
    rw [←hexecuted,hjobs]
    exact hkept.once
  · intro hschedulable directory hreached limit
    obtain ⟨stop,summary,final,hrun,hcalm,hlimit,-⟩ := @run_returns J codec planHash random spec
      execute limit directory hschedulable hconforms
        (reached_faithful hschedulable hconforms hfresh hreached)
    exact ⟨stop,summary,final,hrun,hcalm,hlimit⟩
  · intro other directory limit job saved hsaved
    obtain ⟨jobs,hkept,-⟩ := @runSteps_kept J codec planHash random spec other limit
      (program planHash random spec) {directory := directory} {directory := directory}
    refine ⟨(hkept.saved job saved hsaved).1,?_⟩
    have hjobs : (run codec planHash random spec other limit directory).state.executed=jobs :=
      hkept.executed
    rw [hjobs]
    intro hmem
    have hnone := hkept.unsaved job hmem
    change directory.saved job=none at hnone
    rw [hsaved] at hnone
    cases hnone

end Programs

/-- JSON values of the sample sweep. -/
inductive SampleJson
  | result (result : JobResult)
  | content (content : SweepContent)
  | spec (spec : SweepSpec)
  | evidence (text : String)

/-- They read as what they were written from. -/
def sampleCodec : Codec SampleJson where
  encodeResult := .result
  decodeResult := fun value =>
    match value with
    | .result result => .ok result
    | _ => .error (.value "result")
  encodeContent := .content
  encodeSpec := .spec
  decodeSpec := fun value =>
    match value with
    | .spec spec => .ok spec
    | _ => .error (.value "sweep")
  digest := fun value =>
    match value with
    | .evidence text => text
    | _ => "digest"
  result_read := fun _ => rfl
  spec_read := fun _ => rfl

/-- Writes the id of the job as its evidence. -/
def sampleExecutor : Executor SampleJson := fun _ name plan =>
  (some (.evidence name),.ok (sampleResult name plan))

/-- Its results are valid. -/
theorem sampleResult_valid (name : String) (plan : DeploymentPlan) :
    validateResult sampleSpec (sampleResult name plan) name plan=.ok () := by
  unfold validateResult
  rw [check_bind_of ⟨rfl,rfl,rfl⟩]
  change checkMeasured sampleSpec (sampleResult name plan)=.ok ()
  unfold checkMeasured
  change (check _ _ >>= _)=_
  rw [check_bind_of ⟨rfl,rfl⟩,check_ok_iff]
  intro s hs
  change s∈[sampleRun,sampleRun,sampleRun] at hs
  simp only [List.mem_cons,List.not_mem_nil,or_false,or_self] at hs
  rw [hs]
  rfl

/-- The sample sweep returns, and so however it is resumed it executes the same jobs. -/
theorem sample_resumes :
    ∃ stop summary final,
      run sampleCodec sampleHash sampleRandom sampleSpec sampleExecutor none {}=
        .returned stop summary final ∧
      ∀ executed stop' summary' state,
        Sessions sampleCodec sampleHash sampleRandom sampleSpec sampleExecutor {} executed stop'
          summary' state →
        executed=final.executed ∧ stop'=stop := by
  have hconforms : Conforms sampleCodec sampleHash sampleRandom sampleSpec sampleExecutor :=
    fun round _ name plan _ => ⟨.evidence name,sampleResult name plan,rfl,rfl,
      sampleResult_valid name plan,
      (by decide : "interrupted".toList.isPrefixOf "sample".toList=false)⟩
  have hschedulable : Schedulable sampleHash sampleSpec :=
    ⟨placement sampleHash sampleSpec "x" "y" 1,by decide +kernel,rfl⟩
  obtain ⟨hsessions,hreturns,-,-,-⟩ := resumed_sweep_agrees {} (fun _ => rfl) hconforms
  obtain ⟨stop,summary,final,hrun,-,-⟩ := hreturns hschedulable {} .start none
  refine ⟨stop,summary,final,hrun,fun executed stop' summary' state h => ?_⟩
  obtain ⟨-,other,hother,hexecuted,-⟩ := hsessions executed stop' summary' state h
  rw [hrun] at hother
  cases hother
  exact ⟨hexecuted.symm,rfl⟩

end Hllm.SweepResume
