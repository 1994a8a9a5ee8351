import EdgeGuard.Jobs.Agreement
import EdgeGuard.Jobs.Generate
import EdgeGuard.Transition

/-! The files of reports, over whole runs. Calls of `Generate` run side by side, fail at
any operation, die with their process or with the power; a report's path has a whole
report at all times. -/
namespace EdgeGuard.Jobs.Report
open Go FileSystem

inductive Call where
  | refused (err : Failure)
  | running (job : Job) (stage : Stage)

structure World where
  disk : Disk
  calls : Nat → Option Call

def World.start (m : Mount) : World := ⟨Disk.mount m, fun _ => none⟩

inductive Action where
  | begin (call : Nat) (request : Request)
  | operate (call : Nat) (operation : Operation)
  | crash (call : Nat)
  | powerLoss (lost : Str → Nat) (garbage : Nat → Str)

def Call.begin {ν υ : Type} (lib : Library ν υ) (request : Request) : Call :=
  match prepare lib request with
  | .error err => .refused err
  | .ok job => .running job .mkdirAll

/-- A call that has returned is not there any more. -/
def Call.crash : Call → Call
  | .refused err => .refused err
  | .running job (.returned result) => .running job (.returned result)
  | .running job _ => .running job .crashed

section Step
variable {ν υ : Type} (lib : Library ν υ) (enc : Encoders) (dir : Str)

def step (s : World) : Action → Option World
  | .begin call request =>
    match s.calls call with
    | none => some { s with calls := Function.update s.calls call (some (.begin lib request)) }
    | some _ => none
  | .operate call operation =>
    match s.calls call with
    | some (.running job stage) =>
      (move enc dir s.disk job stage operation).map (fun moved =>
        ⟨moved.1, Function.update s.calls call (some (.running job moved.2))⟩)
    | _ => none
  | .crash call => some { s with calls := Function.update s.calls call ((s.calls call).map .crash) }
  | .powerLoss lost garbage => some ⟨s.disk.powerLoss lost garbage, fun call => (s.calls call).map .crash⟩

end Step

/-- No call writes to the file any more. -/
def Loose (s : World) (file : Nat) : Prop :=
  file < s.disk.next ∧
    ∀ call job stage temp, s.calls call = some (.running job stage) → stage.holds ≠ some (temp, file)

/-- The file is the whole, synced report of a call for the path. -/
def Complete (enc : Encoders) (dir : Str) (s : World) (path : Str) (file : Nat) : Prop :=
  ∃ call job stage content, s.calls call = some (.running job stage) ∧ job.filename dir = path ∧
    job.content enc = some content ∧ s.disk.files file = ⟨content, true⟩

structure Invariant (enc : Encoders) (dir : Str) (m : Mount) (s : World) : Prop where
  bounded : s.disk.Bounded
  ready : ∀ call job stage, s.calls call = some (.running job stage) → Ready enc dir s.disk job stage
  apart : ∀ call other job otherJob stage otherStage temp, s.calls call = some (.running job stage) →
    s.calls other = some (.running otherJob otherStage) → stage.temp = some temp → otherStage.temp = some temp →
    call = other
  first : s.disk.first = m.entries
  kept : ∀ path file, m.entries path = some file → ¬ Temporary dir path →
    Loose s file ∧ s.disk.files file = ⟨m.contents file, true⟩
  published : ∀ path, ¬ Temporary dir path → ∀ linked ∈ s.disk.links path, ∃ file, linked = some file ∧ Loose s file ∧
    Complete enc dir s path file

/-- A random number that gives the name of no other call's temporary file. -/
def Apart (dir : Str) (s : World) : Action → Prop
  | .operate _ (.createTemp (some draw)) => ∀ other job stage, s.calls other = some (.running job stage) →
    stage.temp ≠ some (temporaryPath dir draw)
  | _ => True

/-- A call that is at no file: it has just begun, or it is over. -/
inductive Stage.Idle : Stage → Prop
  | begun : Idle .mkdirAll
  | returned (result : Except Failure (Str × Nat)) : Idle (.returned result)
  | crashed : Idle .crashed

section Idle
variable {stage : Stage}

theorem Stage.Idle.temp (idle : stage.Idle) : stage.temp = none := by
  cases idle <;> rfl

theorem Stage.Idle.holds (idle : stage.Idle) : stage.holds = none := by
  cases idle <;> rfl

theorem Stage.Idle.ready (idle : stage.Idle) (enc : Encoders) (dir : Str) (disk : Disk) (job : Job) :
    Ready enc dir disk job stage := by
  refine ⟨?_, ?_, ?_⟩
  · rw [idle.temp]
    nofun
  · rw [idle.holds]
    nofun
  · cases idle <;> trivial

theorem begin_stage {ν υ : Type} {lib : Library ν υ} {request : Request} {job : Job}
    (begun : Call.begin lib request = .running job stage) : stage = .mkdirAll := by
  unfold Call.begin at begun
  split at begun <;> cases begun
  rfl

theorem crash_stage {call : Call} {job : Job} (crashed : call.crash = .running job stage) :
    stage = .crashed ∨ stage.Idle ∧ call = .running job stage := by
  unfold Call.crash at crashed
  split at crashed <;> cases crashed
  · exact .inr ⟨.returned _, rfl⟩
  · exact .inl rfl

theorem crash_running {call : Call} {job : Job} (running : call = .running job stage) :
    ∃ after, call.crash = .running job after := by
  subst running
  cases stage <;> exact ⟨_, rfl⟩

end Idle

/-- What a step leaves as it is: every call's job, and the files that no call writes to. -/
structure Follows (s t : World) : Prop where
  next : s.disk.next ≤ t.disk.next
  first : t.disk.first = s.disk.first
  jobs : ∀ call job stage, s.calls call = some (.running job stage) →
    ∃ after, t.calls call = some (.running job after)
  held : ∀ call job stage temp file, t.calls call = some (.running job stage) → stage.holds = some (temp, file) →
    (∃ before, s.calls call = some (.running job before) ∧ before.holds = some (temp, file)) ∨ s.disk.next ≤ file
  files : ∀ file, Loose s file → (s.disk.files file).synced = true → t.disk.files file = s.disk.files file

section Steps
variable {ν υ : Type} {lib : Library ν υ} {enc : Encoders} {dir : Str} {m : Mount} {s t : World} {action : Action}

theorem Follows.loose (follows : Follows s t) {file : Nat} (loose : Loose s file) : Loose t file := by
  refine ⟨loose.1.trans_le follows.next, ?_⟩
  intro call job stage temp running holds
  rcases follows.held call job stage temp file running holds with ⟨before, earlier, held⟩ | new
  · exact loose.2 call job before temp earlier held
  · exact absurd loose.1 (Nat.not_lt.mpr new)

theorem Follows.complete (follows : Follows s t) {path : Str} {file : Nat} (loose : Loose s file)
    (complete : Complete enc dir s path file) : Complete enc dir t path file := by
  obtain ⟨call, job, stage, content, running, named, text, stored⟩ := complete
  obtain ⟨after, later⟩ := follows.jobs call job stage running
  refine ⟨call, job, after, content, later, named, text, ?_⟩
  rw [follows.files file loose (by rw [stored]), stored]

theorem operate_inv {call : Nat} {operation : Operation}
    (stepped : step lib enc dir s (.operate call operation) = some t) :
    ∃ job stage disk after, s.calls call = some (.running job stage) ∧
      move enc dir s.disk job stage operation = some (disk, after) ∧
      t = ⟨disk, Function.update s.calls call (some (.running job after))⟩ := by
  unfold step at stepped
  dsimp only at stepped
  split at stepped
  · rename_i job stage running
    obtain ⟨⟨disk, after⟩, moved, rfl⟩ := Option.map_eq_some_iff.mp stepped
    exact ⟨job, stage, disk, after, running, moved, rfl⟩
  · contradiction

theorem begin_inv {call : Nat} {request : Request} (stepped : step lib enc dir s (.begin call request) = some t) :
    s.calls call = none ∧ t = { s with calls := Function.update s.calls call (some (.begin lib request)) } := by
  unfold step at stepped
  dsimp only at stepped
  split at stepped
  · rename_i fresh
    cases stepped
    exact ⟨fresh, rfl⟩
  · contradiction

/-- How a call came to the stage it is at after a step. -/
inductive Origin (enc : Encoders) (dir : Str) (s t : World) (action : Action) (call : Nat) (job : Job)
    (stage : Stage) : Prop
  | dead (ended : stage = .crashed)
  | begun (fresh : s.calls call = none) (at_ : stage = .mkdirAll)
      (different : ∀ operation, action ≠ .operate call operation)
  | kept (same : s.calls call = some (.running job stage)) (different : ∀ operation, action ≠ .operate call operation)
      (frame : t.disk = s.disk ∨ stage.Idle ∨ ∃ other operation, other ≠ call ∧ action = .operate other operation)
  | moved (operation : Operation) (before : Stage) (acts : action = .operate call operation)
      (found : s.calls call = some (.running job before))
      (moves : move enc dir s.disk job before operation = some (t.disk, stage))

theorem step_origin (stepped : step lib enc dir s action = some t) {call : Nat} {job : Job} {stage : Stage}
    (running : t.calls call = some (.running job stage)) : Origin enc dir s t action call job stage := by
  cases action with
  | begin other request =>
    obtain ⟨fresh, rfl⟩ := begin_inv stepped
    rcases Transition.update_found running with ⟨same, _⟩ | ⟨rfl, begun⟩
    · exact .kept same nofun (.inl rfl)
    · exact .begun fresh (begin_stage (Option.some.inj begun)) nofun
  | operate other operation =>
    obtain ⟨otherJob, before, disk, after, found, moved, rfl⟩ := operate_inv stepped
    rcases Transition.update_found running with ⟨same, different⟩ | ⟨rfl, later⟩
    · exact .kept same (by rintro _ ⟨⟩; exact different rfl) (.inr (.inr ⟨other, operation, different, rfl⟩))
    · cases later
      exact .moved operation before rfl found moved
  | crash other =>
    cases stepped
    rcases Transition.update_found running with ⟨same, _⟩ | ⟨rfl, crashed⟩
    · exact .kept same nofun (.inl rfl)
    · obtain ⟨before, found, dead⟩ := Option.map_eq_some_iff.mp crashed
      rcases crash_stage dead with ended | ⟨_, rfl⟩
      · exact .dead ended
      · exact .kept found nofun (.inl rfl)
  | powerLoss lost garbage =>
    cases stepped
    obtain ⟨before, found, dead⟩ := Option.map_eq_some_iff.mp running
    rcases crash_stage dead with ended | ⟨idle, rfl⟩
    · exact .dead ended
    · exact .kept found nofun (.inr (.inl idle))

theorem step_jobs (stepped : step lib enc dir s action = some t) {call : Nat} {job : Job} {stage : Stage}
    (running : s.calls call = some (.running job stage)) : ∃ after, t.calls call = some (.running job after) := by
  cases action with
  | begin other request =>
    obtain ⟨fresh, rfl⟩ := begin_inv stepped
    have different : call ≠ other := by
      rintro rfl
      rw [fresh] at running
      contradiction
    exact ⟨stage, (Function.update_of_ne different _ _).trans running⟩
  | operate other operation =>
    obtain ⟨otherJob, before, disk, after, found, _, rfl⟩ := operate_inv stepped
    by_cases same : call = other
    · subst same
      cases found.symm.trans running
      exact ⟨after, Function.update_self _ _ _⟩
    · exact ⟨stage, (Function.update_of_ne same _ _).trans running⟩
  | crash other =>
    cases stepped
    by_cases same : call = other
    · subst same
      obtain ⟨after, dead⟩ := crash_running (rfl : Call.running job stage = _)
      exact ⟨after, by simp [running, dead]⟩
    · exact ⟨stage, (Function.update_of_ne same _ _).trans running⟩
  | powerLoss lost garbage =>
    cases stepped
    obtain ⟨after, dead⟩ := crash_running (rfl : Call.running job stage = _)
    exact ⟨after, by simp [running, dead]⟩

section Preserved
variable (inv : Invariant enc dir m s) (stepped : step lib enc dir s action = some t)
include inv stepped

theorem step_follows : Follows s t := by
  have held : ∀ call job stage temp file, t.calls call = some (.running job stage) → stage.holds = some (temp, file) →
      (∃ before, s.calls call = some (.running job before) ∧ before.holds = some (temp, file)) ∨
        s.disk.next ≤ file := by
    intro call job stage temp file running holds
    rcases step_origin stepped running with rfl | ⟨_, rfl⟩ | ⟨same, _⟩ | ⟨operation, before, _, found, moved⟩
    · contradiction
    · contradiction
    · exact .inl ⟨stage, same, holds⟩
    · rcases (move_effect moved).holds inv.bounded holds with earlier | new
      · exact .inl ⟨before, found, earlier⟩
      · exact .inr new.ge
  have jobs := fun call job stage => @step_jobs _ _ lib enc dir s t action stepped call job stage
  cases action with
  | begin other request =>
    obtain ⟨_, rfl⟩ := begin_inv stepped
    exact ⟨le_rfl, rfl, jobs, held, fun _ _ _ => rfl⟩
  | operate other operation =>
    obtain ⟨job, before, disk, after, found, moved, rfl⟩ := operate_inv stepped
    have effect := move_effect moved
    refine ⟨effect.next, effect.first, jobs, held, ?_⟩
    intro file loose _
    exact effect.files loose.1 (fun temp => loose.2 other job before temp found)
  | crash other =>
    cases stepped
    exact ⟨le_rfl, rfl, jobs, held, fun _ _ _ => rfl⟩
  | powerLoss lost garbage =>
    cases stepped
    refine ⟨le_rfl, rfl, jobs, held, ?_⟩
    intro file _ synced
    exact if_pos synced

theorem step_bounded : t.disk.Bounded := by
  cases action with
  | begin other request =>
    obtain ⟨_, rfl⟩ := begin_inv stepped
    exact inv.bounded
  | operate other operation =>
    obtain ⟨job, before, disk, after, found, moved, rfl⟩ := operate_inv stepped
    exact (move_effect moved).bounded inv.bounded
  | crash other =>
    cases stepped
    exact inv.bounded
  | powerLoss lost garbage =>
    cases stepped
    exact inv.bounded.powerLoss lost garbage

theorem step_ready {call : Nat} {job : Job} {stage : Stage}
    (running : t.calls call = some (.running job stage)) : Ready enc dir t.disk job stage := by
  rcases step_origin stepped running with rfl | ⟨_, rfl⟩ |
    ⟨same, _, unchanged | idle | ⟨other, operation, different, rfl⟩⟩ | ⟨operation, before, rfl, found, moved⟩
  · exact Stage.Idle.crashed.ready enc dir t.disk job
  · exact Stage.Idle.begun.ready enc dir t.disk job
  · rw [unchanged]
    exact inv.ready call job stage same
  · exact idle.ready enc dir t.disk job
  · obtain ⟨otherJob, before, disk, after, found, moved, rfl⟩ := operate_inv stepped
    have ready := inv.ready call job stage same
    have own := (inv.ready other otherJob before found).held
    apply ready.keeps
    intro temp file holds
    apply (move_effect moved).keeps own (ready.held temp file holds) (ready.temporary temp (temp_of_holds holds))
    intro shared
    exact different (inv.apart other call otherJob job before stage temp found same shared (temp_of_holds holds))
  · exact move_ready moved inv.bounded (inv.ready call job before found)

omit inv in
/-- A call has the name it had before, or it has just drawn it. -/
theorem step_temp {call : Nat} {job : Job} {stage : Stage} {temp : Str}
    (running : t.calls call = some (.running job stage)) (named : stage.temp = some temp) :
    (∃ before, s.calls call = some (.running job before) ∧ before.temp = some temp) ∨
      ∃ draw, action = .operate call (.createTemp (some draw)) ∧ temp = temporaryPath dir draw := by
  rcases step_origin stepped running with rfl | ⟨_, rfl⟩ | ⟨same, _⟩ | ⟨operation, before, rfl, found, moved⟩
  · contradiction
  · contradiction
  · exact .inl ⟨stage, same, named⟩
  · rcases (move_effect moved).temp named with earlier | ⟨_, draw, rfl, drawn⟩
    · exact .inl ⟨before, found, earlier⟩
    · exact .inr ⟨draw, rfl, drawn⟩

theorem step_apart (apart : Apart dir s action) {call other : Nat} {job otherJob : Job} {stage otherStage : Stage}
    {temp : Str} (running : t.calls call = some (.running job stage))
    (otherRunning : t.calls other = some (.running otherJob otherStage)) (named : stage.temp = some temp)
    (otherNamed : otherStage.temp = some temp) : call = other := by
  rcases step_temp stepped running named with ⟨before, found, earlier⟩ | ⟨draw, rfl, rfl⟩
  · rcases step_temp stepped otherRunning otherNamed with ⟨otherBefore, otherFound, otherEarlier⟩ | ⟨draw, rfl, rfl⟩
    · exact inv.apart call other job otherJob before otherBefore temp found otherFound earlier otherEarlier
    · exact absurd earlier (apart call job before found)
  · rcases step_temp stepped otherRunning otherNamed with ⟨otherBefore, otherFound, otherEarlier⟩ | ⟨draw, same, _⟩
    · exact absurd otherEarlier (apart other otherJob otherBefore otherFound)
    · cases same
      rfl

/-- A renamed file is the whole report, and the call is done with it. -/
theorem step_renamed {call : Nat} {job : Job} {temp : Str} {file : Nat}
    (found : s.calls call = some (.running job (.rename temp file)))
    (ended : ∀ job stage, t.calls call = some (.running job stage) → stage.holds = none)
    (files : t.disk.files = s.disk.files) : Loose t file ∧ Complete enc dir t (job.filename dir) file := by
  have ready := inv.ready call job _ found
  have follows := step_follows inv stepped
  have held := ready.held temp file rfl
  refine ⟨⟨held.older.trans_le follows.next, ?_⟩, ?_⟩
  · -- Another call that held the file would hold it under the same name.
    intro other otherJob stage otherTemp running holds
    rcases follows.held other otherJob stage otherTemp file running holds with ⟨before, earlier, otherHolds⟩ | new
    · have otherHeld := (inv.ready other otherJob before earlier).held otherTemp file otherHolds
      have shared := (held.only otherTemp).mp ((otherHeld.only otherTemp).mpr rfl)
      subst shared
      have same := inv.apart call other job otherJob _ before otherTemp found earlier rfl (temp_of_holds otherHolds)
      subst same
      rw [ended otherJob stage running] at holds
      contradiction
    · exact absurd held.older (Nat.not_lt.mpr new)
  · obtain ⟨content, synced⟩ := ready.progress
    obtain ⟨after, later⟩ := follows.jobs call job _ found
    refine ⟨call, job, after, _, later, rfl, content, ?_⟩
    rw [files, ← synced]

theorem step_published {path : Str} (lasting : ¬ Temporary dir path) :
    ∀ linked ∈ t.disk.links path, ∃ file, linked = some file ∧ Loose t file ∧ Complete enc dir t path file := by
  have follows := step_follows inv stepped
  have earlier : ∀ linked ∈ s.disk.links path,
      ∃ file, linked = some file ∧ Loose t file ∧ Complete enc dir t path file := by
    intro linked member
    obtain ⟨file, named, loose, complete⟩ := inv.published path lasting linked member
    exact ⟨file, named, follows.loose loose, follows.complete loose complete⟩
  cases action with
  | begin other request =>
    obtain ⟨_, rfl⟩ := begin_inv stepped
    exact earlier
  | operate call operation =>
    obtain ⟨job, before, disk, after, found, moved, rfl⟩ := operate_inv stepped
    rcases (move_effect moved).links (inv.ready call job before found) lasting with
      same | ⟨temp, file, rfl, rfl, rfl, grown, files, rfl⟩
    · intro linked member
      exact earlier linked (same ▸ member)
    · -- The rename adds the file of the call, which holds nothing from here on.
      have published := step_renamed inv stepped found (by
        intro job stage running
        cases (Function.update_self _ _ _).symm.trans running
        rfl) files
      intro linked member
      rcases List.mem_cons.mp (grown ▸ member) with rfl | old
      · exact ⟨file, rfl, published⟩
      · exact earlier linked old
  | crash other =>
    cases stepped
    exact earlier
  | powerLoss lost garbage =>
    cases stepped
    intro linked member
    exact earlier linked (List.mem_of_mem_drop member)

end Preserved

theorem step_invariant (apart : Apart dir s action) (inv : Invariant enc dir m s)
    (stepped : step lib enc dir s action = some t) : Invariant enc dir m t where
  bounded := step_bounded inv stepped
  ready := fun _ _ _ running => step_ready inv stepped running
  apart := fun _ _ _ _ _ _ _ running otherRunning named otherNamed =>
    step_apart inv stepped apart running otherRunning named otherNamed
  first := (step_follows inv stepped).first.trans inv.first
  kept := by
    intro path file mounted lasting
    obtain ⟨loose, stored⟩ := inv.kept path file mounted lasting
    have follows := step_follows inv stepped
    exact ⟨follows.loose loose, (follows.files file loose (by rw [stored])).trans stored⟩
  published := fun _ lasting => step_published inv stepped lasting

theorem start_invariant (enc : Encoders) (dir : Str) (m : Mount) : Invariant enc dir m (.start m) where
  bounded := Disk.bounded_mount m
  ready := by
    intro call job stage running
    contradiction
  apart := by
    intro call other job otherJob stage otherStage temp running
    contradiction
  first := rfl
  kept := by
    intro path file mounted _
    refine ⟨⟨m.bounded path file mounted, ?_⟩, rfl⟩
    intro call job stage temp running
    contradiction
  published := fun _ _ _ member => absurd member List.not_mem_nil

theorem run_reports {actions : List Action} (path : Transition.run (step lib enc dir) (.start m) actions = some s)
    (apart : Transition.Along (step lib enc dir) (Apart dir) (.start m) actions) : Invariant enc dir m s :=
  Transition.run_invariant_along step_invariant path apart (start_invariant enc dir m)

/-- A call that operates is the only one that is at a file. -/
def Alone (s : World) : Action → Prop
  | .operate call _ => ∀ other job stage, other ≠ call → s.calls other = some (.running job stage) → stage.Idle
  | _ => True

/-- Calls one after the other need nothing of the random numbers. -/
theorem apart_of_alone {start : World} {actions : List Action}
    (path : Transition.run (step lib enc dir) start actions = some s)
    (alone : Transition.Along (step lib enc dir) Alone start actions) :
    Transition.Along (step lib enc dir) (Apart dir) start actions := by
  refine @Transition.along_weaken _ _ _ _ (fun _ => True) _ (fun _ _ _ => trivial) ?_ _ _ _ path alone trivial
  intro s t action alone _ stepped
  unfold Apart
  split
  · rename_i call draw
    obtain ⟨job, stage, disk, after, found, moved, _⟩ := operate_inv stepped
    intro other otherJob otherStage running
    by_cases same : other = call
    · subst same
      cases found.symm.trans running
      cases stage <;> first | contradiction | exact nofun
    · rw [(alone other otherJob otherStage same running).temp]
      nofun
  · trivial

theorem apart_of_single {actions : List Action} (path : Transition.run (step lib enc dir) (.start m) actions = some s)
    {call : Nat} (only : ∀ action ∈ actions, ∀ other operation, action = .operate other operation → other = call) :
    Transition.Along (step lib enc dir) (Apart dir) (.start m) actions := by
  apply apart_of_alone path
  refine @Transition.along_weaken _ _ _
    (fun _ action => ∀ other operation, action = .operate other operation → other = call)
    (fun s => ∀ other job stage, other ≠ call → s.calls other = some (.running job stage) → stage.Idle)
    _ ?_ ?_ _ _ _ path (Transition.along_of_forall (fun _ => only) _) nofun
  · intro s t action single idle stepped other job stage different running
    rcases step_origin stepped running with rfl | ⟨_, rfl⟩ | ⟨same, _⟩ | ⟨operation, _, acts, _⟩
    · exact .crashed
    · exact .begun
    · exact idle other job stage different same
    · exact absurd (single other operation acts) different
  · intro s t action single idle _
    cases action with
    | operate acting operation =>
      cases single acting operation rfl
      exact idle
    | begin | crash | powerLoss => trivial

theorem run_operates {actions : List Action} (path : Transition.run (step lib enc dir) (.start m) actions = some s)
    {call : Nat} {operation : Operation} (operates : .operate call operation ∈ actions) :
    ∃ job stage, s.calls call = some (.running job stage) := by
  induction actions using List.reverseRecOn generalizing s with
  | nil => contradiction
  | append_singleton earlier action ih =>
    obtain ⟨middle, before, stepped⟩ := Transition.run_concat path
    have running : ∃ job stage, middle.calls call = some (.running job stage) := by
      rcases List.mem_append.mp operates with old | last
      · exact ih before old
      · cases List.mem_singleton.mp last
        obtain ⟨job, stage, _, _, found, _⟩ := operate_inv stepped
        exact ⟨job, stage, found⟩
    obtain ⟨job, stage, found⟩ := running
    exact ⟨job, step_jobs stepped found⟩

/-- The stage of a call says whether it has renamed its file. -/
theorem run_renamed {actions : List Action} (path : Transition.run (step lib enc dir) (.start m) actions = some s)
    {call : Nat} {job : Job} {stage : Stage} (running : s.calls call = some (.running job stage))
    (alive : stage ≠ .crashed) : stage.renamed = true ↔ .operate call (.rename true) ∈ actions := by
  induction actions using List.reverseRecOn generalizing s job stage with
  | nil =>
    cases path
    contradiction
  | append_singleton earlier action ih =>
    obtain ⟨middle, before, stepped⟩ := Transition.run_concat path
    have other (different : ∀ operation, action ≠ .operate call operation) :
        .operate call (.rename true) ∈ earlier ++ [action] ↔ .operate call (.rename true) ∈ earlier := by
      simp [(different (.rename true)).symm]
    rcases step_origin stepped running with ended | ⟨fresh, rfl, different⟩ | ⟨same, different, _⟩ |
      ⟨operation, stage', rfl, found, moved⟩
    · exact absurd ended alive
    · -- A call that has not begun has not renamed anything.
      have never : .operate call (.rename true) ∉ earlier := by
        intro operates
        obtain ⟨job, stage, found⟩ := run_operates before operates
        rw [fresh] at found
        contradiction
      simp [other different, never, Stage.renamed]
    · rw [other different]
      exact ih before same alive
    · have alive : stage' ≠ .crashed := by
        rintro rfl
        exact move_alive moved
      rw [(move_effect moved).renamed, ih before found alive, List.mem_append, List.mem_singleton]
      simp [eq_comm]

/-- A path that is not a temporary one names a file from the start or a whole report. -/
theorem Invariant.entry_cases (inv : Invariant enc dir m s) {path : Str} (lasting : ¬ Temporary dir path) :
    s.disk.entry path = m.entries path ∨
      ∃ file, s.disk.entry path = some file ∧ Loose s file ∧ Complete enc dir s path file := by
  cases changes : s.disk.links path with
  | nil =>
    refine .inl ?_
    rw [Disk.entry, changes, inv.first]
    rfl
  | cons latest earlier =>
    obtain ⟨file, rfl, published⟩ := inv.published path lasting latest (by simp [changes])
    refine .inr ⟨file, ?_, published⟩
    rw [Disk.entry, changes]
    rfl

theorem Invariant.read (inv : Invariant enc dir m s) {path : Str} (lasting : ¬ Temporary dir path) :
    s.disk.read path = (Disk.mount m).read path ∨
      ∃ call job stage content, s.calls call = some (.running job stage) ∧ job.filename dir = path ∧
        job.content enc = some content ∧ s.disk.read path = some content := by
  rcases inv.entry_cases lasting with
    same | ⟨file, named, _, call, job, stage, content, running, target, text, stored⟩
  · refine .inl ?_
    change _ = (m.entries path).map m.contents
    rw [Disk.read, same]
    cases mounted : m.entries path with
    | none => rfl
    | some file => rw [Option.map_some, Option.map_some, (inv.kept path file mounted lasting).2]
  · refine .inr ⟨call, job, stage, content, running, target, text, ?_⟩
    rw [Disk.read, named, Option.map_some, stored]

section Reads
variable (inv : Invariant enc dir m s) (stepped : step lib enc dir s action = some t) {path : Str}
  (lasting : ¬ Temporary dir path)
include inv stepped lasting

theorem step_entry_files {file : Nat} (named : s.disk.entry path = some file) :
    t.disk.files file = s.disk.files file := by
  have follows := step_follows inv stepped
  rcases inv.entry_cases lasting with same | ⟨published, found, loose, _, _, _, _, _, _, _, stored⟩
  · obtain ⟨loose, stored⟩ := inv.kept path file (same.symm.trans named) lasting
    exact follows.files file loose (by rw [stored])
  · cases found.symm.trans named
    exact follows.files file loose (by rw [stored])

theorem step_read_of_entry (same : t.disk.entry path = s.disk.entry path) :
    t.disk.read path = s.disk.read path := by
  rw [Disk.read, Disk.read, same]
  cases named : s.disk.entry path with
  | none => rfl
  | some file => rw [Option.map_some, Option.map_some, step_entry_files inv stepped lasting named]

/-- Such a path changes with a rename, to the whole report of that call, or with the power. -/
theorem step_read : t.disk.read path = s.disk.read path ∨
      (∃ call job temp file content, action = .operate call (.rename true) ∧
        s.calls call = some (.running job (.rename temp file)) ∧ job.filename dir = path ∧
        job.content enc = some content ∧ t.disk.read path = some content) ∨
      ∃ lost garbage, action = .powerLoss lost garbage := by
  cases action with
  | begin call request =>
    obtain ⟨_, rfl⟩ := begin_inv stepped
    exact .inl rfl
  | operate call operation =>
    obtain ⟨job, before, disk, after, found, moved, rfl⟩ := operate_inv stepped
    have effect := move_effect moved
    have ready := inv.ready call job before found
    rcases effect.links ready lasting with same | ⟨temp, file, rfl, rfl, rfl, grown, files, _⟩
    · refine .inl (step_read_of_entry inv stepped lasting ?_)
      rw [Disk.entry, Disk.entry, same, effect.first]
    · refine .inr (.inl ⟨call, job, temp, file, _, rfl, found, rfl, ready.progress.1, ?_⟩)
      rw [Disk.read, Disk.entry, grown, files]
      rfl
  | crash call =>
    cases stepped
    exact .inl rfl
  | powerLoss lost garbage => exact .inr (.inr ⟨lost, garbage, rfl⟩)

end Reads

end Steps

/-- At all times a report's path has the file of the start, or none, or the whole report of
a call for that path. It changes in one step, with the rename, or goes back to an earlier
one with the power. A call that returned an error has not renamed its file and has removed
it, unless that removal failed. What a call renames its file to is an entry of the report
directory, whatever the job id. Calls may run side by side, as long as none of them draws a
random number whose name another has yet to remove; calls one after the other need no such
condition (`apart_of_alone`). -/
theorem report_publication_is_atomic {ν υ : Type} (lib : Library ν υ) (enc : Encoders) (dir : Str) (m : Mount)
    {actions : List Action} {s : World} (path : Transition.run (step lib enc dir) (.start m) actions = some s)
    (apart : Transition.Along (step lib enc dir) (Apart dir) (.start m) actions) :
    (∀ report : Job, s.disk.read (report.filename dir) = (Disk.mount m).read (report.filename dir) ∨
      ∃ call job stage content, s.calls call = some (.running job stage) ∧
        job.filename dir = report.filename dir ∧ job.content enc = some content ∧
        s.disk.read (report.filename dir) = some content) ∧
    (∀ action t, step lib enc dir s action = some t → ∀ report : Job,
      t.disk.read (report.filename dir) = s.disk.read (report.filename dir) ∨
      (∃ call job temp file content, action = .operate call (.rename true) ∧
        s.calls call = some (.running job (.rename temp file)) ∧ job.filename dir = report.filename dir ∧
        job.content enc = some content ∧ t.disk.read (report.filename dir) = some content) ∨
      ∃ lost garbage, action = .powerLoss lost garbage) ∧
    (∀ call err, s.calls call = some (.refused err) → ∀ operation, .operate call operation ∉ actions) ∧
    (∀ call job result, s.calls call = some (.running job (.returned result)) →
      (.operate call (.rename true) ∈ actions ↔ ∃ report, result = .ok report)) ∧
    (∀ call job stage temp file operation t err, s.calls call = some (.running job stage) →
      stage.holds = some (temp, file) → operation ≠ .remove false →
      step lib enc dir s (.operate call operation) = some t →
      t.calls call = some (.running job (.returned (.error err))) →
      t.disk.entry temp = none ∧ ∀ path, t.disk.entry path ≠ some file) ∧
    ∀ call job temp file, s.calls call = some (.running job (.rename temp file)) →
      Filepath.Child dir (job.filename dir) := by
  have inv := run_reports path apart
  refine ⟨?_, ?_, ?_, ?_, ?_, ?_⟩
  · intro report
    exact inv.read (filename_not_temporary dir report)
  · intro action t stepped report
    exact step_read inv stepped (filename_not_temporary dir report)
  · intro call err refused operation operates
    obtain ⟨job, stage, running⟩ := run_operates path operates
    cases refused.symm.trans running
  · intro call job result returned
    rw [← run_renamed path returned nofun]
    cases result <;> simp [Stage.renamed]
  · intro call job stage temp file operation t err running holds works stepped returned
    obtain ⟨_, _, disk, after, found, moved, rfl⟩ := operate_inv stepped
    cases found.symm.trans running
    cases (Function.update_self _ _ _).symm.trans returned
    exact (move_effect moved).removes rfl ((inv.ready call job stage running).held temp file holds) holds works
  · intro call job temp file running
    have temporary := (inv.ready call job _ running).temporary temp rfl
    exact ⟨job.entryName, entryName_isName job, filename_eq temporary.1 job⟩

/-- A directory with the report of an earlier attempt. -/
def earlierReport : Mount where
  entries path := if path = lit "data/reports/7.csv" then some 0 else none
  contents _ := lit "earlier"
  next := 1
  bounded := by
    intro path file named
    split at named
    · cases named
      exact Nat.one_pos
    · contradiction

/-- Encoders of plain fields. -/
def plainEncoders : Encoders := ⟨fun _ => none, fun fields => [44].intercalate fields ++ [10], fun _ => []⟩

def retriedRequest : Request :=
  ⟨lit "../jobs/7", ⟨lit "00000000-0000-0000-0000-000000000001", 3600000000000, 7200000000000, lit "csv"⟩, .ok true,
    .ok [], 7200000000000⟩

/-- An attempt that writes its file in two pieces, and cannot rename it. -/
def failedRename : List Action :=
  [.begin 0 retriedRequest, .operate 0 (.mkdirAll true), .operate 0 (.createTemp (some 5)), .operate 0 (.write 100),
    .operate 0 (.write 1000), .operate 0 (.sync true), .operate 0 (.close true), .operate 0 (.rename false)]

def World.stage (s : World) (call : Nat) : Option Stage :=
  match s.calls call with
  | some (.running _ stage) => some stage
  | _ => none

theorem running_of_stage {s : World} {call : Nat} {stage : Stage} (staged : s.stage call = some stage) :
    ∃ job, s.calls call = some (.running job stage) := by
  unfold World.stage at staged
  split at staged
  · rename_i job found running
    cases staged
    exact ⟨job, running⟩
  · contradiction

theorem failed_rename_leaves_the_report :
    ∃ s t, Transition.run (step plainLibrary plainEncoders (lit "./data/reports")) (.start earlierReport) failedRename =
        some s ∧
      step plainLibrary plainEncoders (lit "./data/reports") s (.operate 0 (.remove true)) = some t ∧
      t.disk.read (lit "data/reports/7.csv") = some (lit "earlier") ∧
      t.disk.entry (lit "data/reports/.edgeguard-report-5") = none ∧ ∀ path, t.disk.entry path ≠ some 1 := by
  have observed : (Transition.run (step plainLibrary plainEncoders (lit "./data/reports")) (.start earlierReport)
      failedRename).map (fun s => (s.stage 0, s.disk.read (lit "data/reports/7.csv"))) =
      some (some (.remove (lit "data/reports/.edgeguard-report-5") 1 (.error .publish)), some (lit "earlier")) := by
    decide +kernel
  obtain ⟨s, path, seen⟩ := Option.map_eq_some_iff.mp observed
  obtain ⟨staged, content⟩ := Prod.mk.inj seen
  obtain ⟨job, running⟩ := running_of_stage staged
  have apart := @apart_of_single _ _ _ _ _ _ _ _ path 0 (by
    intro action member other operation same
    subst same
    simp only [failedRename, List.mem_cons, List.not_mem_nil, reduceCtorEq, false_or, or_false,
      Action.operate.injEq] at member
    omega)
  obtain ⟨_, changes, _, _, removes, _⟩ := report_publication_is_atomic plainLibrary plainEncoders
    (lit "./data/reports") earlierReport path apart
  have stepped : step plainLibrary plainEncoders (lit "./data/reports") s (.operate 0 (.remove true)) =
      some ⟨s.disk.unlink (lit "data/reports/.edgeguard-report-5"),
        Function.update s.calls 0 (some (.running job (.returned (.error .publish))))⟩ := by
    rw [step, running]
    rfl
  have named : (⟨lit "7", retriedRequest.payload, lit "csv", by decide, [], 0⟩ : Job).filename (lit "./data/reports") =
      lit "data/reports/7.csv" := by
    decide +kernel
  refine ⟨s, _, path, stepped, ?_, removes 0 job _ _ 1 (.remove true) _ .publish running rfl nofun stepped
    (by simp)⟩
  have unchanged := changes _ _ stepped ⟨lit "7", retriedRequest.payload, lit "csv", by decide, [], 0⟩
  rw [named] at unchanged
  rcases unchanged with same | ⟨_, _, _, _, _, other, _⟩ | ⟨_, _, other⟩
  · exact same.trans content
  · cases other
  · cases other

end EdgeGuard.Jobs.Report
