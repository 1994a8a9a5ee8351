import EdgeGuard.FileSystem
import EdgeGuard.Go.Filepath
import EdgeGuard.Go.Format
import EdgeGuard.Jobs.ReportRows

/-! `Generate`: the checks of a report job, the text of the report, and the operations
that write it to a temporary file and rename the file. Each of them can fail. -/
namespace EdgeGuard.Jobs.Report
open Go FileSystem

inductive Failure where
  | check (err : WorkerError)
  | invalidProjectID | checkProject | projectNotFound
  | queryRows | scanRow | iterateRows
  | createDirectory | createTemporary
  | encodeJSON | writeCSVHeader | writeCSVRow | flushCSV
  | sync | close | publish
  deriving DecidableEq, Repr

/-- `projectExists`, from what the database answers; an error has its SQLSTATE. -/
def projectExists : Except Str Bool → Except Failure Bool
  | .ok found => .ok found
  | .error code => if code = lit "22P02" then .error .invalidProjectID else .error .checkProject

/-- The arguments of `Generate`, what the database answers to it and its clock. -/
structure Request where
  jobID : Str
  payload : ReportPayload
  project : Except Str Bool
  rows : Except Failure (List Row)
  generatedAt : Time

/-- A report that is to be written. -/
structure Job where
  id : Str
  payload : ReportPayload
  format : Str
  known : format ∈ reportFormats
  items : List Row
  generatedAt : Time

/-- `Generate` up to its first file operation. -/
def prepare {ν υ : Type} (lib : Library ν υ) (request : Request) : Except Failure Job :=
  if request.payload.fromTime = zeroTime ∨ request.payload.toTime = zeroTime ∨
      ¬ request.payload.fromTime < request.payload.toTime then .error (.check .invalidReportRange)
  else if known : lib.toLower (trimSpace request.payload.format) ∈ reportFormats then
    match projectExists request.project with
    | .error err => .error err
    | .ok false => .error .projectNotFound
    | .ok true =>
      match request.rows with
      | .error err => .error err
      | .ok items => .ok ⟨request.jobID, request.payload, _, known, items, request.generatedAt⟩
  else .error (.check .invalidFormat)

theorem prepare_check {ν υ : Type} {lib : Library ν υ} {request : Request} {err : WorkerError}
    (refused : checkReport lib request.payload = .error err) : prepare lib request = .error (.check err) := by
  unfold checkReport at refused
  unfold prepare
  split at refused
  · rename_i range
    cases refused
    exact if_pos range
  · rename_i range
    split at refused
    · rename_i unknown
      cases refused
      rw [if_neg range, dif_neg unknown]
    · contradiction

structure JSONReport where
  generatedAt : Time
  projectID : Str
  fromTime : Time
  toTime : Time
  items : List Row

/-- What is taken of the Go library: the indented JSON of a report, which a time can fail,
a record of CSV, and a time in UTC. -/
structure Encoders where
  json : JSONReport → Option Str
  record : List Str → Str
  rfc3339 : Time → Str

def csvHeader : List Str :=
  [lit "bucket_start", lit "route_name", lit "route_path_prefix", lit "method", lit "request_count",
    lit "status_1xx_count", lit "status_2xx_count", lit "status_3xx_count", lit "status_4xx_count",
    lit "status_5xx_count", lit "rate_limited_count", lit "total_duration_ms", lit "max_duration_ms",
    lit "total_response_bytes"]

def csvRecord (enc : Encoders) (item : Row) : List Str :=
  [enc.rfc3339 item.bucketStart, item.routeName, item.routePathPrefix, item.method,
    formatInt item.stats.requestCount, formatInt item.stats.status.status1xx, formatInt item.stats.status.status2xx,
    formatInt item.stats.status.status3xx, formatInt item.stats.status.status4xx,
    formatInt item.stats.status.status5xx, formatInt item.stats.rateLimitedCount,
    formatInt item.stats.totalDurationMS, formatInt item.stats.maxDurationMS,
    formatInt item.stats.totalResponseBytes]

/-- What `writeCSV` writes. -/
def csvText (enc : Encoders) (items : List Row) : Str :=
  (csvHeader :: items.map (csvRecord enc)).flatMap enc.record

/-- The whole text of a report; `none` where `writeJSON` fails before it writes. -/
def Job.content (enc : Encoders) (job : Job) : Option Str :=
  if job.format = lit "json" then
    enc.json ⟨job.generatedAt, job.payload.projectID, job.payload.fromTime, job.payload.toTime, job.items⟩
  else some (csvText enc job.items)

def writeFailures (format : Str) : List Failure :=
  if format = lit "json" then [.encodeJSON] else [.writeCSVHeader, .writeCSVRow, .flushCSV]

def Job.filename (dir : Str) (job : Job) : Str :=
  Filepath.join dir (Filepath.base job.id ++ (lit "." ++ job.format))

/-- The name that `os.CreateTemp` makes of its pattern and a random number. -/
def temporaryName (draw : UInt32) : Str := lit ".edgeguard-report-" ++ formatInt draw.toNat

def temporaryPath (dir : Str) (draw : UInt32) : Str :=
  Filepath.clean (Filepath.entryPath dir (temporaryName draw))

def Temporary (dir path : Str) : Prop := dir ≠ [] ∧ ∃ draw, path = temporaryPath dir draw

/-- The file of a job in the report directory. -/
def Job.entryName (job : Job) : Str :=
  (if Filepath.base job.id = lit "/" then [] else Filepath.base job.id) ++ (lit "." ++ job.format)

theorem format_last (job : Job) (start : Str) :
    (start ++ (lit "." ++ job.format)).getLast? = some 110 ∨
      (start ++ (lit "." ++ job.format)).getLast? = some 118 := by
  have known := job.known
  simp only [reportFormats, List.mem_cons, List.not_mem_nil, or_false] at known
  rcases known with json | csv
  · rw [json, List.getLast?_append]
    exact .inl rfl
  · rw [csv, List.getLast?_append]
    exact .inr rfl

theorem isName_of_format (job : Job) {start : Str} (plain : 47 ∉ start) :
    Filepath.IsName (start ++ (lit "." ++ job.format)) := by
  have last := format_last job start
  refine ⟨?_, ?_, ?_, ?_⟩
  · have suffix : ∀ format ∈ reportFormats, (47 : UInt8) ∉ lit "." ++ format := by decide
    rw [List.mem_append]
    exact not_or.mpr ⟨plain, suffix job.format job.known⟩
  all_goals
    intro same
    rw [same] at last
    revert last
    decide

theorem entryName_isName (job : Job) : Filepath.IsName job.entryName := by
  unfold Job.entryName
  split
  · exact isName_of_format job List.not_mem_nil
  · rename_i proper
    exact isName_of_format job ((Filepath.base_cases job.id).resolve_left proper).1

theorem temporaryName_last (draw : UInt32) :
    ∃ c, (temporaryName draw).getLast? = some c ∧ numeric c = true := by
  obtain ⟨c, last⟩ := Option.ne_none_iff_exists'.mp (mt List.getLast?_eq_none_iff.mp (formatInt_ne_nil draw.toNat))
  refine ⟨c, ?_, formatInt_numeric _ c (List.mem_of_getLast? last)⟩
  rw [temporaryName, List.getLast?_append, last]
  rfl

theorem temporaryName_isName (draw : UInt32) : Filepath.IsName (temporaryName draw) := by
  obtain ⟨c, last, digit⟩ := temporaryName_last draw
  have ends {name : Str} (other : name.getLast?.all (! numeric ·) = true) : temporaryName draw ≠ name := by
    intro same
    rw [← same, last] at other
    simp [digit] at other
  refine ⟨?_, ends rfl, ends rfl, ends rfl⟩
  rw [temporaryName, List.mem_append]
  rintro (first | number)
  · revert first
    decide
  · exact absurd (formatInt_numeric _ 47 number) (by decide)

theorem filename_eq {dir : Str} (given : dir ≠ []) (job : Job) : job.filename dir =
    Filepath.render (Filepath.isRooted dir) (Filepath.elements dir ++ [job.entryName]) := by
  have isName := entryName_isName job
  unfold Job.entryName at isName ⊢
  unfold Job.filename
  split at isName
  · rename_i root
    rw [if_pos root, root]
    exact Filepath.join_slash_name given isName
  · rename_i proper
    rw [if_neg proper]
    exact Filepath.join_name given isName

theorem filename_not_temporary (dir : Str) (job : Job) : ¬ Temporary dir (job.filename dir) := by
  rintro ⟨given, draw, same⟩
  rw [filename_eq given, temporaryPath, Filepath.clean_entryPath given (temporaryName_isName draw)] at same
  have names := Filepath.render_append_injective same
  obtain ⟨c, last, digit⟩ := temporaryName_last draw
  rw [← names] at last
  rcases format_last job _ with letter | letter
  · cases letter.symm.trans last
    contradiction
  · cases letter.symm.trans last
    contradiction

/-- What `Generate` does next. -/
inductive Stage where
  | mkdirAll
  | createTemp
  | write (temp : Str) (file : Nat) (rest : Str)
  | sync (temp : Str) (file : Nat)
  | close (temp : Str) (file : Nat)
  | rename (temp : Str) (file : Nat)
  /-- The file is closed after an error. -/
  | abandon (temp : Str) (file : Nat) (err : Failure)
  /-- The deferred removal. -/
  | remove (temp : Str) (file : Nat) (result : Except Failure (Str × Nat))
  | returned (result : Except Failure (Str × Nat))
  | crashed
  deriving DecidableEq

/-- The operations, each with what becomes of it. -/
inductive Operation where
  | mkdirAll (ok : Bool)
  | createTemp (draw : Option UInt32)
  | write (count : Nat)
  | writeFails (err : Failure)
  | sync (ok : Bool)
  | close (ok : Bool)
  | rename (ok : Bool)
  | remove (ok : Bool)
  deriving DecidableEq, Repr

section Move
variable (enc : Encoders) (dir : Str)

/-- One operation of `Generate` on its file; `none` where it is not the next one. -/
def move (disk : Disk) (job : Job) : Stage → Operation → Option (Disk × Stage)
  -- An empty path is no directory.
  | .mkdirAll, .mkdirAll true => if dir = [] then none else some (disk, .createTemp)
  | .mkdirAll, .mkdirAll false => some (disk, .returned (.error .createDirectory))
  | .createTemp, .createTemp none => some (disk, .returned (.error .createTemporary))
  | .createTemp, .createTemp (some draw) =>
    (disk.create (temporaryPath dir draw)).map (fun made =>
      (made.1, match job.content enc with
        | some text => .write (temporaryPath dir draw) made.2 text
        | none => .abandon (temporaryPath dir draw) made.2 .encodeJSON))
  -- The encoders write in pieces, and a write can stop after a part of its bytes.
  | .write temp file rest, .write count =>
    some (disk.append file (rest.take count),
      if rest.length ≤ count then .sync temp file else .write temp file (rest.drop count))
  | .write temp file _, .writeFails err =>
    if err ∈ writeFailures job.format then some (disk, .abandon temp file err) else none
  | .sync temp file, .sync true => some (disk.fsync file, .close temp file)
  | .sync temp file, .sync false => some (disk, .abandon temp file .sync)
  | .close temp file, .close true => some (disk, .rename temp file)
  | .close temp file, .close false => some (disk, .remove temp file (.error .close))
  | .abandon temp file err, .close _ => some (disk, .remove temp file (.error err))
  | .rename temp file, .rename true =>
    (disk.rename temp (job.filename dir)).map (fun disk =>
      (disk, .remove temp file (.ok (job.filename dir, job.items.length))))
  | .rename temp file, .rename false => some (disk, .remove temp file (.error .publish))
  | .remove temp _ result, .remove ok => some (if ok then disk.unlink temp else disk, .returned result)
  | _, _ => none

end Move

/-- The path that the call will remove. -/
def Stage.temp : Stage → Option Str
  | .write temp _ _ | .sync temp _ | .close temp _ | .rename temp _ | .abandon temp _ _ | .remove temp _ _ =>
    some temp
  | _ => none

/-- The temporary file of the call, as long as it is not published. -/
def Stage.holds : Stage → Option (Str × Nat)
  | .write temp file _ | .sync temp file | .close temp file | .rename temp file | .abandon temp file _ =>
    some (temp, file)
  | .remove temp file (.error _) => some (temp, file)
  | _ => none

theorem temp_of_holds {stage : Stage} {temp : Str} {file : Nat} (holds : stage.holds = some (temp, file)) :
    stage.temp = some temp := by
  unfold Stage.holds at holds
  split at holds <;> cases holds <;> rfl

/-- The stages behind a rename that took place. -/
def Stage.renamed : Stage → Bool
  | .remove _ _ (.ok _) | .returned (.ok _) => true
  | _ => false

theorem renamed_of_holds {stage : Stage} {held : Str × Nat} (holds : stage.holds = some held) :
    stage.renamed = false := by
  unfold Stage.holds at holds
  split at holds <;> first | contradiction | rfl

/-- The file has one entry, the temporary one. -/
structure Held (disk : Disk) (temp : Str) (file : Nat) : Prop where
  older : file < disk.next
  only : ∀ path, disk.entry path = some file ↔ path = temp

/-- What has been written when a call is at a stage. -/
def Progress (enc : Encoders) (dir : Str) (disk : Disk) (job : Job) : Stage → Prop
  | .createTemp => dir ≠ []
  | .write _ file rest => job.content enc = some ((disk.files file).content ++ rest)
  | .sync _ file => job.content enc = some (disk.files file).content
  | .close _ file | .rename _ file =>
    job.content enc = some (disk.files file).content ∧ (disk.files file).synced = true
  | _ => True

structure Ready (enc : Encoders) (dir : Str) (disk : Disk) (job : Job) (stage : Stage) : Prop where
  temporary : ∀ temp, stage.temp = some temp → Temporary dir temp
  held : ∀ temp file, stage.holds = some (temp, file) → Held disk temp file
  progress : Progress enc dir disk job stage

/-- What an operation does to the disk. -/
inductive Effect (dir : Str) (job : Job) (disk : Disk) (stage : Stage) : Operation → Disk → Stage → Prop
  | quiet {operation : Operation} {after : Stage} (other : operation ≠ .rename true)
      (temp : after.temp = none ∨ after.temp = stage.temp)
      (holds : after.holds = stage.holds ∨ after.holds = none ∧ operation = .remove false)
      (renamed : after.renamed = stage.renamed) : Effect dir job disk stage operation disk after
  | create {draw : UInt32} {made : Disk} {file : Nat} {after : Stage} (at_ : stage = .createTemp)
      (created : disk.create (temporaryPath dir draw) = some (made, file))
      (holds : after.holds = some (temporaryPath dir draw, file)) :
      Effect dir job disk stage (.createTemp (some draw)) made after
  | write {operation : Operation} {temp : Str} {file : Nat} {value : File} {after : Stage}
      (other : operation ≠ .rename true) (before : stage.holds = some (temp, file))
      (holds : after.holds = some (temp, file)) :
      Effect dir job disk stage operation { disk with files := Function.update disk.files file value } after
  | publish {temp : Str} {file : Nat} {renamed : Disk} (at_ : stage = .rename temp file)
      (done : disk.rename temp (job.filename dir) = some renamed) :
      Effect dir job disk stage (.rename true) renamed (.remove temp file (.ok (job.filename dir, job.items.length)))
  | unlink {temp : Str} {file : Nat} {result : Except Failure (Str × Nat)} (at_ : stage = .remove temp file result) :
      Effect dir job disk stage (.remove true) (disk.unlink temp) (.returned result)

section Moves
variable {enc : Encoders} {dir : Str} {disk disk' : Disk} {job : Job} {stage stage' : Stage} {operation : Operation}

theorem move_effect (moved : move enc dir disk job stage operation = some (disk', stage')) :
    Effect dir job disk stage operation disk' stage' := by
  unfold move at moved
  split at moved
  · cases (Option.ite_none_left_eq_some.mp moved).2
    exact .quiet nofun (.inl rfl) (.inl rfl) rfl
  · cases moved
    exact .quiet nofun (.inl rfl) (.inl rfl) rfl
  · cases moved
    exact .quiet nofun (.inl rfl) (.inl rfl) rfl
  · obtain ⟨⟨made, file⟩, created, same⟩ := Option.map_eq_some_iff.mp moved
    cases same
    refine .create rfl created ?_
    split <;> rfl
  · cases moved
    refine .write nofun rfl ?_
    split <;> rfl
  · cases (Option.ite_none_right_eq_some.mp moved).2
    exact .quiet nofun (.inr rfl) (.inl rfl) rfl
  · cases moved
    exact .write nofun rfl rfl
  · cases moved
    exact .quiet nofun (.inr rfl) (.inl rfl) rfl
  · cases moved
    exact .quiet nofun (.inr rfl) (.inl rfl) rfl
  · cases moved
    exact .quiet nofun (.inr rfl) (.inl rfl) rfl
  · cases moved
    exact .quiet nofun (.inr rfl) (.inl rfl) rfl
  · obtain ⟨renamed, done, same⟩ := Option.map_eq_some_iff.mp moved
    cases same
    exact .publish rfl done
  · cases moved
    exact .quiet nofun (.inr rfl) (.inl rfl) rfl
  · rename_i result ok
    cases ok <;> cases moved
    · refine .quiet nofun (.inl rfl) (.inr ⟨rfl, rfl⟩) ?_
      cases result <;> rfl
    · exact .unlink rfl
  · contradiction

section Effects
variable (effect : Effect dir job disk stage operation disk' stage')
include effect

theorem Effect.next : disk.next ≤ disk'.next := by
  cases effect with
  | quiet => exact le_rfl
  | create _ created =>
    obtain ⟨_, _, rfl⟩ := Disk.create_eq created
    exact Nat.le_succ _
  | write => exact le_rfl
  | publish _ done =>
    obtain ⟨_, _, rfl⟩ := Option.map_eq_some_iff.mp done
    exact le_rfl
  | unlink => exact le_rfl

theorem Effect.first : disk'.first = disk.first := by
  cases effect with
  | quiet => rfl
  | create _ created =>
    obtain ⟨_, _, rfl⟩ := Disk.create_eq created
    rfl
  | write => rfl
  | publish _ done =>
    obtain ⟨_, _, rfl⟩ := Option.map_eq_some_iff.mp done
    rfl
  | unlink => rfl

theorem Effect.bounded (bounded : disk.Bounded) : disk'.Bounded := by
  cases effect with
  | quiet => exact bounded
  | create _ created => exact bounded.create created
  | write => exact bounded
  | publish _ done => exact bounded.rename done
  | unlink => exact bounded.link nofun

theorem Effect.holds (bounded : disk.Bounded) {temp : Str} {file : Nat}
    (after : stage'.holds = some (temp, file)) : stage.holds = some (temp, file) ∨ file = disk.next := by
  cases effect with
  | quiet _ _ holds =>
    rcases holds with same | ⟨none, _⟩
    · exact .inl (same ▸ after)
    · rw [none] at after
      contradiction
  | create _ created holds =>
    cases holds.symm.trans after
    exact .inr (Disk.create_only bounded created).1
  | write _ before holds => exact .inl (before.trans (holds.symm.trans after))
  | publish => contradiction
  | unlink => contradiction

theorem Effect.files {file : Nat} (older : file < disk.next)
    (loose : ∀ temp, stage.holds ≠ some (temp, file)) : disk'.files file = disk.files file := by
  cases effect with
  | quiet => rfl
  | create _ created => exact (Disk.keeps_create created older).files
  | @write _ temp _ _ _ _ before =>
    apply Function.update_of_ne
    rintro rfl
    exact loose temp before
  | publish _ done =>
    obtain ⟨_, _, rfl⟩ := Option.map_eq_some_iff.mp done
    rfl
  | unlink => rfl

theorem Effect.keeps {temp : Str} {file : Nat}
    (own : ∀ temp file, stage.holds = some (temp, file) → Held disk temp file) (held : Held disk temp file)
    (temporary : Temporary dir temp) (apart : stage.temp ≠ some temp) : disk.Keeps disk' file := by
  cases effect with
  | quiet => exact .refl _ _
  | create _ created => exact Disk.keeps_create created held.older
  | @write _ ownTemp ownFile _ _ _ before =>
    have different : file ≠ ownFile := by
      rintro rfl
      have same := (held.only ownTemp).mp (((own _ _ before).only ownTemp).mpr rfl)
      exact apart (same ▸ temp_of_holds before)
    exact Disk.keeps_write different _
  | publish at_ done =>
    subst at_
    apply Disk.keeps_rename done
    · intro named
      exact apart (congrArg some ((held.only _).mp named))
    · intro named
      exact filename_not_temporary dir job ((held.only _).mp named ▸ temporary)
  | unlink at_ =>
    subst at_
    apply Disk.keeps_link
    · intro named
      exact apart (congrArg some ((held.only _).mp named))
    · nofun

theorem Effect.held (bounded : disk.Bounded)
    (own : ∀ temp file, stage.holds = some (temp, file) → Held disk temp file) {temp : Str} {file : Nat}
    (after : stage'.holds = some (temp, file)) : Held disk' temp file := by
  cases effect with
  | quiet _ _ holds =>
    rcases holds with same | ⟨none, _⟩
    · exact own temp file (same ▸ after)
    · rw [none] at after
      contradiction
  | create _ created holds =>
    cases holds.symm.trans after
    obtain ⟨number, next, only⟩ := Disk.create_only bounded created
    exact ⟨by omega, only⟩
  | write _ before holds =>
    have held := own temp file (before.trans (holds.symm.trans after))
    exact ⟨held.older, held.only⟩
  | publish => contradiction
  | unlink => contradiction

theorem Effect.temp {temp : Str} (after : stage'.temp = some temp) :
    stage.temp = some temp ∨
      stage = .createTemp ∧ ∃ draw, operation = .createTemp (some draw) ∧ temp = temporaryPath dir draw := by
  cases effect with
  | quiet _ same =>
    rcases same with none | same
    · rw [none] at after
      contradiction
    · exact .inl (same ▸ after)
  | create at_ _ holds =>
    cases (temp_of_holds holds).symm.trans after
    exact .inr ⟨at_, _, rfl, rfl⟩
  | write _ before holds =>
    cases (temp_of_holds holds).symm.trans after
    exact .inl (temp_of_holds before)
  | publish at_ =>
    subst at_
    exact .inl after
  | unlink => contradiction

theorem Effect.links (ready : Ready enc dir disk job stage) {path : Str} (lasting : ¬ Temporary dir path) :
    disk'.links path = disk.links path ∨
      ∃ temp file, operation = .rename true ∧ stage = .rename temp file ∧ path = job.filename dir ∧
        disk'.links path = some file :: disk.links path ∧ disk'.files = disk.files ∧
        stage' = .remove temp file (.ok (job.filename dir, job.items.length)) := by
  have unlinked (d : Disk) {other : Str} (file : Option Nat) (temporary : Temporary dir other) :
      (d.link other file).links path = d.links path := by
    apply Function.update_of_ne
    rintro rfl
    exact lasting temporary
  cases effect with
  | quiet => exact .inl rfl
  | @create draw _ _ _ at_ created =>
    subst at_
    obtain ⟨_, _, rfl⟩ := Disk.create_eq created
    exact .inl (unlinked _ _ ⟨ready.progress, draw, rfl⟩)
  | write => exact .inl rfl
  | @publish temp file _ at_ done =>
    subst at_
    obtain ⟨moved, found, rfl⟩ := Option.map_eq_some_iff.mp done
    cases (((ready.held temp file rfl).only temp).mpr rfl).symm.trans found
    have other := unlinked (disk.link (job.filename dir) (some file)) none (ready.temporary temp rfl)
    by_cases same : path = job.filename dir
    · refine .inr ⟨temp, file, rfl, rfl, same, ?_, rfl, rfl⟩
      rw [other, same]
      exact Function.update_self _ _ _
    · refine .inl (other.trans ?_)
      exact Function.update_of_ne same _ _
  | unlink at_ =>
    subst at_
    exact .inl (unlinked _ _ (ready.temporary _ rfl))

theorem Effect.renamed : stage'.renamed = true ↔ stage.renamed = true ∨ operation = .rename true := by
  cases effect with
  | quiet other _ _ renamed => simp [renamed, other]
  | create at_ _ holds =>
    subst at_
    rw [renamed_of_holds holds]
    simp [Stage.renamed]
  | write other before holds => simp [renamed_of_holds before, renamed_of_holds holds, other]
  | publish => simp [Stage.renamed]
  | @unlink _ _ result at_ =>
    subst at_
    cases result <;> simp [Stage.renamed]

theorem Effect.removes {temp : Str} {file : Nat} {result : Except Failure (Str × Nat)}
    (ended : stage' = .returned result) (held : Held disk temp file) (holds : stage.holds = some (temp, file))
    (works : operation ≠ .remove false) :
    disk'.entry temp = none ∧ ∀ path, disk'.entry path ≠ some file := by
  subst ended
  cases effect with
  | quiet _ _ kept =>
    rcases kept with same | ⟨_, failed⟩
    · cases same.trans holds
    · exact absurd failed works
  | create _ _ after => contradiction
  | write _ _ after => contradiction
  | unlink at_ =>
    subst at_
    cases result with
    | ok report => contradiction
    | error err =>
      cases holds
      refine ⟨by simp [Disk.unlink], ?_⟩
      intro path
      rw [Disk.unlink, Disk.entry_link]
      split
      · nofun
      · rename_i different
        exact mt (held.only path).mp different

end Effects

theorem progress_of_files (same : ∀ temp file, stage.holds = some (temp, file) → disk'.files file = disk.files file)
    (progress : Progress enc dir disk job stage) : Progress enc dir disk' job stage := by
  cases stage with
  | write temp file rest => simpa only [Progress, same temp file rfl] using progress
  | sync temp file => simpa only [Progress, same temp file rfl] using progress
  | close temp file => simpa only [Progress, same temp file rfl] using progress
  | rename temp file => simpa only [Progress, same temp file rfl] using progress
  | mkdirAll | createTemp | abandon | remove | returned | crashed => exact progress

theorem move_progress (moved : move enc dir disk job stage operation = some (disk', stage'))
    (progress : Progress enc dir disk job stage) : Progress enc dir disk' job stage' := by
  unfold move at moved
  split at moved
  · obtain ⟨given, same⟩ := Option.ite_none_left_eq_some.mp moved
    cases same
    exact given
  · cases moved
    trivial
  · cases moved
    trivial
  · obtain ⟨⟨made, file⟩, created, same⟩ := Option.map_eq_some_iff.mp moved
    cases same
    obtain ⟨_, rfl, rfl⟩ := Disk.create_eq created
    cases content : job.content enc with
    | none => trivial
    | some text => simp [Progress, content]
  · rename_i temp file rest count
    cases moved
    have content : job.content enc = some ((disk.files file).content ++ rest) := progress
    split
    · rename_i all
      simp [Progress, Disk.append, content, List.take_of_length_le all]
    · simp [Progress, Disk.append, content]
  · cases (Option.ite_none_right_eq_some.mp moved).2
    trivial
  · cases moved
    exact ⟨by simpa [Progress, Disk.fsync] using progress, by simp [Disk.fsync]⟩
  · cases moved
    trivial
  · cases moved
    exact progress
  · cases moved
    trivial
  · cases moved
    trivial
  · obtain ⟨renamed, _, same⟩ := Option.map_eq_some_iff.mp moved
    cases same
    trivial
  · cases moved
    trivial
  · cases moved
    trivial
  · contradiction

theorem move_ready (moved : move enc dir disk job stage operation = some (disk', stage')) (bounded : disk.Bounded)
    (ready : Ready enc dir disk job stage) : Ready enc dir disk' job stage' := by
  have effect := move_effect moved
  refine ⟨?_, fun temp file after => effect.held bounded ready.held after, move_progress moved ready.progress⟩
  intro temp after
  rcases effect.temp after with before | ⟨at_, draw, _, same⟩
  · exact ready.temporary temp before
  · subst at_
    exact ⟨ready.progress, draw, same⟩

theorem Ready.keeps (ready : Ready enc dir disk job stage)
    (keeps : ∀ temp file, stage.holds = some (temp, file) → disk.Keeps disk' file) :
    Ready enc dir disk' job stage := by
  refine ⟨ready.temporary, ?_, ?_⟩
  · intro temp file holds
    have held := ready.held temp file holds
    have kept := keeps temp file holds
    exact ⟨held.older.trans_le kept.next, fun path => (kept.entry path).trans (held.only path)⟩
  · exact progress_of_files (fun temp file holds => (keeps temp file holds).files) ready.progress

theorem move_alive {moved : Disk × Stage}
    (moves : move enc dir disk job .crashed operation = some moved) : False := by
  cases operation <;> contradiction

end Moves

end EdgeGuard.Jobs.Report
