import EdgeGuard.Go.Http

/-! The recorders that the gateway's middlewares stack on the response: what
reaches the server's writer through them, and what they report. -/
namespace EdgeGuard.Gateway
open Go Go.Http

variable {σ : Type}

structure Recorder (σ : Type) where
  responseWriter : σ
  statusCode : Nat
  bytesWritten : Nat
  wroteHeader : Bool

namespace Recorder

def new (writer : σ) : Recorder σ := ⟨writer, 200, 0, false⟩

def writeHeader (w : ResponseWriter σ) (statusCode : Nat) (r : Recorder σ) : Recorder σ :=
  if r.wroteHeader then r
  else { r with statusCode, wroteHeader := true, responseWriter := w.writeHeader statusCode r.responseWriter }

def write (w : ResponseWriter σ) (data : Str) (r : Recorder σ) : Nat × Recorder σ :=
  let r := if r.wroteHeader then r else r.writeHeader w 200
  let (size, responseWriter) := w.write data r.responseWriter
  (size, { r with responseWriter, bytesWritten := r.bytesWritten + size })

def flush (w : ResponseWriter σ) (r : Recorder σ) : Recorder σ :=
  let r := if r.wroteHeader then r else r.writeHeader w 200
  { r with responseWriter := w.flush r.responseWriter }

def writer (w : ResponseWriter σ) : ResponseWriter (Recorder σ) where
  writeHeader := writeHeader w
  write := write w
  flush := flush w

/-- The calls that a new recorder hands on: one header at the start, then the body. -/
def passed : List Call → List Call
  | [] => []
  | .writeHeader status :: rest => .writeHeader status :: bodyCalls rest
  | call :: rest => .writeHeader .ok :: bodyCalls (call :: rest)

theorem passed_body {call : Call} (body : call.isHeader = false) (rest : List Call) :
    passed (call :: rest) = .writeHeader .ok :: bodyCalls (call :: rest) ∧
      openingStatus (call :: rest) = 200 := by
  cases call with
  | writeHeader status => contradiction
  | write data => exact ⟨rfl, rfl⟩
  | flush => exact ⟨rfl, rfl⟩

theorem passed_idem (calls : List Call) : passed (passed calls) = passed calls := by
  cases calls with
  | nil => rfl
  | cons call rest =>
    cases call with
    | writeHeader status => simp only [passed, bodyCalls_idem]
    | write data => simp only [passed, bodyCalls_idem]
    | flush => simp only [passed, bodyCalls_idem]

theorem openingStatus_passed (calls : List Call) :
    openingStatus (passed calls) = openingStatus calls := by
  cases calls with
  | nil => rfl
  | cons call rest =>
    cases call with
    | writeHeader status => rfl
    | write data => rfl
    | flush => rfl

variable (w : ResponseWriter σ) {r : Recorder σ}

theorem call_superfluous (wrote : r.wroteHeader = true) {call : Call}
    (header : call.isHeader = true) : (writer w).call r call = r ∧ (writer w).size r call = 0 := by
  cases call with
  | writeHeader status => simp [ResponseWriter.call, ResponseWriter.size, writer, writeHeader, wrote]
  | write data => contradiction
  | flush => contradiction

theorem call_body (wrote : r.wroteHeader = true) {call : Call} (body : call.isHeader = false) :
    (writer w).call r call = { r with
        responseWriter := w.call r.responseWriter call
        bytesWritten := r.bytesWritten + w.size r.responseWriter call } ∧
      (writer w).size r call = w.size r.responseWriter call := by
  cases call with
  | writeHeader status => contradiction
  | write data => simp [ResponseWriter.call, ResponseWriter.size, writer, write, wrote]
  | flush => simp [ResponseWriter.call, ResponseWriter.size, writer, flush, wrote]

/-- After its header a recorder drops further headers and counts the body. -/
theorem serve_latched (wrote : r.wroteHeader = true) (calls : List Call) :
    (writer w).serve r calls = { r with
        responseWriter := w.serve r.responseWriter (bodyCalls calls)
        bytesWritten := r.bytesWritten + w.taken r.responseWriter (bodyCalls calls) } ∧
      (writer w).taken r calls = w.taken r.responseWriter (bodyCalls calls) := by
  induction calls generalizing r with
  | nil => exact ⟨rfl, rfl⟩
  | cons call rest ih =>
    cases header : call.isHeader with
    | true =>
      obtain ⟨same, none⟩ := call_superfluous w wrote header
      rw [bodyCalls_header header, (writer w).serve_cons, (writer w).taken_cons, same, none,
        Nat.zero_add]
      exact ih wrote
    | false =>
      obtain ⟨counted, size⟩ := call_body w wrote header
      rw [bodyCalls_body header, (writer w).serve_cons, (writer w).taken_cons, counted, size]
      obtain ⟨state, total⟩ := @ih { r with
        responseWriter := w.call r.responseWriter call
        bytesWritten := r.bytesWritten + w.size r.responseWriter call } wrote
      rw [state, total]
      simp [Nat.add_assoc]

/-- `Write` and `Flush` write the header themselves. -/
theorem call_implied (unwritten : r.wroteHeader = false) {call : Call}
    (body : call.isHeader = false) :
    (writer w).call r call = (writer w).call (r.writeHeader w 200) call ∧
      (writer w).size r call = (writer w).size (r.writeHeader w 200) call := by
  have wrote : (r.writeHeader w 200).wroteHeader = true := by simp [writeHeader, unwritten]
  cases call with
  | writeHeader status => contradiction
  | write data => simp [ResponseWriter.call, ResponseWriter.size, writer, write, unwritten, wrote]
  | flush => simp [ResponseWriter.call, ResponseWriter.size, writer, flush, unwritten, wrote]

/-- What a recorder does once it has written a header. -/
theorem serve_opened (under : σ) (status : StatusCode) (rest : List Call) :
    let opened := (new under).writeHeader w status.code
    let handed := Call.writeHeader status :: bodyCalls rest
    (writer w).serve opened rest = ⟨w.serve under handed, status.code, w.taken under handed, true⟩ ∧
      (writer w).taken opened rest = w.taken under handed := by
  obtain ⟨state, total⟩ := @serve_latched σ w ((new under).writeHeader w status.code) rfl rest
  simp only [state, total]
  simp [new, writeHeader, ResponseWriter.call, ResponseWriter.size]

/-- What a new recorder reports, and the calls that reach the writer below it. -/
theorem serve_new (under : σ) (calls : List Call) :
    (writer w).serve (new under) calls =
        ⟨w.serve under (passed calls), openingStatus calls, w.taken under (passed calls),
          !calls.isEmpty⟩ ∧
      (writer w).taken (new under) calls = w.taken under (passed calls) := by
  cases calls with
  | nil => exact ⟨rfl, rfl⟩
  | cons call rest =>
    cases header : call.isHeader with
    | true =>
      cases call with
      | writeHeader status =>
        obtain ⟨state, total⟩ := serve_opened w under status rest
        exact ⟨state, (Nat.zero_add _).trans total⟩
      | write data => contradiction
      | flush => contradiction
    | false =>
      obtain ⟨handed, opening⟩ := passed_body header rest
      obtain ⟨same, size⟩ := @call_implied σ w (new under) rfl call header
      rw [handed, opening, (writer w).serve_cons, (writer w).taken_cons, same, size]
      exact serve_opened w under .ok (call :: rest)

end Recorder

structure ResponseRecorder (σ : Type) where
  responseWriter : σ
  status : Nat
  bytes : Nat

namespace ResponseRecorder

def new (w : σ) : ResponseRecorder σ := ⟨w, 200, 0⟩

def writeHeader (w : ResponseWriter σ) (status : Nat) (r : ResponseRecorder σ) : ResponseRecorder σ :=
  { r with status, responseWriter := w.writeHeader status r.responseWriter }

def write (w : ResponseWriter σ) (data : Str) (r : ResponseRecorder σ) : Nat × ResponseRecorder σ :=
  let r := if r.status = 0 then { r with status := 200 } else r
  let (size, responseWriter) := w.write data r.responseWriter
  (size, { r with responseWriter, bytes := r.bytes + size })

def flush (w : ResponseWriter σ) (r : ResponseRecorder σ) : ResponseRecorder σ :=
  { r with responseWriter := w.flush r.responseWriter }

def writer (w : ResponseWriter σ) : ResponseWriter (ResponseRecorder σ) where
  writeHeader := writeHeader w
  write := write w
  flush := flush w

variable (w : ResponseWriter σ)

theorem call_eq {r : ResponseRecorder σ} (nonzero : r.status ≠ 0) (call : Call) :
    (writer w).call r call =
        ⟨w.call r.responseWriter call, lastStatus r.status [call],
          r.bytes + w.size r.responseWriter call⟩ ∧
      (writer w).size r call = w.size r.responseWriter call := by
  cases call with
  | writeHeader status => exact ⟨rfl, rfl⟩
  | write data =>
    simp [ResponseWriter.call, ResponseWriter.size, writer, write, nonzero, lastStatus]
  | flush => exact ⟨rfl, rfl⟩

/-- Every call is handed on, and the status is that of the last `WriteHeader`. -/
theorem serve_eq {r : ResponseRecorder σ} (nonzero : r.status ≠ 0) (calls : List Call) :
    (writer w).serve r calls =
        ⟨w.serve r.responseWriter calls, lastStatus r.status calls,
          r.bytes + w.taken r.responseWriter calls⟩ ∧
      (writer w).taken r calls = w.taken r.responseWriter calls := by
  induction calls generalizing r with
  | nil => exact ⟨rfl, rfl⟩
  | cons call rest ih =>
    obtain ⟨called, size⟩ := call_eq w nonzero call
    have code : lastStatus r.status [call] ≠ 0 := lastStatus_ne_zero nonzero [call]
    rw [(writer w).serve_cons, (writer w).taken_cons, called, size]
    obtain ⟨state, total⟩ := @ih ⟨w.call r.responseWriter call, lastStatus r.status [call],
      r.bytes + w.size r.responseWriter call⟩ code
    rw [state, total, lastStatus_cons r.status call rest]
    simp [Nat.add_assoc]

theorem serve_new (under : σ) (calls : List Call) :
    (writer w).serve (new under) calls =
        ⟨w.serve under calls, lastStatus 200 calls, w.taken under calls⟩ ∧
      (writer w).taken (new under) calls = w.taken under calls := by
  obtain ⟨state, total⟩ := @serve_eq σ w (new under) (by simp [new]) calls
  exact ⟨by simpa [new] using state, total⟩

end ResponseRecorder

/-- The response that handlers of the gateway write to, the recorder of `Logging`. The
middlewares wrap it in the order of `metrics.Middleware`,
`platformtracing.RouteMiddleware`, `AccessEvents` and `Logging`. -/
abbrev Stack := ResponseRecorder (ResponseRecorder (Recorder (Recorder Response)))

namespace Stack

def new : Stack :=
  ResponseRecorder.new (ResponseRecorder.new (Recorder.new (Recorder.new Response.new)))

def writer (server : Server) : ResponseWriter Stack :=
  ResponseRecorder.writer (ResponseRecorder.writer (Recorder.writer (Recorder.writer (netHTTP server))))

def accessEvents (s : Stack) : ResponseRecorder (Recorder (Recorder Response)) := s.responseWriter

def tracing (s : Stack) : Recorder (Recorder Response) := s.accessEvents.responseWriter

def metrics (s : Stack) : Recorder Response := s.tracing.responseWriter

def response (s : Stack) : Response := s.metrics.responseWriter

end Stack

/-- The whole stack after the calls of a handler. -/
theorem Stack.serve_new (server : Server) (calls : List Call) :
    (Stack.writer server).serve .new calls =
      let sent := Recorder.passed calls
      let response := (netHTTP server).serve .new sent
      let size := (netHTTP server).taken .new sent
      let metrics : Recorder Response := ⟨response, openingStatus calls, size, !sent.isEmpty⟩
      let tracing : Recorder (Recorder Response) := ⟨metrics, openingStatus calls, size, !calls.isEmpty⟩
      ⟨⟨tracing, lastStatus 200 calls, size⟩, lastStatus 200 calls, size⟩ := by
  let m := Recorder.writer (netHTTP server)
  let t := Recorder.writer m
  have metrics := Recorder.serve_new (netHTTP server) .new (Recorder.passed calls)
  rw [Recorder.passed_idem, Recorder.openingStatus_passed] at metrics
  have tracing := Recorder.serve_new m (.new .new) calls
  rw [metrics.1, metrics.2] at tracing
  have access := ResponseRecorder.serve_new t (.new (.new .new)) calls
  rw [tracing.1, tracing.2] at access
  have logging := ResponseRecorder.serve_new (ResponseRecorder.writer t) (.new (.new (.new .new))) calls
  rw [access.1, access.2] at logging
  exact logging.1

/-- With a final status first, the recorders hand on what the server would see. -/
theorem serve_passed (server : Server) {calls : List Call}
    (final : isInformational (openingStatus calls) = false) :
    (netHTTP server).serve .new (Recorder.passed calls) = (netHTTP server).serve .new calls ∧
      (netHTTP server).taken .new (Recorder.passed calls) = (netHTTP server).taken .new calls ∧
      ((netHTTP server).serve .new calls).finalStatus = openingStatus calls := by
  have opened (status : StatusCode) (other : isInformational status.code = false) (rest : List Call) :
      let r := Response.new.writeHeader status.code
      (netHTTP server).serve r (bodyCalls rest) = (netHTTP server).serve r rest ∧
        (netHTTP server).taken r (bodyCalls rest) = (netHTTP server).taken r rest ∧
        ((netHTTP server).serve r rest).finalStatus = status.code := by
    have header : Response.new.writeHeader status.code = { Response.new with
        wroteHeader := true, status := status.code } := writeHeader_final rfl other
    have wrote : (Response.new.writeHeader status.code).wroteHeader = true := by rw [header]
    obtain ⟨state, total⟩ := serve_bodyCalls server wrote rest
    obtain ⟨still, same⟩ := serve_wroteHeader server wrote rest
    refine ⟨state, total, ?_⟩
    rw [Response.finalStatus, if_pos still, same, header]
  cases calls with
  | nil => exact ⟨rfl, rfl, rfl⟩
  | cons call rest =>
    cases header : call.isHeader with
    | true =>
      cases call with
      | writeHeader status =>
        obtain ⟨state, total, status⟩ := opened status final rest
        exact ⟨state, congrArg (0 + ·) total, status⟩
      | write data => contradiction
      | flush => contradiction
    | false =>
      obtain ⟨handed, opening⟩ := Recorder.passed_body header rest
      obtain ⟨same, size⟩ := @call_implied .new server rfl call header
      obtain ⟨state, total, status⟩ := opened .ok isInformational_ok (call :: rest)
      have first : (netHTTP server).serve (Response.new.writeHeader 200) (call :: rest) =
          (netHTTP server).serve .new (call :: rest) := by
        rw [(netHTTP server).serve_cons, (netHTTP server).serve_cons, same]
      have sizes : (netHTTP server).taken (Response.new.writeHeader 200) (call :: rest) =
          (netHTTP server).taken .new (call :: rest) := by
        rw [(netHTTP server).taken_cons, (netHTTP server).taken_cons, same, size]
      rw [handed, opening]
      refine ⟨state.trans first, ?_, ?_⟩
      · exact (Nat.zero_add _).trans (total.trans sizes)
      · exact first ▸ status

/-- The server sends what it would send without the recorders, and each of them
reports the final status and the bytes of the body. -/
structure Accurate (plain : Response) (stack : Stack) : Prop where
  status : stack.response.finalStatus = plain.finalStatus
  body : stack.response.body = plain.body
  metrics : stack.metrics.statusCode = plain.finalStatus ∧
    stack.metrics.bytesWritten = plain.body.length
  tracing : stack.tracing.statusCode = plain.finalStatus ∧
    stack.tracing.bytesWritten = plain.body.length
  accessEvents : stack.accessEvents.status = plain.finalStatus ∧
    stack.accessEvents.bytes = plain.body.length
  logging : stack.status = plain.finalStatus ∧ stack.bytes = plain.body.length

/-- Recording is accurate exactly when the first call has a final status, no later
call of `WriteHeader` ends with another one, and no `Write` reports bytes to a `HEAD`,
whose body the server drops. -/
theorem recording_is_accurate_iff (server : Server) (calls : List Call) :
    Accurate ((netHTTP server).serve .new calls) ((Stack.writer server).serve .new calls) ↔
      isInformational (openingStatus calls) = false ∧ lastStatus 200 calls = openingStatus calls ∧
        (server.method = lit "HEAD" → (netHTTP server).taken .new calls = 0) := by
  have stack := Stack.serve_new server calls
  have length := serve_length server .new calls
  constructor
  · intro accurate
    -- the latch of the recorder keeps an informational status
    have reported : openingStatus calls = ((netHTTP server).serve .new calls).finalStatus := by
      have metrics := accurate.metrics.1
      rw [stack] at metrics
      exact metrics
    have final : isInformational (openingStatus calls) = false := by
      rw [reported]
      exact serve_final server calls (by simp [Response.new])
    have logged := accurate.logging.1
    rw [stack] at logged
    refine ⟨final, logged.trans reported.symm, ?_⟩
    intro method
    have head : server.isHead = true := beq_iff_eq.mpr method
    have bytes := accurate.metrics.2
    rw [stack, length, if_pos head] at bytes
    exact (serve_passed server final).2.1 ▸ bytes
  · rintro ⟨final, last, bodiless⟩
    obtain ⟨state, total, status⟩ := serve_passed server final
    have sent : (netHTTP server).taken .new calls = ((netHTTP server).serve .new calls).body.length := by
      rw [length]
      split
      · exact bodiless (beq_iff_eq.mp ‹_›)
      · exact (Nat.zero_add _).symm
    rw [stack]
    constructor
    · exact congrArg Response.finalStatus state
    · exact congrArg Response.body state
    · exact ⟨status.symm, total.trans sent⟩
    · exact ⟨status.symm, total.trans sent⟩
    · exact ⟨last.trans status.symm, total.trans sent⟩
    · exact ⟨last.trans status.symm, total.trans sent⟩

/-- The upstream sends early hints and then fails: the client receives 200 with the
body of the error, and the metrics count 103. -/
theorem early_hints_hide_failure :
    let server : Server := ⟨⟨none, fun _ data => data.length⟩, lit "GET"⟩
    let calls : List Call := [.writeHeader ⟨103, by decide, by decide⟩,
      .writeHeader ⟨502, by decide, by decide⟩, .write (lit "upstream error")]
    let plain := (netHTTP server).serve .new calls
    let stack := (Stack.writer server).serve .new calls
    plain.finalStatus = 502 ∧ stack.response.finalStatus = 200 ∧
      stack.response.body = lit "upstream error" ∧ stack.metrics.statusCode = 103 ∧
      stack.status = 502 ∧ ¬ Accurate plain stack := by
  refine ⟨rfl, rfl, rfl, rfl, rfl, ?_⟩
  intro accurate
  exact absurd accurate.status (by decide)

end EdgeGuard.Gateway
