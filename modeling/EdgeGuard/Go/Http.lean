import EdgeGuard.Go.Strings

/-! Response writers: call sequences on an `http.ResponseWriter` with `Flush`, and
the writer that `net/http` hands to a handler. -/
namespace EdgeGuard.Go.Http

/-- A code that `WriteHeader` takes without a panic. -/
structure StatusCode where
  code : Nat
  low : 100 ≤ code
  high : code ≤ 999

def StatusCode.ok : StatusCode := ⟨200, by decide, by decide⟩

inductive Call where
  | writeHeader (status : StatusCode)
  | write (data : Str)
  | flush

/-- The methods of a writer over the state behind it. `Write` reports a size. -/
structure ResponseWriter (σ : Type) where
  writeHeader : Nat → σ → σ
  write : Str → σ → Nat × σ
  flush : σ → σ

namespace ResponseWriter
variable {σ : Type} (w : ResponseWriter σ)

def call (s : σ) : Call → σ
  | .writeHeader status => w.writeHeader status.code s
  | .write data => (w.write data s).2
  | .flush => w.flush s

def size (s : σ) : Call → Nat
  | .write data => (w.write data s).1
  | _ => 0

/-- The writer after the calls of a handler. -/
def serve : σ → List Call → σ
  | s, [] => s
  | s, call :: rest => serve (w.call s call) rest

/-- The sizes that `Write` reports on the way, in total. -/
def taken : σ → List Call → Nat
  | _, [] => 0
  | s, call :: rest => w.size s call + taken (w.call s call) rest

@[simp] theorem serve_nil (s : σ) : w.serve s [] = s := rfl

@[simp] theorem serve_cons (s : σ) (call : Call) (rest : List Call) :
    w.serve s (call :: rest) = w.serve (w.call s call) rest := rfl

@[simp] theorem taken_nil (s : σ) : w.taken s [] = 0 := rfl

@[simp] theorem taken_cons (s : σ) (call : Call) (rest : List Call) :
    w.taken s (call :: rest) = w.size s call + w.taken (w.call s call) rest := rfl

end ResponseWriter

def Call.isHeader : Call → Bool
  | .writeHeader _ => true
  | _ => false

/-- The calls without those of `WriteHeader`. -/
def bodyCalls (calls : List Call) : List Call := calls.filter (fun call => !call.isHeader)

/-- The status of the first call; `Write` and `Flush` imply 200. -/
def openingStatus : List Call → Nat
  | .writeHeader status :: _ => status.code
  | _ => 200

/-- The status of the last call of `WriteHeader`. -/
def lastStatus (default : Nat) : List Call → Nat
  | [] => default
  | .writeHeader status :: rest => lastStatus status.code rest
  | _ :: rest => lastStatus default rest

theorem bodyCalls_header {call : Call} (header : call.isHeader = true) (rest : List Call) :
    bodyCalls (call :: rest) = bodyCalls rest := by
  simp [bodyCalls, header]

theorem bodyCalls_body {call : Call} (body : call.isHeader = false) (rest : List Call) :
    bodyCalls (call :: rest) = call :: bodyCalls rest := by
  simp [bodyCalls, body]

theorem bodyCalls_idem (calls : List Call) : bodyCalls (bodyCalls calls) = bodyCalls calls := by
  simp [bodyCalls, List.filter_filter]

/-- Whatever holds of the default and of every code holds of the last status. -/
theorem lastStatus_induction (P : Nat → Prop) (codes : ∀ status : StatusCode, P status.code)
    {default : Nat} (holds : P default) (calls : List Call) : P (lastStatus default calls) := by
  induction calls generalizing default with
  | nil => exact holds
  | cons call rest ih =>
    cases call with
    | writeHeader status => exact ih (codes status)
    | write data => exact ih holds
    | flush => exact ih holds

theorem lastStatus_ne_zero {default : Nat} (nonzero : default ≠ 0) (calls : List Call) :
    lastStatus default calls ≠ 0 := by
  refine lastStatus_induction (· ≠ 0) ?_ nonzero calls
  intro status
  have low := status.low
  omega

theorem lastStatus_cons (default : Nat) (call : Call) (rest : List Call) :
    lastStatus default (call :: rest) = lastStatus (lastStatus default [call]) rest := by
  cases call with
  | writeHeader status => rfl
  | write data => rfl
  | flush => rfl

/-- A `1xx` status that is sent on its own, ahead of the final one. -/
def isInformational (code : Nat) : Bool := 100 ≤ code && code ≤ 199 && code != 101

def bodyAllowedForStatus (status : Nat) : Bool :=
  !(100 ≤ status && status ≤ 199) && status != 204 && status != 304

/-- The declared length of the body, and how many bytes the connection takes of a
chunk after those it took before. -/
structure Connection where
  contentLength : Option Nat
  accepts : Str → Str → Nat

/-- A connection with the method of the request it answers. -/
structure Server extends Connection where
  method : Str

def Server.isHead (server : Server) : Bool := server.method == lit "HEAD"

/-- The response of a server: what was sent, and the bytes handlers offered. -/
structure Response where
  wroteHeader : Bool
  status : Nat
  informational : List Nat
  offered : Nat
  body : Str

namespace Response

def new : Response := ⟨false, 0, [], 0, []⟩

def writeHeader (code : Nat) (r : Response) : Response :=
  if r.wroteHeader then r
  else if isInformational code then { r with informational := r.informational ++ [code] }
  else { r with wroteHeader := true, status := code }

/-- What `Write` and `Flush` do first. -/
def ensureHeader (r : Response) : Response := if r.wroteHeader then r else r.writeHeader 200

def write (server : Server) (data : Str) (r : Response) : Nat × Response :=
  let r := r.ensureHeader
  if data = [] ∨ bodyAllowedForStatus r.status = false then (0, r)
  else
    let offered := r.offered + data.length
    if server.contentLength.any (· < offered) then (0, { r with offered })
    else if server.isHead then (data.length, { r with offered })
    else
      let size := min (server.accepts r.body data) data.length
      (size, { r with offered, body := r.body ++ data.take size })

def flush (r : Response) : Response := r.ensureHeader

/-- The status once the handler has returned. -/
def finalStatus (r : Response) : Nat := if r.wroteHeader then r.status else 200

end Response

def netHTTP (server : Server) : ResponseWriter Response where
  writeHeader := Response.writeHeader
  write := Response.write server
  flush := Response.flush

variable {server : Server} {r : Response}

theorem isInformational_ok : isInformational 200 = false := rfl

theorem writeHeader_final {code : Nat} (unwritten : r.wroteHeader = false)
    (final : isInformational code = false) :
    r.writeHeader code = { r with wroteHeader := true, status := code } := by
  simp [Response.writeHeader, unwritten, final]

theorem ensureHeader_wrote (wrote : r.wroteHeader = true) : r.ensureHeader = r := by
  simp [Response.ensureHeader, wrote]

theorem writeHeader_body (code : Nat) (r : Response) : (r.writeHeader code).body = r.body := by
  unfold Response.writeHeader
  split
  · rfl
  · split
    · rfl
    · rfl

theorem ensureHeader_body (r : Response) : r.ensureHeader.body = r.body := by
  unfold Response.ensureHeader
  split
  · rfl
  · exact writeHeader_body 200 r

/-- `Write` keeps the header, and the body grows by the size it reports, unless the
request is `HEAD`. -/
theorem write_spec (data : Str) (r : Response) :
    (r.write server data).2.wroteHeader = r.ensureHeader.wroteHeader ∧
      (r.write server data).2.status = r.ensureHeader.status ∧
      (r.write server data).2.body.length =
        r.body.length + if server.isHead then 0 else (r.write server data).1 := by
  have same := ensureHeader_body r
  simp only [Response.write]
  split
  · exact ⟨rfl, rfl, by simp [same]⟩
  · split
    · exact ⟨rfl, rfl, by simp [same]⟩
    · split
      · exact ⟨rfl, rfl, by simp [same]⟩
      · exact ⟨rfl, rfl, by simp [same]⟩

theorem call_wroteHeader (server : Server) (wrote : r.wroteHeader = true) (call : Call) :
    ((netHTTP server).call r call).wroteHeader = true ∧
      ((netHTTP server).call r call).status = r.status := by
  cases call with
  | writeHeader status => simp [ResponseWriter.call, netHTTP, Response.writeHeader, wrote]
  | flush => simp [ResponseWriter.call, netHTTP, Response.flush, ensureHeader_wrote wrote, wrote]
  | write data =>
    obtain ⟨header, status, _⟩ := @write_spec server data r
    rw [ensureHeader_wrote wrote] at header status
    exact ⟨header.trans wrote, status⟩

theorem serve_wroteHeader (server : Server) (wrote : r.wroteHeader = true) (calls : List Call) :
    ((netHTTP server).serve r calls).wroteHeader = true ∧
      ((netHTTP server).serve r calls).status = r.status := by
  induction calls generalizing r with
  | nil => exact ⟨wrote, rfl⟩
  | cons call rest ih =>
    obtain ⟨still, same⟩ := call_wroteHeader server wrote call
    exact same ▸ ih still

theorem call_superfluous (server : Server) (wrote : r.wroteHeader = true) {call : Call}
    (header : call.isHeader = true) :
    (netHTTP server).call r call = r ∧ (netHTTP server).size r call = 0 := by
  cases call with
  | writeHeader status =>
    simp [ResponseWriter.call, ResponseWriter.size, netHTTP, Response.writeHeader, wrote]
  | write data => contradiction
  | flush => contradiction

theorem serve_bodyCalls (server : Server) (wrote : r.wroteHeader = true) (calls : List Call) :
    (netHTTP server).serve r (bodyCalls calls) = (netHTTP server).serve r calls ∧
      (netHTTP server).taken r (bodyCalls calls) = (netHTTP server).taken r calls := by
  induction calls generalizing r with
  | nil => exact ⟨rfl, rfl⟩
  | cons call rest ih =>
    obtain ⟨state, total⟩ := ih (call_wroteHeader server wrote call).1
    cases header : call.isHeader with
    | true =>
      obtain ⟨same, none⟩ := call_superfluous server wrote header
      rw [same] at state total
      rw [bodyCalls_header header, ResponseWriter.serve_cons, ResponseWriter.taken_cons, same, none,
        Nat.zero_add]
      exact ⟨state, total⟩
    | false =>
      rw [bodyCalls_body header]
      exact ⟨state, congrArg ((netHTTP server).size r call + ·) total⟩

theorem call_implied (server : Server) (unwritten : r.wroteHeader = false) {call : Call}
    (body : call.isHeader = false) :
    (netHTTP server).call (r.writeHeader 200) call = (netHTTP server).call r call ∧
      (netHTTP server).size (r.writeHeader 200) call = (netHTTP server).size r call := by
  have ensured : (r.writeHeader 200).ensureHeader = r.ensureHeader := by
    have header := writeHeader_final unwritten isInformational_ok
    simp [Response.ensureHeader, header, unwritten]
  cases call with
  | writeHeader status => contradiction
  | write data =>
    simp [ResponseWriter.call, ResponseWriter.size, netHTTP, Response.write, ensured]
  | flush => simp [ResponseWriter.call, ResponseWriter.size, netHTTP, Response.flush, ensured]

/-- The body holds what the calls of `Write` reported; of a `HEAD` it holds nothing. -/
theorem serve_length (server : Server) (r : Response) (calls : List Call) :
    ((netHTTP server).serve r calls).body.length =
      r.body.length + if server.isHead then 0 else (netHTTP server).taken r calls := by
  induction calls generalizing r with
  | nil => simp
  | cons call rest ih =>
    have grown : ((netHTTP server).call r call).body.length =
        r.body.length + if server.isHead then 0 else (netHTTP server).size r call := by
      cases call with
      | writeHeader status => simp [ResponseWriter.call, ResponseWriter.size, netHTTP, writeHeader_body]
      | flush =>
        simp [ResponseWriter.call, ResponseWriter.size, netHTTP, Response.flush, ensureHeader_body]
      | write data => exact (write_spec data r).2.2
    rw [ResponseWriter.serve_cons, ResponseWriter.taken_cons, ih, grown]
    split
    · rfl
    · exact Nat.add_assoc _ _ _

theorem serve_final (server : Server) (calls : List Call)
    (final : r.wroteHeader = true → isInformational r.status = false) :
    isInformational ((netHTTP server).serve r calls).finalStatus = false := by
  have ensured (r : Response) (final : r.wroteHeader = true → isInformational r.status = false) :
      isInformational r.ensureHeader.status = false := by
    cases wrote : r.wroteHeader with
    | true =>
      rw [ensureHeader_wrote wrote]
      exact final wrote
    | false => simp [Response.ensureHeader, wrote, writeHeader_final wrote isInformational_ok,
        isInformational_ok]
  induction calls generalizing r with
  | nil =>
    cases wrote : r.wroteHeader with
    | true => simpa [Response.finalStatus, wrote] using final wrote
    | false => simp [Response.finalStatus, wrote, isInformational_ok]
  | cons call rest ih =>
    apply ih
    intro wrote
    cases call with
    | write data =>
      have status : ((netHTTP server).call r (.write data)).status = r.ensureHeader.status :=
        (write_spec data r).2.1
      rw [status]
      exact ensured r final
    | flush => exact ensured r final
    | writeHeader status =>
      simp only [ResponseWriter.call, netHTTP, Response.writeHeader] at wrote ⊢
      split at wrote
      · rename_i already
        simpa [already] using final already
      · rename_i unwritten
        split at wrote
        · exact absurd wrote unwritten
        · rename_i other
          simp [unwritten, other]

end EdgeGuard.Go.Http
