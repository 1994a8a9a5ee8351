import EdgeGuard.Go.NetIP
import EdgeGuard.Jobs.Agreement

/-! The delivery of a webhook. The host is resolved once, every address is checked,
and the HTTP client's connections go through a dialer that knows these addresses only.
Resolver, transport and the server that answers are arbitrary. -/
namespace EdgeGuard.Jobs.Webhook
open Go

def blockedIP (ip : IP) : Bool :=
  ip.isLoopback || ip.isPrivate || ip.isUnspecified || ip.isMulticast || ip.isLinkLocalUnicast ||
    ip.isLinkLocalMulticast

inductive DialError where
  | badAddress
  | unexpectedHost (host : Str)
  | unreachable
  deriving DecidableEq, Repr

/-- The errors of `Deliver`; a failed request carries the error of its last dial. -/
inductive DeliveryError where
  | invalidURL
  | invalidMethod
  | createRequest
  | blockedTarget (address : IP)
  | nonRetryableStatus (code : Nat)
  | resolveHost
  | noAddresses
  | deliver (cause : Option DialError)
  | unexpectedStatus (code : Nat)
  deriving DecidableEq

/-- `domain.IsPermanent`: the error or one that it wraps is `Permanent`. -/
def DeliveryError.isPermanent : DeliveryError → Bool
  | .invalidURL | .invalidMethod | .createRequest | .blockedTarget _ | .nonRetryableStatus _ => true
  | .deliver (some (.unexpectedHost _)) => true
  | _ => false

structure Sender where
  allowedHosts : List Str

/-- What `http.Client` sees of an answer. -/
structure Response where
  statusCode : Nat
  location : Str
  deriving DecidableEq, Repr

/-- One request of the client: the dials that the transport asks for, each with its
network and address, and the answer unless the request fails. -/
structure RoundTrip where
  dials : List (Str × Str)
  response : Option Response

/-- The answer of a `CheckRedirect` function. -/
inductive RedirectPolicy where
  | follow
  | useLastResponse

section Sender
variable {ν υ : Type} (lib : Library ν υ) (text : IPText) (equalFold : Str → Str → Bool) (net : Network)

/-- `New`. -/
def newSender (allowedHosts : List Str) : Sender where
  allowedHosts := (allowedHosts.map fun host => lib.toLower (trimSpace host)).filter (· ≠ [])

/-- The addresses of a host: its own if it is an address, else what the resolver says. -/
def hostAddresses (host : Str) (t : Traffic) : Traffic × Option (List IP) :=
  match text.parseIP host with
  | some parsed => (t, some [parsed])
  | none => net.lookupIPAddr host t

def resolveTarget (s : Sender) (rawURL : Str) (t : Traffic) :
    Traffic × Except DeliveryError (υ × List IP) :=
  match lib.net.parse (trimSpace rawURL) with
  | none => (t, .error .invalidURL)
  | some target =>
    if lib.net.hostname target = [] ∨ lib.net.scheme target ∉ webSchemes ∨
        (lib.net.user target).isSome then (t, .error .invalidURL)
    else
      let host := lib.toLower (lib.net.hostname target)
      match hostAddresses text net host t with
      | (t, none) => (t, .error .resolveHost)
      | (t, some addresses) =>
        if addresses = [] then (t, .error .noAddresses)
        else if host ∈ s.allowedHosts then (t, .ok (target, addresses))
        else match addresses.find? blockedIP with
          | some address => (t, .error (.blockedTarget address))
          | none => (t, .ok (target, addresses))

/-- The loop of `fixedDialer` over the addresses that are left. -/
def dialAddresses (port : Str) : List IP → Traffic → Traffic × Except DialError Unit
  | [], t => (t, .error .unreachable)
  | ip :: rest, t =>
    match net.dialContext text (joinHostPort (text.string ip) port) t with
    | (t, true) => (t, .ok ())
    | (t, false) => dialAddresses port rest t

/-- `fixedDialer`. The network is passed on to the dialer. -/
def fixedDialer (expectedHost : Str) (addresses : List IP) (dial : Str × Str) (t : Traffic) :
    Traffic × Except DialError Unit :=
  match splitHostPort dial.2 with
  | none => (t, .error .badAddress)
  | some (host, port) =>
    if equalFold host expectedHost = false then (t, .error (.unexpectedHost host))
    else dialAddresses text net port addresses t

def dialAll (expectedHost : Str) (addresses : List IP) (dials : List (Str × Str)) (t : Traffic) :
    Traffic × Option DialError :=
  dials.foldl (fun state dial =>
    match fixedDialer text equalFold net expectedHost addresses dial state.1 with
    | (t, .ok ()) => (t, none)
    | (t, .error err) => (t, some err)) (t, none)

/-- The statuses on which `http.Client` asks `CheckRedirect`. -/
def redirects (response : Response) : Bool :=
  [301, 302, 303, 307, 308].contains response.statusCode && response.location != []

/-- `Client.Do` on the round trips that it would make. -/
def clientDo (policy : RedirectPolicy) (expectedHost : Str) (addresses : List IP) :
    List RoundTrip → Traffic → Traffic × Except (Option DialError) Response
  | [], t => (t, .error none)
  | trip :: rest, t =>
    match dialAll text equalFold net expectedHost addresses trip.dials t with
    | (t, cause) =>
      match trip.response with
      | none => (t, .error cause)
      | some response =>
        if redirects response then
          match policy with
          | .useLastResponse => (t, .ok response)
          | .follow => clientDo policy expectedHost addresses rest t
        else (t, .ok response)

def retryableStatus (statusCode : Nat) : Bool :=
  statusCode == 408 || statusCode == 425 || statusCode == 429 || 500 ≤ statusCode

/-- `Deliver`. Headers, body and time limits decide about the round trips, which
are arbitrary. -/
def deliver (s : Sender) (payload : WebhookPayload) (trips : List RoundTrip) (t : Traffic) :
    Traffic × Except DeliveryError Unit :=
  match resolveTarget lib text net s payload.url t with
  | (t, .error err) => (t, .error err)
  | (t, .ok (target, addresses)) =>
    if lib.toUpper (trimSpace payload.method) ∉ webhookMethods then (t, .error .invalidMethod)
    else match lib.net.parse (lib.net.string target) with
      | none => (t, .error .createRequest)
      | some _ =>
        match clientDo text equalFold net .useLastResponse (lib.net.hostname target) addresses trips t with
        | (t, .error cause) => (t, .error (.deliver cause))
        | (t, .ok response) =>
          if 200 ≤ response.statusCode ∧ response.statusCode < 300 then (t, .ok ())
          else if retryableStatus response.statusCode then
            (t, .error (.unexpectedStatus response.statusCode))
          else (t, .error (.nonRetryableStatus response.statusCode))

end Sender

theorem blockedIP_congr {ip other : IP} (same : ip.equal other = true) :
    blockedIP ip = blockedIP other := by
  simp only [blockedIP, IP.isLoopback, IP.isPrivate, IP.isMulticast, IP.isLinkLocalUnicast,
    IP.isLinkLocalMulticast, IP.either_congr _ _ same, IP.isUnspecified_congr same]

variable {ν υ : Type} {lib : Library ν υ} {text : IPText} {equalFold : Str → Str → Bool} {net : Network}
variable {s : Sender}

structure Resolved (lib : Library ν υ) (text : IPText) (net : Network) (s : Sender) (rawURL : Str)
    (t : Traffic) (target : υ) (addresses : List IP) : Prop where
  parsed : lib.net.parse (trimSpace rawURL) = some target
  found : (hostAddresses text net (lib.toLower (lib.net.hostname target)) t).2 = some addresses
  checked : lib.toLower (lib.net.hostname target) ∉ s.allowedHosts →
    ∀ address ∈ addresses, blockedIP address = false

theorem resolveTarget_ok {rawURL : Str} {t : Traffic} {target : υ} {addresses : List IP}
    (resolved : (resolveTarget lib text net s rawURL t).2 = .ok (target, addresses)) :
    Resolved lib text net s rawURL t target addresses := by
  unfold resolveTarget at resolved
  split at resolved
  · cases resolved
  next found parsed =>
  split at resolved
  · cases resolved
  dsimp only at resolved
  split at resolved
  · cases resolved
  next t' ips answered =>
  split at resolved
  · cases resolved
  split at resolved
  · next allowed =>
    cases resolved
    exact ⟨parsed, by rw [answered], fun other => absurd allowed other⟩
  · split at resolved
    · cases resolved
    · next clean =>
      cases resolved
      refine ⟨parsed, by rw [answered], fun _ address member => ?_⟩
      exact Bool.eq_false_iff.mpr (List.find?_eq_none.mp clean address member)

theorem resolveTarget_blocked {rawURL : Str} {t : Traffic} {target : υ} {addresses : List IP}
    (sound : checkTarget lib rawURL = .ok ()) (parsed : lib.net.parse (trimSpace rawURL) = some target)
    (other : lib.toLower (lib.net.hostname target) ∉ s.allowedHosts)
    (found : (hostAddresses text net (lib.toLower (lib.net.hostname target)) t).2 = some addresses)
    (blocked : ∃ address ∈ addresses, blockedIP address = true) :
    ∃ address ∈ addresses, blockedIP address = true ∧
      resolveTarget lib text net s rawURL t =
        ((hostAddresses text net (lib.toLower (lib.net.hostname target)) t).1,
          .error (.blockedTarget address)) := by
  obtain ⟨first, refused⟩ := Option.isSome_iff_exists.mp (List.find?_isSome.mpr blocked)
  refine ⟨first, List.mem_of_find?_eq_some refused, List.find?_some refused, ?_⟩
  have nonempty : addresses ≠ [] := by
    rintro rfl
    cases refused
  simp only [checkTarget, parsed] at sound
  obtain ⟨valid, _⟩ := check_passed sound
  have answered : hostAddresses text net (lib.toLower (lib.net.hostname target)) t =
      ((hostAddresses text net (lib.toLower (lib.net.hostname target)) t).1, some addresses) := by
    rw [← found]
  simp only [resolveTarget, parsed, if_neg valid]
  rw [answered]
  simp only [if_neg nonempty, if_neg other, refused]

theorem hostAddresses_traffic (host : Str) (t : Traffic) :
    (hostAddresses text net host t).1.attempts = t.attempts ∧
      (hostAddresses text net host t).1.queries.length ≤ t.queries.length + 1 := by
  unfold hostAddresses
  split
  · exact ⟨rfl, Nat.le_succ _⟩
  · exact ⟨rfl, by simp [Network.lookupIPAddr]⟩

theorem resolveTarget_traffic (rawURL : Str) (t : Traffic) :
    (resolveTarget lib text net s rawURL t).1.attempts = t.attempts ∧
      (resolveTarget lib text net s rawURL t).1.queries.length ≤ t.queries.length + 1 := by
  unfold resolveTarget
  split
  · exact ⟨rfl, Nat.le_succ _⟩
  next target _ =>
  split
  · exact ⟨rfl, Nat.le_succ _⟩
  have traffic := @hostAddresses_traffic text net (lib.toLower (lib.net.hostname target)) t
  dsimp only
  split
  · next answered => rwa [answered] at traffic
  next answered =>
  rw [answered] at traffic
  split
  · exact traffic
  · split
    · exact traffic
    · split
      · exact traffic
      · exact traffic

section Confined
variable {queries : List Str} {addresses : List IP}

theorem dialAddresses_within (laws : text.Documented) {port : Str} (plain : PlainPort port)
    {rest : List IP} (known : ∀ ip ∈ rest, ip ∈ addresses) {t : Traffic}
    (within : t.Within queries addresses) :
    (dialAddresses text net port rest t).1.Within queries addresses := by
  induction rest generalizing t with
  | nil => exact within
  | cons ip rest ih =>
    obtain ⟨parsed, same, tried⟩ := dialContext_literal laws net ip plain t
    have after : (net.dialContext text (joinHostPort (text.string ip) port) t).1.Within
        queries addresses := tried ▸ within.attempt (known ip List.mem_cons_self) same
    unfold dialAddresses
    split
    · next dialed => rwa [dialed] at after
    · next dialed =>
      rw [dialed] at after
      exact ih (fun other member => known other (List.mem_cons_of_mem _ member)) after

theorem fixedDialer_within (laws : text.Documented) (expectedHost : Str) (dial : Str × Str)
    {t : Traffic} (within : t.Within queries addresses) :
    (fixedDialer text equalFold net expectedHost addresses dial t).1.Within queries addresses := by
  unfold fixedDialer
  split
  · exact within
  next host port cut =>
  split
  · exact within
  · exact dialAddresses_within laws (splitHostPort_port cut) (fun _ member => member) within

theorem dialAll_within (laws : text.Documented) (expectedHost : Str) (dials : List (Str × Str))
    {t : Traffic} (within : t.Within queries addresses) :
    (dialAll text equalFold net expectedHost addresses dials t).1.Within queries addresses := by
  unfold dialAll
  refine List.foldlRecOn (motive := fun state : Traffic × Option DialError =>
    state.1.Within queries addresses) dials _ within ?_
  intro state before dial _
  have after := @fixedDialer_within text equalFold net queries addresses laws expectedHost dial state.1 before
  split
  · next dialed => rwa [dialed] at after
  · next dialed => rwa [dialed] at after

theorem clientDo_within (laws : text.Documented) (policy : RedirectPolicy) (expectedHost : Str)
    (trips : List RoundTrip) {t : Traffic} (within : t.Within queries addresses) :
    (clientDo text equalFold net policy expectedHost addresses trips t).1.Within queries addresses := by
  induction trips generalizing t with
  | nil => exact within
  | cons trip rest ih =>
    have after := @dialAll_within text equalFold net queries addresses laws expectedHost trip.dials t within
    unfold clientDo
    dsimp only
    split
    · exact after
    · split
      · cases policy with
        | useLastResponse => exact after
        | follow => exact ih after
      · exact after

end Confined

theorem clientDo_first (expectedHost : Str) (addresses : List IP) (trip : RoundTrip)
    (rest : List RoundTrip) (t : Traffic) :
    clientDo text equalFold net .useLastResponse expectedHost addresses (trip :: rest) t =
      clientDo text equalFold net .useLastResponse expectedHost addresses [trip] t := by
  simp only [clientDo]

theorem deliver_refused {payload : WebhookPayload} {t : Traffic} {err : DeliveryError}
    (refused : (resolveTarget lib text net s payload.url t).2 = .error err) (trips : List RoundTrip) :
    deliver lib text equalFold net s payload trips t =
      ((resolveTarget lib text net s payload.url t).1, .error err) := by
  have pair : resolveTarget lib text net s payload.url t =
      ((resolveTarget lib text net s payload.url t).1, .error err) := by rw [← refused]
  unfold deliver
  rw [pair]

/-- The traffic of a delivery is that of resolving, followed by connections to the
addresses found. -/
theorem deliver_within (laws : text.Documented) {payload : WebhookPayload} {target : υ}
    {addresses : List IP}
    (passed : (resolveTarget lib text net s payload.url .none).2 = .ok (target, addresses))
    (trips : List RoundTrip) :
    (deliver lib text equalFold net s payload trips .none).1.Within
      (resolveTarget lib text net s payload.url .none).1.queries addresses := by
  obtain ⟨quiet, _⟩ := @resolveTarget_traffic ν υ lib text net s payload.url .none
  generalize resolved : resolveTarget lib text net s payload.url .none = outcome at passed quiet ⊢
  obtain ⟨t, result⟩ := outcome
  cases passed
  have start : t.Within t.queries addresses := by
    refine ⟨rfl, fun ip member => ?_⟩
    rw [show t.attempts = [] from quiet] at member
    cases member
  have after := @clientDo_within text equalFold net t.queries addresses laws .useLastResponse
    (lib.net.hostname target) trips t start
  simp only [deliver, resolved]
  split
  · exact start
  · split
    · exact start
    · split
      · next done => rwa [done] at after
      · next done =>
        rw [done] at after
        split
        · exact after
        · split
          · exact after
          · exact after

theorem deliver_tried (laws : text.Documented) {payload : WebhookPayload} {trips : List RoundTrip}
    {ip : IP} (tried : ip ∈ (deliver lib text equalFold net s payload trips .none).1.attempts) :
    ∃ target addresses,
      (resolveTarget lib text net s payload.url .none).2 = .ok (target, addresses) ∧
      (∃ address ∈ addresses, ip.equal address = true) ∧
      (lib.toLower (lib.net.hostname target) ∉ s.allowedHosts →
        blockedIP ip = false ∧ ∀ address ∈ addresses, blockedIP address = false) := by
  cases resolved : (resolveTarget lib text net s payload.url .none).2 with
  | error err =>
    rw [deliver_refused resolved, (resolveTarget_traffic payload.url .none).1] at tried
    cases tried
  | ok found =>
    obtain ⟨target, addresses⟩ := found
    obtain ⟨address, member, same⟩ := (deliver_within laws resolved trips).tried ip tried
    refine ⟨target, addresses, rfl, ⟨address, member, same⟩, fun other => ?_⟩
    have clean := (resolveTarget_ok resolved).checked other
    exact ⟨(blockedIP_congr same).trans (clean address member), clean⟩

theorem deliver_asks_once (laws : text.Documented) (payload : WebhookPayload) (trips : List RoundTrip) :
    (deliver lib text equalFold net s payload trips .none).1.queries.length ≤ 1 := by
  have once := (@resolveTarget_traffic ν υ lib text net s payload.url .none).2
  cases resolved : (resolveTarget lib text net s payload.url .none).2 with
  | error err =>
    rw [deliver_refused resolved]
    exact once
  | ok found =>
    rw [(deliver_within laws resolved trips).asked]
    exact once

/-- Every connection of a delivery goes to an address that `resolveTarget` returned;
for a host that is not allowed, none of them is blocked, and a blocked one among those
found ends the delivery for good before anything is tried. The resolver is asked once at
most, and no redirect is followed. -/
theorem deliver_confined (laws : text.Documented) (allowedHosts : List Str)
    (payload : WebhookPayload) (trips : List RoundTrip) :
    let sender := newSender lib allowedHosts
    let delivered := deliver lib text equalFold net sender payload trips .none
    (∀ ip ∈ delivered.1.attempts, ∃ target addresses,
      (resolveTarget lib text net sender payload.url .none).2 = .ok (target, addresses) ∧
      (∃ address ∈ addresses, ip.equal address = true) ∧
      (lib.toLower (lib.net.hostname target) ∉ sender.allowedHosts →
        blockedIP ip = false ∧ ∀ address ∈ addresses, blockedIP address = false)) ∧
    (∀ target addresses, checkTarget lib payload.url = .ok () →
      lib.net.parse (trimSpace payload.url) = some target →
      lib.toLower (lib.net.hostname target) ∉ sender.allowedHosts →
      (hostAddresses text net (lib.toLower (lib.net.hostname target)) .none).2 = some addresses →
      (∃ address ∈ addresses, blockedIP address = true) →
      delivered.1.attempts = [] ∧ ∃ address ∈ addresses, blockedIP address = true ∧
        delivered.2 = .error (.blockedTarget address) ∧
        (DeliveryError.blockedTarget address).isPermanent = true) ∧
    delivered.1.queries.length ≤ 1 ∧
    ∀ trip rest, trips = trip :: rest →
      delivered = deliver lib text equalFold net sender payload [trip] .none := by
  intro sender delivered
  refine ⟨?_, ?_, ?_, ?_⟩
  · intro ip tried
    exact deliver_tried laws tried
  · intro target addresses sound parsed other found blocked
    obtain ⟨address, member, bad, answer⟩ := resolveTarget_blocked sound parsed other found blocked
    have ended : delivered = _ :=
      deliver_refused (show (resolveTarget lib text net sender payload.url .none).2 = _ by rw [answer]) trips
    rw [ended]
    exact ⟨(resolveTarget_traffic payload.url .none).1, address, member, bad, rfl, rfl⟩
  · exact deliver_asks_once laws payload trips
  · rintro trip rest rfl
    simp only [delivered, deliver, clientDo_first _ _ trip rest]

def hooksIP : IP := ⟨[203, 0, 113, 9], .inl rfl⟩
def loopbackIP : IP := ⟨[127, 0, 0, 1], .inl rfl⟩

/-- The text of the sample's address; any other is told apart by its bytes. -/
def hooksText : IPText where
  string ip := if ip.to16 = hooksIP.to16 then lit "203.0.113.9" else 120 :: hexEncode ip.to16
  parseIP s :=
    if s = lit "203.0.113.9" then some hooksIP
    else if s.head? = some 120 then
      (hexDecode (s.drop 1)).bind fun bytes =>
        if size : bytes.length = 16 then some ⟨bytes, .inr size⟩ else none
    else none

theorem hooksText_documented : hooksText.Documented where
  reread := by
    intro ip
    by_cases known : ip.to16 = hooksIP.to16
    · refine ⟨hooksIP, ?_, IP.equal_iff.mpr known.symm⟩
      simp only [hooksText, if_pos known, if_true]
    · have size := ip.to16_length
      have other : 120 :: hexEncode ip.to16 ≠ lit "203.0.113.9" := by
        intro same
        exact absurd (List.cons.inj same).1 (by decide)
      refine ⟨⟨ip.to16, .inr size⟩, ?_, ?_⟩
      · simp only [hooksText, if_neg known, if_neg other, List.head?_cons, if_true, List.drop_one,
          List.tail_cons, hexDecode_hexEncode, Option.bind_some, dif_pos size]
      · rw [IP.equal_iff]
        exact if_neg (by rw [size]; decide)
  plain := by
    intro ip
    have digits := hexEncode_digits ip.to16
    simp only [hooksText]
    split
    · decide
    · simp only [List.mem_cons, not_or]
      refine ⟨⟨by decide, fun member => ?_⟩, by decide, fun member => ?_⟩
      · exact absurd (digits _ member) (by decide)
      · exact absurd (digits _ member) (by decide)

/-- The name stands for a public address when it is checked and for the loopback
address afterwards. -/
def rebinding : Network where
  lookup time _ := if time = 0 then some [hooksIP] else some [loopbackIP]
  accepts _ _ := true

def redirected : List RoundTrip :=
  [⟨[(lit "tcp", lit "hooks.example.com:443"), (lit "tcp", lit "127.0.0.1:80")],
    some ⟨302, lit "http://169.254.169.254/"⟩⟩,
  ⟨[(lit "tcp", lit "169.254.169.254:80")], some ⟨200, []⟩⟩]

def hooksPayload : WebhookPayload :=
  ⟨lit "https://hooks.example.com/jobs", lit "POST", .ofPairs [], lit "\x7b\x7d"⟩

def asciiFold (a b : Str) : Bool := plainLibrary.toLower a == plainLibrary.toLower b

def partnersAllowed : List Str := [lit " Partner.Example ", []]

theorem rebinding_is_harmless :
    let delivered := deliver plainLibrary hooksText asciiFold rebinding
      (newSender plainLibrary partnersAllowed) hooksPayload redirected .none
    delivered.1.attempts = [hooksIP] ∧ delivered.2 = .error (.nonRetryableStatus 302) ∧
    ∀ ip ∈ delivered.1.attempts, blockedIP ip = false := by
  intro delivered
  refine ⟨by decide, by decide, ?_⟩
  intro ip tried
  have confined := @deliver_confined Int PlainURL plainLibrary hooksText asciiFold rebinding
    hooksText_documented partnersAllowed hooksPayload redirected
  obtain ⟨target, _, resolved, _, clean⟩ := confined.1 ip tried
  have read : plainLibrary.net.parse (trimSpace hooksPayload.url) =
      some ⟨lit "https", none, lit "hooks.example.com", lit "/jobs"⟩ := by decide
  obtain rfl := Option.some.inj (read.symm.trans (resolveTarget_ok resolved).parsed)
  exact (clean (by decide)).1

end EdgeGuard.Jobs.Webhook
