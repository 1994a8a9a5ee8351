import EdgeGuard.Go.Strings

/-! What a program that dials takes of Go's `net`: addresses and their classes,
host and port texts, and a dialer over a network that may answer every query of the
resolver and every attempt to connect as it likes. -/
namespace EdgeGuard.Go

/-- A `net.IP` that holds an address, in its short or in its long form. -/
structure IP where
  bytes : List UInt8
  sized : bytes.length = 4 ∨ bytes.length = 16
  deriving DecidableEq

namespace IP

def v4InV6Prefix : List UInt8 := [0, 0, 0, 0, 0, 0, 0, 0, 0, 0, 0xff, 0xff]

def to4 (ip : IP) : Option (List UInt8) :=
  if ip.bytes.length = 4 then some ip.bytes
  else if v4InV6Prefix.isPrefixOf ip.bytes then some (ip.bytes.drop 12)
  else none

def to16 (ip : IP) : List UInt8 := if ip.bytes.length = 4 then v4InV6Prefix ++ ip.bytes else ip.bytes

/-- `Equal`: an IPv4 address and its long form are the same. -/
def equal (ip other : IP) : Bool := ip.to16 == other.to16

def ipv4zero : IP := ⟨v4InV6Prefix ++ [0, 0, 0, 0], by decide⟩
def ipv6unspecified : IP := ⟨List.replicate 16 0, by decide⟩
def ipv6loopback : IP := ⟨List.replicate 15 0 ++ [1], by decide⟩

/-- A predicate with one test for IPv4 and one for IPv6. -/
def either (v4 v6 : List UInt8 → Bool) (ip : IP) : Bool :=
  match ip.to4 with
  | some ip4 => v4 ip4
  | none => v6 ip.bytes

def isUnspecified (ip : IP) : Bool := ip.equal ipv4zero || ip.equal ipv6unspecified

def isLoopback : IP → Bool :=
  either (fun ip4 => ip4.getD 0 0 == 127) (fun ip6 => ip6 == ipv6loopback.bytes)

def isPrivate : IP → Bool :=
  either
    (fun ip4 => ip4.getD 0 0 == 10 || (ip4.getD 0 0 == 172 && ip4.getD 1 0 &&& 0xf0 == 16) ||
      (ip4.getD 0 0 == 192 && ip4.getD 1 0 == 168))
    (fun ip6 => ip6.getD 0 0 &&& 0xfe == 0xfc)

def isMulticast : IP → Bool :=
  either (fun ip4 => ip4.getD 0 0 &&& 0xf0 == 0xe0) (fun ip6 => ip6.getD 0 0 == 0xff)

def isLinkLocalMulticast : IP → Bool :=
  either (fun ip4 => ip4.getD 0 0 == 224 && ip4.getD 1 0 == 0 && ip4.getD 2 0 == 0)
    (fun ip6 => ip6.getD 0 0 == 0xff && ip6.getD 1 0 &&& 0x0f == 0x02)

def isLinkLocalUnicast : IP → Bool :=
  either (fun ip4 => ip4.getD 0 0 == 169 && ip4.getD 1 0 == 254)
    (fun ip6 => ip6.getD 0 0 == 0xfe && ip6.getD 1 0 &&& 0xc0 == 0x80)

variable {ip other : IP}

theorem to4_eq (ip : IP) :
    ip.to4 = if v4InV6Prefix.isPrefixOf ip.to16 then some (ip.to16.drop 12) else none := by
  unfold to4 to16
  by_cases short : ip.bytes.length = 4
  · have mapped : v4InV6Prefix.isPrefixOf (v4InV6Prefix ++ ip.bytes) = true :=
      List.isPrefixOf_iff_prefix.mpr (List.prefix_append _ _)
    rw [if_pos short, if_pos short, if_pos mapped]
    rfl
  · rw [if_neg short, if_neg short]

theorem bytes_of_to4_none (long : ip.to4 = none) : ip.bytes = ip.to16 := by
  unfold to4 at long
  split at long
  · cases long
  · next size => rw [to16, if_neg size]

theorem to16_length (ip : IP) : ip.to16.length = 16 := by
  unfold to16
  split
  · next short =>
    rw [List.length_append, short]
    rfl
  · next long => exact ip.sized.resolve_left long

theorem equal_iff : ip.equal other = true ↔ ip.to16 = other.to16 := beq_iff_eq

theorem either_congr (v4 v6 : List UInt8 → Bool) (same : ip.equal other = true) :
    either v4 v6 ip = either v4 v6 other := by
  have long := equal_iff.mp same
  have short : ip.to4 = other.to4 := by rw [to4_eq, to4_eq, long]
  unfold either
  cases found : other.to4 with
  | some ip4 => rw [short, found]
  | none =>
    rw [found] at short
    rw [short, bytes_of_to4_none short, bytes_of_to4_none found, long]

theorem isUnspecified_congr (same : ip.equal other = true) :
    ip.isUnspecified = other.isUnspecified := by
  simp only [isUnspecified, equal, equal_iff.mp same]

end IP

/-- `net.JoinHostPort`. -/
def joinHostPort (host port : Str) : Str :=
  if 58 ∈ host then 91 :: host ++ 93 :: 58 :: port else host ++ 58 :: port

def lastColon (text : Str) : Nat := text.length - 1 - text.reverse.idxOf 58

/-- `net.SplitHostPort`: the port is behind the last colon, a host in brackets ends
just before it, and no other bracket or colon is left. -/
def splitHostPort (hostport : Str) : Option (Str × Str) :=
  let i := lastColon hostport
  if 58 ∉ hostport then none
  else if hostport.head? = some 91 then
    let close := hostport.idxOf 93
    if 93 ∉ hostport ∨ close + 1 ≠ i then none
    else if 91 ∈ hostport.drop 1 ∨ 93 ∈ hostport.drop (close + 1) then none
    else some ((hostport.take close).drop 1, hostport.drop (i + 1))
  else
    if 58 ∈ hostport.take i ∨ 91 ∈ hostport ∨ 93 ∈ hostport then none
    else some (hostport.take i, hostport.drop (i + 1))

theorem lastColon_append (before : Str) {port : Str} (plain : 58 ∉ port) :
    lastColon (before ++ 58 :: port) = before.length := by
  have absent : 58 ∉ port.reverse := fun inside => plain (List.mem_reverse.mp inside)
  rw [lastColon, List.reverse_append, List.reverse_cons, List.append_assoc,
    List.idxOf_append_of_notMem absent, List.singleton_append, List.idxOf_cons_self]
  simp only [List.length_append, List.length_cons, List.length_reverse]
  omega

theorem lastColon_cut {text : Str} (present : 58 ∈ text) :
    ∃ before port, text = before ++ 58 :: port ∧ 58 ∉ port := by
  induction text with
  | nil => cases present
  | cons c rest ih =>
    by_cases later : 58 ∈ rest
    · obtain ⟨before, port, rfl, plain⟩ := ih later
      exact ⟨c :: before, port, rfl, plain⟩
    · obtain rfl := (List.mem_cons.mp present).resolve_right later
      exact ⟨[], rest, rfl, later⟩

/-- A port has none of the characters that separate it. -/
def PlainPort (port : Str) : Prop := 58 ∉ port ∧ 91 ∉ port ∧ 93 ∉ port

theorem splitHostPort_port {hostport host port : Str}
    (cut : splitHostPort hostport = some (host, port)) : PlainPort port := by
  unfold splitHostPort at cut
  dsimp only at cut
  split at cut
  · cases cut
  next present =>
  obtain ⟨before, after, rfl, plain⟩ := lastColon_cut (not_not.mp present)
  rw [lastColon_append before plain] at cut
  have tail : (before ++ 58 :: after).drop (before.length + 1) = after := by simp
  have inside (c : UInt8) (count : Nat) (small : count ≤ before.length)
      (member : c ∈ after) : c ∈ (before ++ 58 :: after).drop count := by
    rw [List.drop_append_of_le_length small]
    exact List.mem_append_right _ (List.mem_cons_of_mem _ member)
  split at cut
  · next opened =>
    split at cut
    · cases cut
    next placed =>
    split at cut
    · cases cut
    next clean =>
    rw [tail] at cut
    cases cut
    obtain ⟨_, position⟩ := not_or.mp placed
    have position := not_not.mp position
    obtain ⟨noOpen, noClose⟩ := not_or.mp clean
    refine ⟨plain, fun member => noOpen (inside 91 1 (by omega) member), fun member => noClose ?_⟩
    exact inside 93 _ (Nat.le_of_eq position) member
  · split at cut
    · cases cut
    next clean =>
    rw [tail] at cut
    cases cut
    simp only [not_or] at clean
    exact ⟨plain, fun member => clean.2.1 (inside 91 0 (Nat.zero_le _) member),
      fun member => clean.2.2 (inside 93 0 (Nat.zero_le _) member)⟩

theorem splitHostPort_joinHostPort {host port : Str} (noOpen : 91 ∉ host) (noClose : 93 ∉ host)
    (plain : PlainPort port) : splitHostPort (joinHostPort host port) = some (host, port) := by
  obtain ⟨noColon, portOpen, portClose⟩ := plain
  unfold joinHostPort
  by_cases literal : 58 ∈ host
  · rw [if_pos literal]
    have position : lastColon (91 :: host ++ 93 :: 58 :: port) = host.length + 2 := by
      have cut := lastColon_append (91 :: host ++ [93]) noColon
      simpa using cut
    have close : (91 :: host ++ 93 :: 58 :: port).idxOf 93 = host.length + 1 := by
      have absent : 93 ∉ 91 :: host := by simp [noClose]
      rw [List.idxOf_append_of_notMem absent, List.idxOf_cons_self]
      rfl
    have found : ¬ (93 ∉ 91 :: host ++ 93 :: 58 :: port ∨ host.length + 1 + 1 ≠ host.length + 2) := by
      simp
    have clean : ¬ (91 ∈ (91 :: host ++ 93 :: 58 :: port).drop 1 ∨
        93 ∈ (91 :: host ++ 93 :: 58 :: port).drop (host.length + 1 + 1)) := by
      simp [noOpen, portOpen, portClose]
    have opened : (91 :: host ++ 93 :: 58 :: port).head? = some 91 := rfl
    unfold splitHostPort
    dsimp only
    rw [position, close, if_neg (by simp), if_pos opened, if_neg found, if_neg clean]
    simp
  · rw [if_neg literal]
    have unopened : (host ++ 58 :: port).head? ≠ some 91 := by
      intro first
      have member := List.mem_of_head? first
      simp [noOpen, portOpen] at member
    have clean : ¬ (58 ∈ (host ++ 58 :: port).take host.length ∨ 91 ∈ host ++ 58 :: port ∨
        93 ∈ host ++ 58 :: port) := by
      simp [literal, noOpen, noClose, portOpen, portClose]
    unfold splitHostPort
    dsimp only
    rw [lastColon_append host noColon, if_neg (by simp), if_neg unopened, if_neg clean]
    simp

/-- `ParseIP` and the `String` of addresses. -/
structure IPText where
  parseIP : Str → Option IP
  string : IP → Str

/-- The text of an address has no bracket and is read as that address. -/
structure IPText.Documented (text : IPText) : Prop where
  reread : ∀ ip, ∃ parsed, text.parseIP (text.string ip) = some parsed ∧ parsed.equal ip = true
  plain : ∀ ip, 91 ∉ text.string ip ∧ 93 ∉ text.string ip

/-- A network: its answer to each query of the resolver, none for a failure, and
whether each attempt to connect succeeds. Both may change from one time to the next. -/
structure Network where
  lookup : Nat → Str → Option (List IP)
  accepts : Nat → IP → Bool

/-- What a program did on the network: the names it asked for and the addresses it
tried to connect to, in order. -/
structure Traffic where
  queries : List Str
  attempts : List IP

def Traffic.none : Traffic := ⟨[], []⟩

/-- `LookupIPAddr`. -/
def Network.lookupIPAddr (net : Network) (host : Str) (t : Traffic) : Traffic × Option (List IP) :=
  ({ t with queries := t.queries ++ [host] }, net.lookup t.queries.length host)

/-- Connecting to the first address that accepts. -/
def Network.dialSerial (net : Network) : List IP → Traffic → Traffic × Bool
  | [], t => (t, false)
  | ip :: rest, t =>
    let tried : Traffic := { t with attempts := t.attempts ++ [ip] }
    if net.accepts t.attempts.length ip then (tried, true) else net.dialSerial rest tried

/-- `DialContext` of a `net.Dialer`: a host that is no address is looked up. -/
def Network.dialContext (net : Network) (text : IPText) (address : Str) (t : Traffic) :
    Traffic × Bool :=
  match splitHostPort address with
  | none => (t, false)
  | some (host, _) =>
    match text.parseIP host with
    | some ip => net.dialSerial [ip] t
    | none =>
      match net.lookupIPAddr host t with
      | (t, none) => (t, false)
      | (t, some ips) => net.dialSerial ips t

theorem dialContext_literal {text : IPText} (laws : text.Documented) (net : Network) (ip : IP)
    {port : Str} (plain : PlainPort port) (t : Traffic) :
    ∃ parsed, parsed.equal ip = true ∧
      (net.dialContext text (joinHostPort (text.string ip) port) t).1 =
        { t with attempts := t.attempts ++ [parsed] } := by
  obtain ⟨parsed, read, same⟩ := laws.reread ip
  obtain ⟨noOpen, noClose⟩ := laws.plain ip
  refine ⟨parsed, same, ?_⟩
  simp only [Network.dialContext, splitHostPort_joinHostPort noOpen noClose plain, read,
    Network.dialSerial]
  split <;> rfl

/-- Traffic that asked for the given names and tried the given addresses only. -/
structure Traffic.Within (queries : List Str) (addresses : List IP) (t : Traffic) : Prop where
  asked : t.queries = queries
  tried : ∀ ip ∈ t.attempts, ∃ address ∈ addresses, ip.equal address = true

theorem Traffic.Within.attempt {queries : List Str} {addresses : List IP} {t : Traffic}
    (within : t.Within queries addresses) {ip address : IP} (member : address ∈ addresses)
    (same : ip.equal address = true) :
    Traffic.Within queries addresses { t with attempts := t.attempts ++ [ip] } := by
  constructor
  · exact within.asked
  · intro other tried
    rcases List.mem_append.mp tried with before | now
    · exact within.tried other before
    · rw [List.mem_singleton.mp now]
      exact ⟨address, member, same⟩

end EdgeGuard.Go
