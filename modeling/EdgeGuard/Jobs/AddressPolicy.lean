import EdgeGuard.Go.Cidr
import EdgeGuard.Jobs.Webhook

/-! Which service addresses a webhook may not be delivered to. `blockedIP` joins six
predicates of `net.IP`; together they are a union of address blocks, and it is compared
with the blocks that are set aside for special purposes. -/
namespace EdgeGuard.Jobs.Webhook
open Go

/-- The IPv4 blocks set aside for special purposes. -/
def serviceV4 : List Cidr :=
  [⟨[0, 0, 0, 0], 8, by decide⟩, ⟨[10, 0, 0, 0], 8, by decide⟩, ⟨[100, 64, 0, 0], 10, by decide⟩,
    ⟨[127, 0, 0, 0], 8, by decide⟩, ⟨[169, 254, 0, 0], 16, by decide⟩, ⟨[172, 16, 0, 0], 12, by decide⟩,
    ⟨[192, 168, 0, 0], 16, by decide⟩, ⟨[198, 18, 0, 0], 15, by decide⟩, ⟨[224, 0, 0, 0], 4, by decide⟩,
    ⟨[240, 0, 0, 0], 4, by decide⟩]

/-- `::`, `::1`, `fc00::/7`, `fe80::/10` and `ff00::/8`. -/
def serviceV6 : List Cidr :=
  [⟨List.replicate 16 0, 128, by decide⟩, ⟨List.replicate 15 0 ++ [1], 128, by decide⟩,
    ⟨0xfc :: List.replicate 15 0, 7, by decide⟩, ⟨0xfe :: 0x80 :: List.replicate 14 0, 10, by decide⟩,
    ⟨0xff :: List.replicate 15 0, 8, by decide⟩]

/-- `64:ff9b::/96`, whose addresses end in the IPv4 address they are translated to. -/
def nat64 : Cidr := ⟨[0, 0x64, 0xff, 0x9b] ++ List.replicate 12 0, 96, by decide⟩

/-- An address that is not a host of the public network. -/
inductive ServiceAddress (ip : IP) : Prop
  | v4 (ip4 : List UInt8) (short : ip.to4 = some ip4) (inside : Cidr.Any serviceV4 ip4)
  | v6 (inside : Cidr.Any serviceV6 ip.bytes)
  | translated (inside : nat64.Contains ip.bytes) (embedded : Cidr.Any serviceV4 (ip.bytes.drop 12))

/-- The IPv4 blocks that `blockedIP` covers. -/
def blockedV4 : List Cidr :=
  [⟨[0, 0, 0, 0], 32, by decide⟩, ⟨[10, 0, 0, 0], 8, by decide⟩, ⟨[127, 0, 0, 0], 8, by decide⟩,
    ⟨[169, 254, 0, 0], 16, by decide⟩, ⟨[172, 16, 0, 0], 12, by decide⟩, ⟨[192, 168, 0, 0], 16, by decide⟩,
    ⟨[224, 0, 0, 0], 4, by decide⟩]

/-- The special-purpose IPv4 blocks that it does not. -/
def passedV4 : List Cidr :=
  [⟨[0, 0, 0, 0], 8, by decide⟩, ⟨[100, 64, 0, 0], 10, by decide⟩, ⟨[198, 18, 0, 0], 15, by decide⟩,
    ⟨[240, 0, 0, 0], 4, by decide⟩]

/-- A service address outside the blocks that `blockedIP` covers. -/
inductive LetThrough (ip : IP) : Prop
  | v4 (ip4 : List UInt8) (short : ip.to4 = some ip4) (inside : Cidr.Any passedV4 ip4)
      (specified : ip4 ≠ [0, 0, 0, 0])
  | translated (inside : nat64.Contains ip.bytes)

theorem to4_length {ip : IP} {ip4 : List UInt8} (short : ip.to4 = some ip4) : ip4.length = 4 := by
  rw [IP.to4_eq] at short
  split at short
  · cases short
    rw [List.length_drop, IP.to16_length]
  · cases short

theorem to16_of_to4 {ip : IP} {ip4 : List UInt8} (short : ip.to4 = some ip4) :
    ip.to16 = IP.v4InV6Prefix ++ ip4 := by
  rw [IP.to4_eq] at short
  split at short
  · next mapped =>
    cases short
    obtain ⟨rest, same⟩ := List.isPrefixOf_iff_prefix.mp mapped
    rw [← same]
    rfl
  · cases short

theorem any_serviceV4 (w x y z : UInt8) : Cidr.Any serviceV4 [w, x, y, z] ↔
    w.toNat = 0 ∨ w.toNat = 10 ∨ w.toNat = 100 ∧ x.toNat / 64 = 1 ∨ w.toNat = 127 ∨
    w.toNat = 169 ∧ x.toNat = 254 ∨ w.toNat = 172 ∧ x.toNat / 16 = 1 ∨ w.toNat = 192 ∧ x.toNat = 168 ∨
    w.toNat = 198 ∧ x.toNat / 2 = 9 ∨ w.toNat / 16 = 14 ∨ w.toNat / 16 = 15 := by
  simp [Cidr.Any, serviceV4, Cidr.Contains, sameLeading_whole, sameLeading_zero]
  simp [sameLeading_part, ← UInt8.toNat_inj]

theorem any_blockedV4 (w x y z : UInt8) : Cidr.Any blockedV4 [w, x, y, z] ↔
    (w = 0 ∧ x = 0 ∧ y = 0 ∧ z = 0) ∨ w.toNat = 10 ∨ w.toNat = 127 ∨ w.toNat = 169 ∧ x.toNat = 254 ∨
    w.toNat = 172 ∧ x.toNat / 16 = 1 ∨ w.toNat = 192 ∧ x.toNat = 168 ∨ w.toNat / 16 = 14 := by
  simp [Cidr.Any, blockedV4, Cidr.Contains, sameLeading_whole, sameLeading_zero]
  simp [sameLeading_part, ← UInt8.toNat_inj]

theorem any_passedV4 (w x y z : UInt8) : Cidr.Any passedV4 [w, x, y, z] ↔
    w.toNat = 0 ∨ w.toNat = 100 ∧ x.toNat / 64 = 1 ∨ w.toNat = 198 ∧ x.toNat / 2 = 9 ∨
    w.toNat / 16 = 15 := by
  simp [Cidr.Any, passedV4, Cidr.Contains, sameLeading_whole, sameLeading_zero]
  simp [sameLeading_part, ← UInt8.toNat_inj]

theorem serviceV6_length {bytes : List UInt8} (inside : Cidr.Any serviceV6 bytes) : bytes.length = 16 := by
  have sizes : ∀ block ∈ serviceV6, block.base.length = 16 := by decide
  obtain ⟨block, member, size, _⟩ := inside
  rw [size, sizes block member]

theorem any_serviceV6 (a b : UInt8) {low : List UInt8} (size : low.length = 14) :
    Cidr.Any serviceV6 (a :: b :: low) ↔
      a :: b :: low = IP.ipv6unspecified.bytes ∨ a :: b :: low = IP.ipv6loopback.bytes ∨
      a.toNat / 2 = 126 ∨ a.toNat = 0xfe ∧ b.toNat / 64 = 2 ∨ a.toNat = 0xff := by
  have whole : ∀ base : List UInt8, base.length = 16 →
      (SameLeading 128 base (a :: b :: low) ↔ a :: b :: low = base) := by
    intro base long
    exact sameLeading_all (by rw [long])
  simp only [Cidr.Any, serviceV6, Cidr.Contains, List.mem_cons, List.not_mem_nil, or_false, exists_eq_or_imp,
    exists_eq_left]
  rw [whole _ rfl, whole _ rfl]
  simp [sameLeading_whole, sameLeading_zero, IP.ipv6unspecified, IP.ipv6loopback, size]
  simp [sameLeading_part, size, ← UInt8.toNat_inj]

theorem private_mask (x : UInt8) : x &&& 0xf0 = 16 ↔ x.toNat / 16 = 1 := @masked_eq_iff 4 x 16 (by decide)
theorem multicast_mask (x : UInt8) : x &&& 0xf0 = 0xe0 ↔ x.toNat / 16 = 14 :=
  @masked_eq_iff 4 x 0xe0 (by decide)
theorem uniqueLocal_mask (x : UInt8) : x &&& 0xfe = 0xfc ↔ x.toNat / 2 = 126 :=
  @masked_eq_iff 7 x 0xfc (by decide)
theorem linkLocal_mask (x : UInt8) : x &&& 0xc0 = 0x80 ↔ x.toNat / 64 = 2 :=
  @masked_eq_iff 2 x 0x80 (by decide)

theorem blockedIP_v4 {ip : IP} {w x y z : UInt8} (short : ip.to4 = some [w, x, y, z]) :
    blockedIP ip = true ↔ Cidr.Any blockedV4 [w, x, y, z] := by
  have unspecified : ip.isUnspecified = true ↔ w = 0 ∧ x = 0 ∧ y = 0 ∧ z = 0 := by
    simp only [IP.isUnspecified, Bool.or_eq_true, IP.equal_iff, to16_of_to4 short]
    simp [IP.to16, IP.ipv4zero, IP.ipv6unspecified, IP.v4InV6Prefix]
  rw [any_blockedV4]
  simp only [blockedIP, Bool.or_eq_true, unspecified]
  simp only [IP.isLoopback, IP.isPrivate, IP.isMulticast, IP.isLinkLocalUnicast, IP.isLinkLocalMulticast,
    IP.either, short, List.getD_cons_zero, List.getD_cons_succ, Bool.or_eq_true, Bool.and_eq_true, beq_iff_eq,
    private_mask, multicast_mask]
  simp only [← UInt8.toNat_inj, UInt8.reduceToNat]
  grind

theorem blockedIP_v6 {ip : IP} {a b : UInt8} {low : List UInt8} (long : ip.to4 = none)
    (bytes : ip.bytes = a :: b :: low) (size : low.length = 14) :
    blockedIP ip = true ↔ Cidr.Any serviceV6 ip.bytes := by
  have unspecified : ip.isUnspecified = true ↔ ip.bytes = IP.ipv6unspecified.bytes := by
    have other : ip.to16 ≠ IP.ipv4zero.to16 := by
      intro same
      rw [IP.to4_eq, same] at long
      revert long
      decide
    simp only [IP.isUnspecified, Bool.or_eq_true, IP.equal_iff, other, false_or, IP.bytes_of_to4_none long]
    rfl
  have loopback : ip.isLoopback = true ↔ ip.bytes = IP.ipv6loopback.bytes := by
    simp only [IP.isLoopback, IP.either, long, beq_iff_eq]
  rw [bytes, any_serviceV6 a b size, ← bytes]
  simp only [blockedIP, Bool.or_eq_true, unspecified, loopback]
  simp only [IP.isPrivate, IP.isMulticast, IP.isLinkLocalUnicast, IP.isLinkLocalMulticast,
    IP.either, long, bytes, List.getD_cons_zero, List.getD_cons_succ, Bool.and_eq_true, beq_iff_eq,
    uniqueLocal_mask, linkLocal_mask]
  simp only [← UInt8.toNat_inj, UInt8.reduceToNat]
  grind

theorem v4_bytes {ip : IP} {ip4 : List UInt8} (short : ip.to4 = some ip4) :
    ∃ w x y z, ip4 = [w, x, y, z] := by
  match ip4, to4_length short with
  | [w, x, y, z], _ => exact ⟨w, x, y, z, rfl⟩

theorem v6_bytes {bytes : List UInt8} (size : bytes.length = 16) :
    ∃ a b low, bytes = a :: b :: low ∧ low.length = 14 := by
  match bytes, size with
  | a :: b :: low, size => exact ⟨a, b, low, rfl, Nat.succ.inj (Nat.succ.inj size)⟩

theorem nat64_bytes {bytes : List UInt8} (inside : nat64.Contains bytes) :
    ∃ low, bytes = 0 :: 0x64 :: low ∧ low.length = 14 := by
  have size : bytes.length = 16 := inside.1
  obtain ⟨a, b, low, rfl, rest⟩ := v6_bytes size
  change SameLeading 96 (0 :: 0x64 :: [0xff, 0x9b] ++ List.replicate 12 0) (a :: b :: low) at inside
  obtain ⟨rfl, behind⟩ := (sameLeading_whole (by decide) (by decide)).mp inside
  obtain ⟨rfl, _⟩ := (sameLeading_whole (by decide) (by decide)).mp behind
  exact ⟨low, rfl, rest⟩

theorem to4_none_of_serviceV6 {ip : IP} (inside : Cidr.Any serviceV6 ip.bytes) : ip.to4 = none := by
  have size := serviceV6_length inside
  have long : ip.bytes = ip.to16 := (if_neg (by rw [size]; decide)).symm
  cases short : ip.to4 with
  | none => rfl
  | some ip4 =>
    obtain ⟨w, x, y, z, rfl⟩ := v4_bytes short
    have bytes := long.trans (to16_of_to4 short)
    rw [bytes] at inside
    exact absurd ((any_serviceV6 0 0 rfl).mp inside)
      (by simp [IP.ipv6unspecified, IP.ipv6loopback])

theorem to4_none_of_nat64 {ip : IP} (inside : nat64.Contains ip.bytes) : ip.to4 = none := by
  obtain ⟨low, bytes, size⟩ := nat64_bytes inside
  have long : ¬ ip.bytes.length = 4 := by
    rw [bytes]
    simp [size]
  rw [IP.to4, if_neg long, bytes]
  rfl

theorem not_blockedIP_of_nat64 {ip : IP} (inside : nat64.Contains ip.bytes) : ¬ blockedIP ip = true := by
  obtain ⟨low, bytes, size⟩ := nat64_bytes inside
  rw [blockedIP_v6 (to4_none_of_nat64 inside) bytes size, bytes, any_serviceV6 0 0x64 size]
  simp [IP.ipv6unspecified, IP.ipv6loopback]

theorem blockedV4_iff {ip4 : List UInt8} {w x y z : UInt8} (bytes : ip4 = [w, x, y, z])
    (inside : Cidr.Any serviceV4 ip4) :
    Cidr.Any blockedV4 ip4 ↔ ¬ (Cidr.Any passedV4 ip4 ∧ ip4 ≠ [0, 0, 0, 0]) := by
  subst bytes
  rw [any_serviceV4] at inside
  have zero : [w, x, y, z] = [0, 0, 0, 0] ↔ w = 0 ∧ x = 0 ∧ y = 0 ∧ z = 0 := by simp
  have first : w = 0 → w.toNat = 0 := by
    rintro rfl
    rfl
  rw [any_blockedV4, any_passedV4, Ne, zero]
  by_cases none : w = 0 ∧ x = 0 ∧ y = 0 ∧ z = 0
  · simp [none]
  · simp only [none, false_or, not_false_eq_true, and_true]
    grind

theorem blockedIP_iff {ip : IP} (service : ServiceAddress ip) : blockedIP ip = true ↔ ¬ LetThrough ip := by
  cases service with
  | v4 ip4 short inside =>
    obtain ⟨w, x, y, z, bytes⟩ := v4_bytes short
    rw [blockedIP_v4 (bytes ▸ short), ← bytes, blockedV4_iff bytes inside]
    refine not_congr ⟨fun ⟨passed, specified⟩ => .v4 ip4 short passed specified, ?_⟩
    rintro (⟨other, same, passed, specified⟩ | translated)
    · cases short.symm.trans same
      exact ⟨passed, specified⟩
    · cases short.symm.trans (to4_none_of_nat64 translated)
  | v6 inside =>
    have long := to4_none_of_serviceV6 inside
    obtain ⟨a, b, low, bytes, size⟩ := v6_bytes (serviceV6_length inside)
    have blocked := (blockedIP_v6 long bytes size).mpr inside
    refine iff_of_true blocked ?_
    rintro (⟨_, short, _, _⟩ | translated)
    · cases long.symm.trans short
    · exact not_blockedIP_of_nat64 translated blocked
  | translated inside _ => exact iff_of_false (not_blockedIP_of_nat64 inside) (not_not.mpr (.translated inside))

/-- No host resolves to the address, alone or among others, unless it is allow-listed. -/
structure Rejected {ν υ : Type} (lib : Library ν υ) (text : IPText) (ip : IP) : Prop where
  blocked : blockedIP ip = true
  refused : ∀ (net : Network) (s : Sender) (rawURL : Str) (t : Traffic) (target : υ) (addresses : List IP),
    checkTarget lib rawURL = .ok () → lib.net.parse (trimSpace rawURL) = some target →
    lib.toLower (lib.net.hostname target) ∉ s.allowedHosts →
    (hostAddresses text net (lib.toLower (lib.net.hostname target)) t).2 = some addresses →
    ip ∈ addresses → ∃ address ∈ addresses, blockedIP address = true ∧
      (resolveTarget lib text net s rawURL t).2 = .error (.blockedTarget address)

/-- A service address is rejected exactly when it is in one of the blocks that `blockedIP`
covers: all but `0.0.0.0/8` without `0.0.0.0`, `100.64.0.0/10`, `198.18.0.0/15`,
`240.0.0.0/4` and every address of `64:ff9b::/96`. -/
theorem service_address_rejected_iff {ν υ : Type} (lib : Library ν υ) (text : IPText) (ip : IP)
    (service : ServiceAddress ip) : Rejected lib text ip ↔ ¬ LetThrough ip := by
  rw [← blockedIP_iff service]
  refine ⟨fun rejected => rejected.blocked, fun blocked => ⟨blocked, ?_⟩⟩
  intro net s rawURL t target addresses sound parsed other found member
  obtain ⟨address, among, bad, answer⟩ := resolveTarget_blocked sound parsed other found ⟨ip, member, blocked⟩
  exact ⟨address, among, bad, by rw [answer]⟩

/-- `::ffff:169.254.169.254`. -/
def metadataIP : IP := ⟨IP.v4InV6Prefix ++ [169, 254, 169, 254], by decide⟩

/-- A name with a public address and one of the link. -/
def mixed : Network where
  lookup _ _ := some [hooksIP, metadataIP]
  accepts _ _ := true

theorem mapped_link_local_is_rejected :
    Rejected plainLibrary hooksText metadataIP ∧
    (resolveTarget plainLibrary hooksText mixed (newSender plainLibrary partnersAllowed) hooksPayload.url .none).2 =
      .error (.blockedTarget metadataIP) := by
  have service : ServiceAddress metadataIP := .v4 [169, 254, 169, 254] (by decide) (by decide)
  have covered : ¬ LetThrough metadataIP := by
    rintro (⟨ip4, short, passed, _⟩ | translated)
    · cases (show metadataIP.to4 = some [169, 254, 169, 254] by decide).symm.trans short
      revert passed
      decide
    · revert translated
      decide
  exact ⟨(service_address_rejected_iff plainLibrary hooksText metadataIP service).mpr covered, by decide⟩

/-- `100.64.0.1`. -/
def sharedIP : IP := ⟨[100, 64, 0, 1], .inl rfl⟩

/-- `64:ff9b::7f00:1`, which a NAT64 gateway translates to `127.0.0.1`. -/
def translatedIP : IP := ⟨[0, 0x64, 0xff, 0x9b] ++ List.replicate 8 0 ++ [127, 0, 0, 1], by decide⟩

def shared : Network where
  lookup _ _ := some [sharedIP, translatedIP]
  accepts _ _ := true

theorem shared_and_translated_addresses_pass :
    (ServiceAddress sharedIP ∧ blockedIP sharedIP = false) ∧
    (ServiceAddress translatedIP ∧ blockedIP translatedIP = false) ∧
    (resolveTarget plainLibrary hooksText shared (newSender plainLibrary partnersAllowed) hooksPayload.url .none).2 =
      .ok (⟨lit "https", none, lit "hooks.example.com", lit "/jobs"⟩, [sharedIP, translatedIP]) := by
  refine ⟨⟨.v4 [100, 64, 0, 1] (by decide) (by decide), by decide⟩, ⟨.translated (by decide) (by decide), by decide⟩,
    by decide⟩

end EdgeGuard.Jobs.Webhook
