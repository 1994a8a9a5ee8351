import EdgeGuard.Go.Encoding
import EdgeGuard.Go.Utf8
import EdgeGuard.Go.Time

/-! Column types of PostgreSQL: which values a column can hold, and the text
form of a `uuid`. -/
namespace EdgeGuard.Postgres
open Go

/-- A `text` value is well-formed in the server encoding and has no zero byte. -/
def textOk (s : Str) : Bool := validUtf8 s && !s.contains 0

def int4Ok (value : Int) : Bool := -2147483648 ≤ value && value ≤ 2147483647

def int8Max : Int := 9223372036854775807

def int8Ok (value : Int) : Bool := -9223372036854775808 ≤ value && value ≤ int8Max

/-- Microseconds between the Unix epoch and the epoch of `timestamptz`. -/
def timestampEpoch : Int := 946684800000000

/-- The range of `timestamptz`, whose values are microseconds since 2000. -/
def timestampOk (t : Time) : Bool :=
  -211813488000000000 ≤ t / microsecond - timestampEpoch &&
    t / microsecond - timestampEpoch < 9223371331200000000

/-- The instant a `timestamptz` column keeps of a Go time. -/
def timestamp (t : Time) : Time := truncate t microsecond

private theorem floor_of_whole {t : Int} (whole : t % 1000 = 0) : t / 1000 * 1000 = t := by
  omega

theorem timestamp_of_micro {t : Time} (whole : t % microsecond = 0) : timestamp t = t :=
  floor_of_whole whole

private theorem floor_mono {a b : Int} (below : a ≤ b) : a / 1000 * 1000 ≤ b / 1000 * 1000 := by
  omega

theorem timestamp_mono {a b : Time} (below : a ≤ b) : timestamp a ≤ timestamp b := floor_mono below

theorem unique_insert {R V : Type} {column : R → V} {rows : List R} {row : R} :
    ((rows ++ [row]).map column).Nodup ↔
      (rows.map column).Nodup ∧ ∀ other ∈ rows, column other ≠ column row := by
  simp [List.nodup_append]

structure Uuid where
  bytes : List UInt8
  size : bytes.length = 16
  deriving DecidableEq

namespace Uuid

def repeated (byte : UInt8) : Uuid := ⟨List.replicate 16 byte, List.length_replicate⟩

/-- `id::text`: lower-case digits in groups of 8, 4, 4, 4 and 12. -/
def text (u : Uuid) : Str :=
  hexEncode (u.bytes.take 4) ++ 45 :: hexEncode ((u.bytes.drop 4).take 2) ++
    45 :: hexEncode ((u.bytes.drop 6).take 2) ++ 45 :: hexEncode ((u.bytes.drop 8).take 2) ++
    45 :: hexEncode (u.bytes.drop 10)

/-- The input loop of the `uuid` type: two digits for each byte, and an optional
hyphen after every second byte but the last. -/
def readBytes : Nat → Nat → Str → Option (List UInt8 × Str)
  | 0, _, s => some ([], s)
  | count + 1, index, high :: low :: rest => do
    let a ← fromHexChar high
    let b ← fromHexChar low
    let skip := index % 2 == 1 && count != 0 && rest.head? == some 45
    let (tail, left) ← readBytes count (index + 1) (if skip then rest.tail else rest)
    some (UInt8.ofNat (a * 16 + b) :: tail, left)
  | _ + 1, _, _ => none

theorem readBytes_length {count index : Nat} {s left : Str} {bytes : List UInt8}
    (read : readBytes count index s = some (bytes, left)) : bytes.length = count := by
  induction count generalizing index s bytes left with
  | zero =>
    cases read
    rfl
  | succ count ih =>
    match s, read with
    | [], read | [_], read => simp [readBytes] at read
    | high :: low :: rest, read =>
      simp only [readBytes, Option.bind_eq_bind, Option.bind_eq_some_iff, Option.some.injEq,
        Prod.mk.injEq, Prod.exists] at read
      obtain ⟨_, _, _, _, tail, _, more, rfl, _⟩ := read
      rw [List.length_cons, ih more]

/-- `text::uuid`, with optional braces around the digits. -/
def parse (s : Str) : Option Uuid :=
  let (body, closing) : Str × Str := if s.head? == some 123 then (s.tail, [125]) else (s, [])
  match read : readBytes 16 0 body with
  | some (bytes, left) => if left = closing then some ⟨bytes, readBytes_length read⟩ else none
  | none => none

theorem two_digits {digits : Str} {bytes : Nat} (length : digits.length = 2 * (bytes + 1)) :
    ∃ high low more, digits = high :: low :: more ∧ more.length = 2 * bytes := by
  cases digits with
  | nil => contradiction
  | cons high digits =>
    cases digits with
    | nil =>
      simp only [List.length_singleton] at length
      omega
    | cons low more =>
      simp only [List.length_cons] at length
      exact ⟨high, low, more, rfl, by omega⟩

theorem digits_noHyphen {digits rest : Str} (nonempty : digits ≠ [])
    (hex : ∀ c ∈ digits, (fromHexChar c).isSome = true) : ((digits ++ rest).head? == some 45) = false := by
  cases digits with
  | nil => contradiction
  | cons next digits =>
    have digit := hex next List.mem_cons_self
    rw [List.cons_append, List.head?_cons, beq_eq_false_iff_ne]
    rintro ⟨⟩
    revert digit
    decide

/-- A group of an even number of bytes is read whole, with the hyphen after it
unless it is the last group. -/
theorem readBytes_group (bytes count index : Nat) {digits : Str} (rest : Str) {left : Str}
    {tail : List UInt8} (filled : bytes ≠ 0) (even : (index + bytes) % 2 = 0)
    (length : digits.length = 2 * bytes) (hex : ∀ c ∈ digits, (fromHexChar c).isSome = true)
    (later : readBytes count (index + bytes)
      (if count != 0 && rest.head? == some 45 then rest.tail else rest) = some (tail, left)) :
    ∃ part, hexDecode digits = some part ∧
      readBytes (bytes + count) index (digits ++ rest) = some (part ++ tail, left) := by
  induction bytes generalizing index digits with
  | zero => contradiction
  | succ bytes ih =>
    obtain ⟨high, low, more, rfl, shorter⟩ := two_digits length
    obtain ⟨a, first⟩ := Option.isSome_iff_exists.mp (hex high (by simp))
    obtain ⟨b, second⟩ := Option.isSome_iff_exists.mp (hex low (by simp))
    have behind : ∀ c ∈ more, (fromHexChar c).isSome = true := fun c member => hex c (by simp [member])
    rw [Nat.add_right_comm]
    simp only [List.cons_append, readBytes, hexDecode, first, second, Option.bind_eq_bind, Option.bind_some]
    by_cases last : bytes = 0
    · subst last
      have none : more = [] := List.length_eq_zero_iff.mp shorter
      subst none
      have odd : index % 2 = 1 := by omega
      simp only [Nat.zero_add, List.nil_append, odd, beq_self_eq_true, Bool.true_and] at later ⊢
      rw [later]
      exact ⟨_, rfl, rfl⟩
    · have nonempty : more ≠ [] := by
        rintro rfl
        exact last (by simpa using shorter.symm)
      obtain ⟨part, decoded, read⟩ := ih (index + 1) last (by omega) shorter behind
        (by rwa [Nat.add_right_comm, Nat.add_assoc])
      simp only [digits_noHyphen nonempty behind, Bool.and_false, Bool.false_eq_true, if_false, read, decoded,
        Option.bind_some]
      exact ⟨_, rfl, rfl⟩

theorem parse_of_readBytes {s : Str} {bytes : List UInt8} (plain : s.head? ≠ some 123)
    (read : readBytes 16 0 s = some (bytes, [])) : ∃ id, parse s = some id ∧ id.bytes = bytes := by
  unfold parse
  simp only [beq_iff_eq, if_neg plain]
  split
  · rename_i all left found
    simp only [beq_iff_eq, if_neg plain, read] at found
    cases found
    exact ⟨_, if_pos rfl, rfl⟩
  · rename_i found
    simp only [beq_iff_eq, if_neg plain, read] at found
    contradiction

theorem parse_groups {a b c d e : Str} (la : a.length = 8) (lb : b.length = 4) (lc : c.length = 4)
    (ld : d.length = 4) (le : e.length = 12)
    (hex : ∀ digit ∈ a ++ (b ++ (c ++ (d ++ e))), (fromHexChar digit).isSome = true) :
    ∃ id pa pb pc pd pe, parse (a ++ 45 :: (b ++ 45 :: (c ++ 45 :: (d ++ 45 :: e)))) = some id ∧
      hexDecode a = some pa ∧ hexDecode b = some pb ∧ hexDecode c = some pc ∧ hexDecode d = some pd ∧
      hexDecode e = some pe ∧ id.bytes = pa ++ (pb ++ (pc ++ (pd ++ pe))) := by
  have inside {part : Str} (known : ∀ digit ∈ part, digit ∈ a ++ (b ++ (c ++ (d ++ e)))) :
      ∀ digit ∈ part, (fromHexChar digit).isSome = true := fun digit member => hex digit (known digit member)
  obtain ⟨pe, he, group5⟩ := readBytes_group 6 0 10 [] (by decide) (by decide) le
    (inside (fun digit member => by simp [member])) rfl
  obtain ⟨pd, hd, group4⟩ := readBytes_group 2 6 8 (45 :: e) (by decide) (by decide) ld
    (inside (fun digit member => by simp [member])) (by simpa using group5)
  obtain ⟨pc, hc, group3⟩ := readBytes_group 2 8 6 (45 :: (d ++ 45 :: e)) (by decide) (by decide) lc
    (inside (fun digit member => by simp [member])) (by simpa using group4)
  obtain ⟨pb, hb, group2⟩ := readBytes_group 2 10 4 (45 :: (c ++ 45 :: (d ++ 45 :: e))) (by decide)
    (by decide) lb (inside (fun digit member => by simp [member])) (by simpa using group3)
  obtain ⟨pa, ha, group1⟩ := readBytes_group 4 12 0 (45 :: (b ++ 45 :: (c ++ 45 :: (d ++ 45 :: e))))
    (by decide) (by decide) la (inside (fun digit member => by simp [member])) (by simpa using group2)
  have plain : (a ++ 45 :: (b ++ 45 :: (c ++ 45 :: (d ++ 45 :: e)))).head? ≠ some 123 := by
    match a, la with
    | first :: more, _ =>
      have digit := hex first (by simp)
      rintro ⟨⟩
      revert digit
      decide
  obtain ⟨id, parsed, same⟩ := parse_of_readBytes plain group1
  exact ⟨id, pa, pb, pc, pd, pe, parsed, ha, hb, hc, hd, he, by simpa using same⟩

theorem text_ends (u : Uuid) :
    (∀ c, u.text.head? = some c → visible c = true) ∧
      (∀ c, u.text.getLast? = some c → visible c = true) ∧ u.text ≠ [] := by
  obtain ⟨bytes, size⟩ := u
  have digits := hexEncode_visible
  refine ⟨?_, ?_, ?_⟩
  · intro c first
    apply digits (bytes.take 4) c
    have filled : hexEncode (bytes.take 4) ≠ [] := by
      apply List.ne_nil_of_length_pos
      rw [hexEncode_length, List.length_take, size]
      decide
    simp only [text, List.append_assoc, List.head?_append_of_ne_nil _ filled] at first
    exact List.mem_of_mem_head? first
  · intro c last
    apply digits (bytes.drop 10) c
    have filled : hexEncode (bytes.drop 10) ≠ [] := by
      apply List.ne_nil_of_length_pos
      rw [hexEncode_length, List.length_drop, size]
      decide
    rw [text, List.getLast?_append, List.getLast?_cons,
      List.getLast?_eq_some_getLast filled] at last
    cases Option.some.inj last
    exact List.getLast_mem filled
  · simp [text]

theorem trimSpace_text (u : Uuid) : trimSpace u.text = u.text :=
  trimSpace_of_visible u.text_ends.1 u.text_ends.2.1

theorem text_valid (u : Uuid) : validUtf8 u.text = true := by
  have digits : hexDigits.all (· ≤ 0x7f) = true := by decide
  have ascii (bytes : List UInt8) : ∀ c ∈ hexEncode bytes, c ≤ 0x7f := fun c member => by
    simpa using List.all_eq_true.mp digits c (hexEncode_digits bytes c member)
  apply validUtf8_ascii
  intro c member
  simp only [text, List.mem_append, List.mem_cons] at member
  rcases member with ((((first | rfl | second) | rfl | third) | rfl | fourth) | rfl | fifth)
  · exact ascii _ c first
  · decide
  · exact ascii _ c second
  · decide
  · exact ascii _ c third
  · decide
  · exact ascii _ c fourth
  · decide
  · exact ascii _ c fifth

theorem parse_text (u : Uuid) : parse u.text = some u := by
  have size := u.size
  have length (part : List UInt8) (count : Nat) (same : part.length = count) :
      (hexEncode part).length = 2 * count := by rw [hexEncode_length, same]
  have hex (part : List UInt8) : ∀ digit ∈ hexEncode part, (fromHexChar digit).isSome = true :=
    hexDecode_isSome (by rw [hexDecode_hexEncode]; rfl)
  obtain ⟨id, pa, pb, pc, pd, pe, parsed, ha, hb, hc, hd, he, same⟩ := parse_groups
    (length (u.bytes.take 4) 4 (by simp [size])) (length ((u.bytes.drop 4).take 2) 2 (by simp [size]))
    (length ((u.bytes.drop 6).take 2) 2 (by simp [size])) (length ((u.bytes.drop 8).take 2) 2 (by simp [size]))
    (length (u.bytes.drop 10) 6 (by simp [size]))
    (by
      simp only [List.mem_append]
      rintro digit (member | member | member | member | member) <;> exact hex _ digit member)
  rw [hexDecode_hexEncode] at ha hb hc hd he
  cases ha
  cases hb
  cases hc
  cases hd
  cases he
  have joined (start count : Nat) :
      (u.bytes.drop start).take count ++ u.bytes.drop (start + count) = u.bytes.drop start := by
    rw [← List.drop_drop, List.take_append_drop]
  rw [joined 8 2, joined 6 2, joined 4 2, List.take_append_drop] at same
  have whole : id = u := by
    cases id
    cases u
    cases same
    rfl
  rw [← whole, ← parsed, whole]
  simp [text]

end Uuid
end EdgeGuard.Postgres
