import EdgeGuard.Go.Strings

/-! Well-formed UTF-8 as a finite automaton over bytes, and its stability under
the trimming of white space. -/
namespace EdgeGuard.Go

/-- What the next bytes must be for the text so far to become well formed. -/
inductive Utf8State where
  | start | tail1 | tail2 | tail3 | afterE0 | afterED | afterF0 | afterF4 | reject
  deriving DecidableEq, Repr

namespace Utf8State

def all : List Utf8State :=
  [start, tail1, tail2, tail3, afterE0, afterED, afterF0, afterF4, reject]

theorem mem_all (state : Utf8State) : state ∈ all := by cases state <;> decide

def expect (low high byte : UInt8) (next : Utf8State) : Utf8State :=
  if low ≤ byte ∧ byte ≤ high then next else reject

/-- The first byte of a character fixes how many bytes follow. The second byte
is restricted where it would encode a surrogate, a number that fits in fewer
bytes or one beyond the last code point. -/
def lead (byte : UInt8) : Utf8State :=
  if byte ≤ 0x7f then start
  else if 0xc2 ≤ byte ∧ byte ≤ 0xdf then tail1
  else if byte = 0xe0 then afterE0
  else if byte = 0xed then afterED
  else if 0xe1 ≤ byte ∧ byte ≤ 0xef then tail2
  else if byte = 0xf0 then afterF0
  else if 0xf1 ≤ byte ∧ byte ≤ 0xf3 then tail3
  else if byte = 0xf4 then afterF4
  else reject

def next : Utf8State → UInt8 → Utf8State
  | .start, byte => lead byte
  | .tail1, byte => expect 0x80 0xbf byte start
  | .tail2, byte => expect 0x80 0xbf byte tail1
  | .tail3, byte => expect 0x80 0xbf byte tail2
  | .afterE0, byte => expect 0xa0 0xbf byte tail1
  | .afterED, byte => expect 0x80 0x9f byte tail1
  | .afterF0, byte => expect 0x90 0xbf byte tail2
  | .afterF4, byte => expect 0x80 0x8f byte tail2
  | .reject, _ => reject

end Utf8State

def utf8From (state : Utf8State) (s : Str) : Utf8State := s.foldl Utf8State.next state

/-- `utf8.ValidString`. -/
def validUtf8 (s : Str) : Bool := utf8From .start s == .start

theorem utf8From_append (state : Utf8State) (a b : Str) :
    utf8From state (a ++ b) = utf8From (utf8From state a) b := List.foldl_append

private theorem spaces_complete : ∀ code ∈ spaces, utf8From .start code = .start := by decide

/-- No encoding of white space starts with a continuation byte, so it can only
follow a complete character. -/
private theorem spaces_follow : ∀ code ∈ spaces, ∀ state ∈ Utf8State.all,
    utf8From state code = .start → state = .start := by decide

private theorem strip_valid (fuel : Nat) {s : Str} (valid : validUtf8 s = true) :
    validUtf8 (strip spaces fuel s) = true := by
  apply strip_induction (P := fun t => validUtf8 t = true) _ _ valid
  intro code known tail valid
  simpa only [validUtf8, utf8From_append, spaces_complete code known] using valid

private theorem strip_reversed_valid (fuel : Nat) {s : Str} (valid : validUtf8 s.reverse = true) :
    validUtf8 (strip (spaces.map List.reverse) fuel s).reverse = true := by
  apply strip_induction (P := fun t => validUtf8 t.reverse = true) _ _ valid
  intro code member tail valid
  obtain ⟨original, known, rfl⟩ := List.mem_map.mp member
  simp only [validUtf8, List.reverse_append, List.reverse_reverse, utf8From_append,
    beq_iff_eq] at valid
  have ready := spaces_follow original known _ (Utf8State.mem_all _) valid
  simpa only [validUtf8, beq_iff_eq] using ready

theorem trimSpace_valid {s : Str} (valid : validUtf8 s = true) : validUtf8 (trimSpace s) = true := by
  apply strip_reversed_valid
  rw [List.reverse_reverse]
  exact strip_valid _ valid

private theorem strip_restores (fuel : Nat) {s : Str} (valid : validUtf8 (strip spaces fuel s) = true) :
    validUtf8 s = true := by
  by_contra invalid
  refine strip_induction (P := fun t => ¬ validUtf8 t = true) ?_ fuel invalid valid
  intro code known tail invalid
  simpa only [validUtf8, utf8From_append, spaces_complete code known] using invalid

private theorem strip_reversed_restores (fuel : Nat) {s : Str}
    (valid : validUtf8 (strip (spaces.map List.reverse) fuel s).reverse = true) : validUtf8 s.reverse = true := by
  by_contra invalid
  refine strip_induction (P := fun t => ¬ validUtf8 t.reverse = true) ?_ fuel invalid valid
  intro code member tail invalid valid
  obtain ⟨original, known, rfl⟩ := List.mem_map.mp member
  refine invalid ?_
  simp only [validUtf8, beq_iff_eq] at valid
  simp only [validUtf8, List.reverse_append, List.reverse_reverse, utf8From_append, valid,
    spaces_complete original known, beq_self_eq_true]

/-- White space around a text is well formed. -/
theorem valid_of_trimSpace {s : Str} (valid : validUtf8 (trimSpace s) = true) : validUtf8 s = true := by
  refine strip_restores s.length ?_
  rw [← List.reverse_reverse (strip spaces s.length s)]
  exact strip_reversed_restores _ valid

/-- How many bytes are missing from the character. -/
def Utf8State.rank : Utf8State → Nat
  | .start => 0
  | .tail1 => 1
  | .tail2 | .afterE0 | .afterED => 2
  | .tail3 | .afterF0 | .afterF4 => 3
  | .reject => 0

/-- The encoding of U+FFFD. -/
def replacement : Str := [0xef, 0xbf, 0xbd]

/-- Characters are kept, and a byte that starts none is replaced. -/
def coerceUtf8 : Nat → Str → Str
  | 0, _ => []
  | _ + 1, [] => []
  | fuel + 1, byte :: rest =>
    let missing := (Utf8State.lead byte).rank
    if utf8From (Utf8State.lead byte) (rest.take missing) = .start then
      byte :: rest.take missing ++ coerceUtf8 fuel (rest.drop missing)
    else replacement ++ coerceUtf8 fuel rest

/-- What `encoding/json` makes of a string: invalid bytes become U+FFFD. -/
def toValidUTF8 (s : Str) : Str := coerceUtf8 s.length s

theorem utf8From_reject (s : Str) : utf8From .reject s = .reject := by
  induction s with
  | nil => rfl
  | cons byte rest ih => exact ih

private theorem next_rank {state : Utf8State} (inside : state ≠ .start) (byte : UInt8) :
    state.next byte = .reject ∨ (state.next byte).rank + 1 = state.rank := by
  have expected {low high : UInt8} {after : Utf8State} :
      Utf8State.expect low high byte after = .reject ∨
        Utf8State.expect low high byte after = after := by
    unfold Utf8State.expect
    split
    · exact .inr rfl
    · exact .inl rfl
  cases state with
  | start => contradiction
  | reject => exact .inl rfl
  | _ =>
    rcases expected with failed | passed
    · exact .inl failed
    · exact .inr (congrArg (·.rank + 1) passed)

/-- A text that completes a character does so with the bytes that are missing. -/
theorem utf8From_take {state : Utf8State} {s : Str} (complete : utf8From state s = .start) :
    utf8From state (s.take state.rank) = .start := by
  induction s generalizing state with
  | nil => simpa using complete
  | cons byte rest ih =>
    by_cases inside : state = .start
    · subst inside
      rfl
    · rcases next_rank inside byte with failed | fewer
      · have rejected : utf8From .reject rest = .start := failed ▸ complete
        rw [utf8From_reject] at rejected
        contradiction
      · rw [← fewer]
        exact ih complete

private theorem next_zero : ∀ state ∈ Utf8State.all, state ≠ .start → state.next 0 = .reject := by decide

/-- The bytes that complete a character are not zero. -/
theorem utf8From_nonzero {state : Utf8State} {s : Str} (inside : state ≠ .start)
    (short : s.length ≤ state.rank) (complete : utf8From state s = .start) : 0 ∉ s := by
  induction s generalizing state with
  | nil => exact List.not_mem_nil
  | cons byte rest ih =>
    have after : utf8From (state.next byte) rest = .start := complete
    have fewer : (state.next byte).rank + 1 = state.rank := by
      refine (next_rank inside byte).resolve_left ?_
      intro failed
      rw [failed, utf8From_reject] at after
      contradiction
    intro zero
    rcases List.mem_cons.mp zero with rfl | later
    · rw [next_zero state (Utf8State.mem_all state) inside, utf8From_reject] at after
      contradiction
    · simp only [List.length_cons] at short
      by_cases done : state.next byte = .start
      · rw [done] at fewer
        have empty : rest.length = 0 := by
          have ends : Utf8State.start.rank = 0 := rfl
          omega
        rw [List.length_eq_zero_iff.mp empty] at later
        cases later
      · exact ih done (by omega) after later

theorem coerceUtf8_valid (fuel : Nat) (s : Str) : utf8From .start (coerceUtf8 fuel s) = .start := by
  induction fuel generalizing s with
  | zero => rfl
  | succ fuel ih =>
    cases s with
    | nil => rfl
    | cons byte rest =>
      rw [coerceUtf8]
      split
      · rename_i complete
        rw [utf8From_append, show utf8From .start (byte :: rest.take (Utf8State.lead byte).rank) =
          .start from complete]
        exact ih _
      · rw [utf8From_append, show utf8From .start replacement = .start by decide]
        exact ih rest

theorem toValidUTF8_valid (s : Str) : validUtf8 (toValidUTF8 s) = true := by
  simpa [validUtf8, toValidUTF8] using coerceUtf8_valid s.length s

theorem coerceUtf8_eq {fuel : Nat} {s : Str} (enough : s.length ≤ fuel)
    (valid : utf8From .start s = .start) : coerceUtf8 fuel s = s := by
  induction fuel generalizing s with
  | zero => exact (List.length_eq_zero_iff.mp (Nat.le_zero.mp enough)).symm
  | succ fuel ih =>
    cases s with
    | nil => rfl
    | cons byte rest =>
      have complete : utf8From (Utf8State.lead byte) (rest.take (Utf8State.lead byte).rank) = .start :=
        utf8From_take valid
      have after : utf8From .start (rest.drop (Utf8State.lead byte).rank) = .start := by
        have whole : utf8From (Utf8State.lead byte) rest = .start := valid
        rwa [← List.take_append_drop (Utf8State.lead byte).rank rest, utf8From_append, complete] at whole
      have shorter : (rest.drop (Utf8State.lead byte).rank).length ≤ fuel := by
        simp only [List.length_cons] at enough
        simp only [List.length_drop]
        omega
      rw [coerceUtf8]
      rw [if_pos complete, ih shorter after, List.cons_append, List.take_append_drop]

theorem toValidUTF8_eq_iff {s : Str} : toValidUTF8 s = s ↔ validUtf8 s = true := by
  constructor
  · intro same
    exact same ▸ toValidUTF8_valid s
  · intro valid
    exact coerceUtf8_eq (Nat.le_refl _) (by simpa [validUtf8] using valid)

theorem coerceUtf8_replaces {fuel : Nat} {s : Str} (enough : s.length ≤ fuel) :
    coerceUtf8 fuel s = s ∨ 0xef ∈ coerceUtf8 fuel s := by
  induction fuel generalizing s with
  | zero => exact .inl (List.length_eq_zero_iff.mp (Nat.le_zero.mp enough)).symm
  | succ fuel ih =>
    cases s with
    | nil => exact .inl rfl
    | cons byte rest =>
      simp only [List.length_cons] at enough
      rw [coerceUtf8]
      split
      · have shorter : (rest.drop (Utf8State.lead byte).rank).length ≤ fuel := by
          simp only [List.length_drop]
          omega
        rcases ih shorter with same | replaced
        · left
          rw [same, List.cons_append, List.take_append_drop]
        · exact .inr (List.mem_append_right _ replaced)
      · exact .inr (List.mem_append_left _ List.mem_cons_self)

/-- An ASCII character is kept wherever it stands. -/
theorem mem_toValidUTF8 {s : Str} {c : UInt8} (ascii : c ≤ 0x7f) (member : c ∈ s) : c ∈ toValidUTF8 s := by
  have kept : ∀ fuel s, s.length ≤ fuel → c ∈ s → c ∈ coerceUtf8 fuel s := by
    intro fuel
    induction fuel with
    | zero =>
      intro s enough member
      rw [List.length_eq_zero_iff.mp (Nat.le_zero.mp enough)] at member
      cases member
    | succ fuel ih =>
      intro s enough member
      cases s with
      | nil => cases member
      | cons byte rest =>
        simp only [List.length_cons] at enough
        rw [coerceUtf8]
        split
        · have shorter : (rest.drop (Utf8State.lead byte).rank).length ≤ fuel := by
            simp only [List.length_drop]
            omega
          rw [← List.take_append_drop (Utf8State.lead byte).rank rest, ← List.cons_append] at member
          rcases List.mem_append.mp member with first | later
          · exact List.mem_append_left _ first
          · exact List.mem_append_right _ (ih _ shorter later)
        · rename_i broken
          rcases List.mem_cons.mp member with rfl | later
          · have alone : Utf8State.lead c = .start := if_pos ascii
            rw [alone] at broken
            exact absurd rfl broken
          · exact List.mem_append_right _ (ih rest (by omega) later)
  exact kept s.length s (Nat.le_refl _) member

private theorem spaces_unreplaced : ∀ code ∈ spaces, 0xef ∉ code := by decide

theorem toValidUTF8_ne_nil {s : Str} (nonempty : s ≠ []) : toValidUTF8 s ≠ [] := by
  rcases coerceUtf8_replaces (Nat.le_refl s.length) with same | replaced
  · rwa [toValidUTF8, same]
  · exact List.ne_nil_of_mem replaced

theorem toValidUTF8_nonblank {s : Str} (nonblank : trimSpace s ≠ []) : trimSpace (toValidUTF8 s) ≠ [] := by
  rcases coerceUtf8_replaces (Nat.le_refl s.length) with same | replaced
  · rwa [toValidUTF8, same]
  · exact List.ne_nil_of_mem ((mem_trimSpace_iff spaces_unreplaced).mpr replaced)

theorem validUtf8_ascii {s : Str} (ascii : ∀ byte ∈ s, byte ≤ 0x7f) : validUtf8 s = true := by
  have stays : utf8From .start s = .start := by
    induction s with
    | nil => rfl
    | cons byte rest ih =>
      have first : Utf8State.next .start byte = .start := if_pos (ascii byte (by simp))
      change utf8From (Utf8State.next .start byte) rest = .start
      rw [first]
      exact ih (fun other member => ascii other (List.mem_cons_of_mem _ member))
  simp [validUtf8, stays]

end EdgeGuard.Go
