import EdgeGuard.Go.Utf8

/-! `strings.ToUpper` and `strings.ToLower`. ASCII letters are mapped by arithmetic and
all other characters by the case table of Unicode, which is data of its own; a byte that
starts no character counts as U+FFFD, as everywhere where Go ranges over a string. -/
namespace EdgeGuard.Go

/-- The simple case mappings beyond ASCII, on the encodings of characters. They lead to
characters other than U+0000. -/
structure CaseTable where
  upper : Str → Str
  lower : Str → Str
  upper_kept : ∀ code, validUtf8 code = true → 0 ∉ code →
    validUtf8 (upper code) = true ∧ 0 ∉ upper code

/-- `strings.Map` with a mapping given on ASCII and beyond it. -/
def mapRunes (ascii : UInt8 → UInt8) (table : Str → Str) : Nat → Str → Str
  | 0, _ => []
  | _ + 1, [] => []
  | fuel + 1, byte :: rest =>
    if byte ≤ 0x7f then ascii byte :: mapRunes ascii table fuel rest
    else
      let missing := (Utf8State.lead byte).rank
      if utf8From (Utf8State.lead byte) (rest.take missing) = .start then
        table (byte :: rest.take missing) ++ mapRunes ascii table fuel (rest.drop missing)
      else table replacement ++ mapRunes ascii table fuel rest

/-- Texts of ASCII are mapped byte by byte. -/
def mapCase (ascii : UInt8 → UInt8) (table : Str → Str) (s : Str) : Str :=
  if s.all (· ≤ 0x7f) then s.map ascii else mapRunes ascii table s.length s

def upperASCII (c : UInt8) : UInt8 := if 97 ≤ c ∧ c ≤ 122 then c - 32 else c

def lowerASCII (c : UInt8) : UInt8 := if 65 ≤ c ∧ c ≤ 90 then c + 32 else c

def CaseTable.toUpper (table : CaseTable) (s : Str) : Str := mapCase upperASCII table.upper s

def CaseTable.toLower (table : CaseTable) (s : Str) : Str := mapCase lowerASCII table.lower s

/-- No character beyond ASCII has another case. -/
def CaseTable.plain : CaseTable := ⟨id, id, fun _ valid zero => ⟨valid, zero⟩⟩

theorem upperASCII_ascii {c : UInt8} (ascii : c ≤ 0x7f) : upperASCII c ≤ 0x7f := by
  unfold upperASCII
  split <;> grind

theorem upperASCII_zero {c : UInt8} : 0 = upperASCII c ↔ 0 = c := by
  unfold upperASCII
  split <;> grind

/-- The letters of an ASCII text that have the case already are kept. -/
theorem mapCase_eq {ascii : UInt8 → UInt8} {table : Str → Str} {s : Str}
    (kept : ∀ c ∈ s, c ≤ 0x7f ∧ ascii c = c) : mapCase ascii table s = s := by
  have short : s.all (· ≤ 0x7f) = true := List.all_eq_true.mpr (fun c member => decide_eq_true (kept c member).1)
  rw [mapCase, if_pos short]
  exact (List.map_congr_left (fun c member => (kept c member).2)).trans s.map_id

theorem toUpper_of_upper (table : CaseTable) {s : Str} (letters : ∀ c ∈ s, 65 ≤ c ∧ c ≤ 90) :
    table.toUpper s = s := by
  apply mapCase_eq
  intro c member
  have range := letters c member
  unfold upperASCII
  grind

theorem toLower_of_lower (table : CaseTable) {s : Str} (letters : ∀ c ∈ s, 97 ≤ c ∧ c ≤ 122) :
    table.toLower s = s := by
  apply mapCase_eq
  intro c member
  have range := letters c member
  unfold lowerASCII
  grind

variable {table : CaseTable}

/-- A character beyond ASCII is looked up with a code that has no zero byte. -/
theorem looked_up {byte : UInt8} {rest : Str} (beyond : ¬ byte ≤ 0x7f)
    (complete : utf8From (Utf8State.lead byte) (rest.take (Utf8State.lead byte).rank) = .start) :
    validUtf8 (byte :: rest.take (Utf8State.lead byte).rank) = true ∧
      0 ∉ byte :: rest.take (Utf8State.lead byte).rank := by
  have inside : Utf8State.lead byte ≠ .start := by
    unfold Utf8State.lead
    grind
  refine ⟨beq_iff_eq.mpr complete, ?_⟩
  intro zero
  rcases List.mem_cons.mp zero with rfl | later
  · exact beyond (by decide)
  · exact utf8From_nonzero inside (List.length_take_le _ _) complete later

theorem mapRunes_valid (fuel : Nat) (s : Str) :
    utf8From .start (mapRunes upperASCII table.upper fuel s) = .start := by
  have after {code tail : Str} (valid : validUtf8 code = true) (ih : utf8From .start tail = .start) :
      utf8From .start (code ++ tail) = .start := by
    rw [utf8From_append, beq_iff_eq.mp valid, ih]
  induction fuel generalizing s with
  | zero => rfl
  | succ fuel ih =>
    cases s with
    | nil => rfl
    | cons byte rest =>
      simp only [mapRunes]
      split
      · rename_i ascii
        have letter : validUtf8 [upperASCII byte] = true := by
          apply validUtf8_ascii
          intro c member
          rw [List.mem_singleton.mp member]
          exact upperASCII_ascii ascii
        exact after letter (ih rest)
      · rename_i beyond
        split
        · rename_i complete
          obtain ⟨valid, nonzero⟩ := looked_up beyond complete
          exact after (table.upper_kept _ valid nonzero).1 (ih _)
        · exact after (table.upper_kept replacement (by decide) (by decide)).1 (ih rest)

theorem zero_mem_mapRunes {fuel : Nat} {s : Str} (enough : s.length ≤ fuel)
    (valid : utf8From .start s = .start) : 0 ∈ mapRunes upperASCII table.upper fuel s ↔ 0 ∈ s := by
  induction fuel generalizing s with
  | zero => rw [List.length_eq_zero_iff.mp (Nat.le_zero.mp enough), mapRunes]
  | succ fuel ih =>
    cases s with
    | nil => rw [mapRunes]
    | cons byte rest =>
      simp only [List.length_cons] at enough
      have whole : utf8From (Utf8State.lead byte) rest = .start := valid
      have complete := utf8From_take whole
      have later : utf8From .start (rest.drop (Utf8State.lead byte).rank) = .start := by
        rwa [← List.take_append_drop (Utf8State.lead byte).rank rest, utf8From_append, complete] at whole
      have shorter : (rest.drop (Utf8State.lead byte).rank).length ≤ fuel := by
        rw [List.length_drop]
        omega
      simp only [mapRunes, complete, if_true]
      split
      · rename_i ascii
        have alone : Utf8State.lead byte = .start := if_pos ascii
        rw [alone] at whole
        rw [List.mem_cons, List.mem_cons, upperASCII_zero, ih (by omega) whole]
      · rename_i beyond
        obtain ⟨code, nonzero⟩ := looked_up beyond complete
        have mapped := (table.upper_kept _ code nonzero).2
        rw [List.mem_append, ih shorter later, ← List.take_append_drop (Utf8State.lead byte).rank rest,
          ← List.cons_append, List.mem_append, List.take_append_drop]
        simp only [mapped, nonzero, false_or]

theorem toUpper_valid (s : Str) : validUtf8 (table.toUpper s) = true := by
  unfold CaseTable.toUpper mapCase
  split
  · rename_i short
    apply validUtf8_ascii
    intro c member
    obtain ⟨byte, present, rfl⟩ := List.mem_map.mp member
    exact upperASCII_ascii (of_decide_eq_true (List.all_eq_true.mp short byte present))
  · exact beq_iff_eq.mpr (mapRunes_valid _ s)

theorem zero_mem_toUpper {s : Str} (valid : validUtf8 s = true) : 0 ∈ table.toUpper s ↔ 0 ∈ s := by
  unfold CaseTable.toUpper mapCase
  split
  · rw [List.mem_map]
    constructor
    · rintro ⟨byte, present, zero⟩
      rwa [upperASCII_zero.mp zero.symm]
    · intro member
      exact ⟨0, member, rfl⟩
  · exact zero_mem_mapRunes (Nat.le_refl _) (beq_iff_eq.mp valid)

end EdgeGuard.Go
